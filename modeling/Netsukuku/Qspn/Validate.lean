import Mathlib
import Netsukuku.Qspn.Path

/-!
# ETP validation

`check_incoming_message` is the gate every received message passes before it is revised; a message
that fails it costs its sender the arc.  The Boolean checks are the source's; beside them stands
the declarative reading the rest of the development uses.

* `HopListOk` / `checkHopList_iff` — a hop trail climbs and names real positions.
* `WellFormed` / `checkAnyMessage_iff` — the shape a message must have.
* `checkIncomingMessage_iff`, `checkOutgoingMessage_iff` — the two gates differ only in whether
  the sender must be someone else or the node itself.
-/

namespace Netsukuku

/-- `check_hop_list`'s loop: `curlvl` is the level of the hop before. -/
def checkHopListFrom (t : Topology) : ℕ → List HCoord → Bool
  | _, [] => true
  | curlvl, c :: cs =>
      if c.level < curlvl ∨ t.levels ≤ c.level then false
      else
        match t.gsize c.level with
        | none => false -- excluded by the test above
        | some gsize =>
            if gsize.toNat ≤ c.pos.toNat then false else checkHopListFrom t c.level cs

/-- Hop levels must be non-decreasing and in range, and every position below its g-node size. -/
def checkHopList (hops : List HCoord) (t : Topology) : Bool := checkHopListFrom t 0 hops

/-- The per-path part of `check_any_message`. -/
def checkPath (t : Topology) (p : EtpPath) : Bool :=
  match p.hops.getLast? with
  | none => false
  | some last =>
      decide (p.ignoreOutside.length = t.levels) &&
        decide (last.level < t.levels) &&
        (p.ignoreOutside.drop (last.level + 1)).all id &&
        decide (p.fingerprint.level = last.level) &&
        decide (p.hops.length = p.arcs.length) &&
        checkHopList p.hops t

/-- Shape checks that apply to every message. -/
def checkAnyMessage (m : EtpMessage) (t : Topology) : Bool :=
  checkHopList m.hops t &&
    decide (m.fingerprints.length = t.levels + 1) &&
    m.fingerprints.zipIdx.all (fun e => decide (e.1.level = e.2)) &&
    m.paths.all (checkPath t)

/-- The two addresses hold the same position at every level. -/
def sameAddress (m : EtpMessage) (myNaddr : Naddr) : Bool :=
  (List.range myNaddr.topology.levels).all fun l => decide (m.nodeAddress.pos l = myNaddr.pos l)

def checkIncomingMessage (m : EtpMessage) (myNaddr : Naddr) : Bool :=
  decide (m.nodeAddress.topology = myNaddr.topology) && !sameAddress m myNaddr &&
    checkAnyMessage m myNaddr.topology

def checkOutgoingMessage (m : EtpMessage) (myNaddr : Naddr) : Bool :=
  decide (m.nodeAddress.topology = myNaddr.topology) && sameAddress m myNaddr &&
    checkAnyMessage m myNaddr.topology

/-! ## The declarative reading -/

/-- The coordinate names a level of the topology. -/
def HCoord.InLevels (t : Topology) (h : HCoord) : Prop := h.level < t.levels

/-- The coordinate names a real position of the topology. -/
def HCoord.IsReal (t : Topology) (h : HCoord) : Prop :=
  ∃ g, t.gsize h.level = some g ∧ h.pos.toNat < g.toNat

/-- Hop levels never decrease. -/
def Ascending (hops : List HCoord) : Prop := hops.Pairwise fun a b => a.level ≤ b.level

instance (t : Topology) (h : HCoord) : Decidable (h.InLevels t) :=
  inferInstanceAs (Decidable (_ < _))

instance (hops : List HCoord) : Decidable (Ascending hops) :=
  inferInstanceAs (Decidable (hops.Pairwise _))

lemma HCoord.IsReal.inLevels {t : Topology} {h : HCoord} (hr : h.IsReal t) : h.InLevels t := by
  obtain ⟨g, hg, _⟩ := hr
  exact (List.getElem?_eq_some_iff.mp hg).1

/-- What `check_hop_list` accepts. -/
structure HopListOk (t : Topology) (hops : List HCoord) : Prop where
  ascending : Ascending hops
  real : ∀ h ∈ hops, h.IsReal t

lemma checkHopListFrom_iff {t : Topology} :
    ∀ {curlvl : ℕ} {hops : List HCoord},
      checkHopListFrom t curlvl hops = true ↔
        HopListOk t hops ∧ ∀ h ∈ hops, curlvl ≤ h.level
  | curlvl, [] => by
      refine iff_of_true rfl ⟨⟨List.Pairwise.nil, ?_⟩, ?_⟩ <;> simp
  | curlvl, c :: cs => by
      rw [checkHopListFrom]
      split_ifs with h
      · refine iff_of_false (by simp) ?_
        rintro ⟨hok, hge⟩
        have hlow := hge c List.mem_cons_self
        have hlev : c.level < t.levels := (hok.real c List.mem_cons_self).inLevels
        omega
      · have hlow : curlvl ≤ c.level := by omega
        obtain ⟨g, hg⟩ : ∃ g, t.gsize c.level = some g := Topology.exists_gsize (by omega)
        rw [hg]
        simp only
        split_ifs with hpos
        · refine iff_of_false (by simp) ?_
          rintro ⟨hok, _⟩
          obtain ⟨g', hg', hlt⟩ := hok.real c List.mem_cons_self
          rw [hg, Option.some.injEq] at hg'
          subst hg'
          omega
        · rw [checkHopListFrom_iff]
          constructor
          · rintro ⟨hok, hge⟩
            refine ⟨⟨List.pairwise_cons.mpr ⟨hge, hok.ascending⟩, ?_⟩, ?_⟩
            · intro h hh
              rcases List.mem_cons.mp hh with rfl | hh
              · exact ⟨g, hg, by omega⟩
              · exact hok.real h hh
            · intro h hh
              rcases List.mem_cons.mp hh with rfl | hh
              · exact hlow
              · exact hlow.trans (hge h hh)
          · rintro ⟨hok, _⟩
            obtain ⟨hge, hasc⟩ := List.pairwise_cons.mp hok.ascending
            exact ⟨⟨hasc, fun h hh => hok.real h (List.mem_cons_of_mem c hh)⟩, hge⟩

theorem checkHopList_iff {t : Topology} {hops : List HCoord} :
    checkHopList hops t = true ↔ HopListOk t hops := by
  rw [checkHopList, checkHopListFrom_iff]
  exact and_iff_left fun _ _ => Nat.zero_le _

/-- What `check_any_message` accepts of one path. -/
structure PathOk (t : Topology) (p : EtpPath) : Prop where
  hops_ne_nil : p.hops ≠ []
  length_ignoreOutside : p.ignoreOutside.length = t.levels
  ignored_above : ∀ l, (p.hops.getLast hops_ne_nil).level < l →
    ∀ b, p.ignoreOutside[l]? = some b → b = true
  fingerprint_level : p.fingerprint.level = (p.hops.getLast hops_ne_nil).level
  length_arcs : p.hops.length = p.arcs.length
  hops_ok : HopListOk t p.hops

/-- What `check_any_message` accepts. -/
structure WellFormed (t : Topology) (m : EtpMessage) : Prop where
  hops_ok : HopListOk t m.hops
  length_fingerprints : m.fingerprints.length = t.levels + 1
  fingerprint_level : ∀ (l : ℕ) (fp : Fp), m.fingerprints[l]? = some fp → fp.level = l
  paths_ok : ∀ p ∈ m.paths, PathOk t p

lemma forall_mem_drop_iff {l : List Bool} {n : ℕ} :
    ((l.drop n).all id = true) ↔ ∀ i, n ≤ i → ∀ b, l[i]? = some b → b = true := by
  rw [List.all_eq_true]
  constructor
  · intro h i hi b hb
    refine h b (List.mem_iff_getElem?.mpr ⟨i - n, ?_⟩)
    rw [List.getElem?_drop, Nat.add_sub_cancel' hi, hb]
  · intro h b hb
    obtain ⟨i, hi⟩ := List.mem_iff_getElem?.mp hb
    rw [List.getElem?_drop] at hi
    exact h (n + i) (Nat.le_add_right n i) b hi

theorem checkPath_iff {t : Topology} {p : EtpPath} : checkPath t p = true ↔ PathOk t p := by
  unfold checkPath
  by_cases hne : p.hops = []
  · simp only [hne, List.getLast?_nil, Bool.false_eq_true, false_iff]
    exact fun h => h.hops_ne_nil hne
  · rw [List.getLast?_eq_getLast_of_ne_nil hne]
    simp only [Bool.and_eq_true, decide_eq_true_eq, checkHopList_iff, forall_mem_drop_iff]
    constructor
    · rintro ⟨⟨⟨⟨⟨hlen, hlev⟩, hign⟩, hfp⟩, harcs⟩, hops⟩
      exact ⟨hne, hlen, fun l hl => hign l hl, hfp, harcs, hops⟩
    · intro h
      exact ⟨⟨⟨⟨⟨h.length_ignoreOutside, (h.hops_ok.real _ (List.getLast_mem hne)).inLevels⟩,
        fun l hl => h.ignored_above l hl⟩, h.fingerprint_level⟩, h.length_arcs⟩, h.hops_ok⟩

theorem checkAnyMessage_iff {t : Topology} {m : EtpMessage} :
    checkAnyMessage m t = true ↔ WellFormed t m := by
  unfold checkAnyMessage
  simp only [Bool.and_eq_true, decide_eq_true_eq, checkHopList_iff, List.all_eq_true,
    checkPath_iff]
  have hzip : (∀ e ∈ m.fingerprints.zipIdx, e.1.level = e.2) ↔
      ∀ (l : ℕ) (fp : Fp), m.fingerprints[l]? = some fp → fp.level = l := by
    constructor
    · intro h l fp hfp
      exact h (fp, l) (List.mk_mem_zipIdx_iff_getElem?.mpr hfp)
    · rintro h ⟨fp, l⟩ he
      exact h l fp (List.mk_mem_zipIdx_iff_getElem?.mp he)
  rw [hzip]
  constructor
  · rintro ⟨⟨⟨hhops, hlen⟩, hlev⟩, hpaths⟩
    exact ⟨hhops, hlen, hlev, hpaths⟩
  · intro h
    exact ⟨⟨⟨h.hops_ok, h.length_fingerprints⟩, h.fingerprint_level⟩, h.paths_ok⟩

lemma sameAddress_iff {m : EtpMessage} {n : Naddr} (h : m.nodeAddress.topology = n.topology) :
    sameAddress m n = true ↔ m.nodeAddress = n := by
  rw [← Naddr.positions_eq_iff h, h]
  simp [sameAddress]

/-- **The incoming gate**: same topology, another address, a well-formed message. -/
theorem checkIncomingMessage_iff {m : EtpMessage} {n : Naddr} :
    checkIncomingMessage m n = true ↔
      m.nodeAddress.topology = n.topology ∧ m.nodeAddress ≠ n ∧ WellFormed n.topology m := by
  unfold checkIncomingMessage
  simp only [Bool.and_eq_true, decide_eq_true_eq, Bool.not_eq_true', checkAnyMessage_iff,
    and_assoc]
  refine and_congr_right fun h => and_congr_left fun _ => ?_
  rw [← Bool.not_eq_true, sameAddress_iff h]

/-- **The outgoing gate**: the node's own address, a well-formed message. -/
theorem checkOutgoingMessage_iff {m : EtpMessage} {n : Naddr} :
    checkOutgoingMessage m n = true ↔ m.nodeAddress = n ∧ WellFormed n.topology m := by
  unfold checkOutgoingMessage
  simp only [Bool.and_eq_true, decide_eq_true_eq, checkAnyMessage_iff, and_assoc]
  constructor
  · rintro ⟨ht, hs, hw⟩
    exact ⟨(sameAddress_iff ht).mp hs, hw⟩
  · rintro ⟨rfl, hw⟩
    exact ⟨rfl, (sameAddress_iff rfl).mpr rfl, hw⟩

end Netsukuku
