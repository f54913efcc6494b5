import Mathlib
import Netsukuku.PeerServices.Agreement
import Netsukuku.PeerServices.Forwarder

/-!
# Which messages cannot panic a relay

What a message can make a relay name depends on whom the relay elects.  Here the election is read
off the message, the address it has reached and who is known to take part in the service: a g-node
of the map can be elected exactly if nothing bars it and, unless the relay's own node is barred, it
is nearer to the target than the relay.

* `OnMap`, `RealBetween` — the other g-nodes of the map, and the levels where an address is real.
* `Barred` — what the exclusion tuples and the participation leave out; `mem_forwardExcluded` says
  it is what `forward_msg` excludes.
* `Nearer` — the position that decides between a g-node and myself.
* `Handled` — the condition on a message; `namesFit_iff_handled` is why it is the right one.
* `forwardMsgWith_safe_iff` — no panic is reachable exactly under it.
-/

namespace Netsukuku

open MixedRadix

variable {V : Type}

/-! ## The map of a relay -/

/-- Another g-node of the map at an address. -/
structure OnMap (n : Naddr) (h : HCoord) : Prop where
  inRange : h.InRange n.topology
  other : n.pos h.level ≠ some h.pos

/-- The positions of an address from level `low` up to `high` are real. -/
def RealBetween (n : Naddr) (low high : ℕ) : Prop :=
  ∀ i, low ≤ i → i < high → n.isVirtualAt i = some false

/-- Myself, as a g-node of my map. -/
def PeerState.me (p : PeerState V) : HCoord := ⟨0, p.myPos.positions.getD 0 0⟩

lemma PeerState.me_eq {p : PeerState V} {p₀ : UInt32} (hp₀ : p.myPos.positions[0]? = some p₀) :
    p.me = ⟨0, p₀⟩ := by
  rw [me, List.getD_eq_getElem?_getD, hp₀, Option.getD_some]

lemma PeerState.exists_me (p : PeerState V) :
    ∃ p₀, p.myPos.positions[0]? = some p₀ ∧ p.me = ⟨0, p₀⟩ := by
  have hlen : 0 < p.myPos.positions.length := p.myPos.length_positions ▸ p.myPos.topology.levels_pos
  exact ⟨_, List.getElem?_eq_getElem hlen, me_eq (List.getElem?_eq_getElem hlen)⟩

lemma RealBetween.of_isReal {n : Naddr} (h : n.IsReal) {low high : ℕ}
    (hhigh : high ≤ n.topology.levels) : RealBetween n low high :=
  fun i _ hi => h i (hi.trans_le hhigh)

lemma RealBetween.mono {n : Naddr} {low low' high : ℕ} (h : RealBetween n low high)
    (hle : low ≤ low') : RealBetween n low' high :=
  fun i hi => h i (hle.trans hi)

/-- **A g-node can be named at a scope** if it lies below, is a position of its level, and my own
positions above it are real. -/
lemma fits_iff {n : Naddr} {h : HCoord} {top : ℕ} (htop : top ≤ n.topology.levels) :
    Fits n.topology n.positions h top ↔
      h.level < top ∧ h.InRange n.topology ∧ RealBetween n (h.level + 1) top := by
  have hlen := n.length_positions
  have hget : ∀ i, h.level + 1 ≤ i → i < top →
      (h.pos :: (n.positions.take top).drop (h.level + 1))[i - h.level]? = n.pos i := by
    intro i hi hlt
    rw [show i - h.level = i - (h.level + 1) + 1 by omega, List.getElem?_cons_succ,
      List.getElem?_drop, Nat.add_sub_cancel' hi, List.getElem?_take_of_lt hlt]
    rfl
  constructor
  · rintro ⟨hlt, hrange⟩
    refine ⟨hlt, ?_, fun i hi hitop => ?_⟩
    · obtain ⟨g, hg, hpos⟩ := hrange 0 h.pos rfl
      exact ⟨g, hg, hpos⟩
    · have hi' : i < n.positions.length := by omega
      obtain ⟨g, hg, hpos⟩ := hrange (i - h.level) _
        ((hget i hi hitop).trans (List.getElem?_eq_getElem hi'))
      rw [show h.level + (i - h.level) = i by omega] at hg
      exact Naddr.isVirtualAt_eq_false.mpr ⟨_, g, List.getElem?_eq_getElem hi', hg, hpos⟩
  · rintro ⟨hlt, ⟨g, hg, hpos⟩, hreal⟩
    refine ⟨hlt, fun i q hq => ?_⟩
    cases i with
    | zero =>
        cases hq
        exact ⟨g, hg, hpos⟩
    | succ i =>
        have hitop : h.level + 1 + i < top := by
          rw [List.getElem?_cons_succ, List.getElem?_drop] at hq
          have hlt' := (List.getElem?_eq_some_iff.mp hq).1
          rw [List.length_take] at hlt'
          omega
        have hq' := hget (h.level + 1 + i) (by omega) hitop
        rw [show h.level + 1 + i - h.level = i + 1 by omega, hq] at hq'
        obtain ⟨r, g', hr, hg', hlt'⟩ :=
          Naddr.isVirtualAt_eq_false.mp (hreal (h.level + 1 + i) (by omega) hitop)
        rw [hr] at hq'
        cases hq'
        exact ⟨g', by rw [← hg']; congr 1; omega, hlt'⟩

/-- Myself I can name at a scope if all my positions below it are real. -/
lemma fits_me_iff {p : PeerState V} {top : ℕ} (hmine : p.myPos.topology = p.topology)
    (htop : top ≤ p.topology.levels) :
    Fits p.topology p.myPos.positions p.me top ↔ 0 < top ∧ RealBetween p.myPos 0 top := by
  obtain ⟨p₀, hp₀, hme⟩ := p.exists_me
  rw [← hmine] at htop ⊢
  rw [fits_iff htop, hme]
  refine and_congr_right fun hpos => ⟨?_, fun h => ⟨?_, h.mono (Nat.zero_le _)⟩⟩
  · rintro ⟨⟨g, hg, hlt⟩, hreal⟩ i - hi
    rcases Nat.eq_zero_or_pos i with rfl | hi'
    · exact Naddr.isVirtualAt_eq_false.mpr ⟨p₀, g, hp₀, hg, hlt⟩
    · exact hreal i hi' hi
  · obtain ⟨q, g, hq, hg, hlt⟩ := Naddr.isVirtualAt_eq_false.mp (h 0 (le_refl 0) hpos)
    cases hp₀.symm.trans hq
    exact ⟨g, hg, hlt⟩

/-! ## Whom a message leaves out -/

/-- The g-node `h` of the map at an address lies in the one the tuple names: the address, moved
into `h`, does. -/
def TupleGNode.Covers (gn : TupleGNode) (myPos : List UInt32) (h : HCoord) : Prop :=
  h.level ≤ gn.level ∧ gn.Contains (myPos.set h.level h.pos)

/-- A g-node of the map in which nobody is known to take part in an optional service. -/
structure NotParticipating (p : PeerState V) (pId : ServiceId) (insideLevel : ℕ) (h : HCoord) :
    Prop where
  optional : p.isServiceOptional pId = true
  inside : h = p.me ∨ h.level < insideLevel
  unknown : h ∉ (p.participantSet.get? pId).getD []
  notServed : ¬ (p.services.contains pId = true ∧ h = p.me)

/-- Nobody in the g-node may be asked: it is not known to take part, or a tuple excludes it. -/
def Barred (p : PeerState V) (mf : PeerMessageForwarder) (h : HCoord) : Prop :=
  NotParticipating p mf.pId mf.insideLevel h ∨
    ∃ gn ∈ mf.excludeTupleList, gn.Covers p.myPos.positions h

section Exclusion

variable {t : Topology} {myPos : List UInt32} {h : HCoord}

/-- What `all_gnodes_up_to_lvl` lists. -/
lemma mem_allGnodesUpToLvl_iff {lvl : ℕ} {l : List HCoord} (hlen : myPos.length = t.levels)
    (hl : allGnodesUpToLvl t myPos lvl = .ok l) {p₀ : UInt32} (hp₀ : myPos[0]? = some p₀) :
    h ∈ l ↔ h = ⟨0, p₀⟩ ∨ h.level < lvl ∧ h.InRange t ∧ myPos[h.level]? ≠ some h.pos := by
  constructor
  · intro hmem
    obtain ⟨others, hothers, hl⟩ := Outcome.bind_eq_ok.mp hl
    rw [Outcome.index_eq_ok.mpr hp₀, Outcome.ok_bind] at hl
    cases hl
    rcases List.mem_append.mp hmem with hmem | hmem
    · obtain ⟨here, hhere, hmem⟩ := List.mem_flatten.mp hmem
      obtain ⟨e, he, hrun⟩ := (Outcome.mem_of_mapM hothers here).mp hhere
      obtain ⟨g, hg, hrun⟩ := Outcome.bind_eq_ok.mp hrun
      cases hrun
      obtain ⟨q, hq, rfl⟩ := List.mem_map.mp hmem
      obtain ⟨hqg, hother⟩ := List.mem_filter.mp hq
      obtain ⟨k, hk⟩ := List.mem_iff_getElem?.mp he
      have hklt : k < lvl := by
        have := (List.getElem?_eq_some_iff.mp hk).1
        rw [List.length_take] at this
        omega
      rw [List.getElem?_take_of_lt hklt, List.getElem?_zipIdx, Option.map_eq_some_iff] at hk
      obtain ⟨r, hr, rfl⟩ := hk
      have hg := Outcome.expect_eq_ok.mp hg
      simp only [Nat.zero_add] at hg hqg hother ⊢
      refine .inr ⟨hklt, HCoord.inRange_ofNat hg (List.mem_range.mp hqg), ?_⟩
      rw [hr]
      intro heq
      refine of_decide_eq_true hother ?_
      rw [Option.some.inj heq, UInt32.toNat_ofNat',
        Nat.mod_eq_of_lt ((List.mem_range.mp hqg).trans g.toNat_lt)]
    · exact .inl (List.mem_singleton.mp hmem)
  · rintro (rfl | ⟨hlt, hrange, hother⟩)
    · exact self_mem_allGnodesUpToLvl hl hp₀
    · obtain ⟨g, hg, -⟩ := id hrange
      have hindex : h.level < myPos.length := hlen ▸ (List.getElem?_eq_some_iff.mp hg).1
      rw [List.getElem?_eq_getElem hindex, Ne, Option.some_inj] at hother
      exact mem_allGnodesUpToLvl hl hlt hrange (List.getElem?_eq_getElem hindex) hother

/-- A tuple that is mine contains me. -/
lemma contains_of_mine {gn : TupleGNode} {ret : HCoord}
    (hc : convertTupleGnode myPos gn = .ok (.mine, ret)) :
    ret.level = gn.level ∧ gn.Contains myPos := by
  have hscan : ∀ n ≤ gn.positions.length, convertScan myPos gn.level gn.positions n =
      .ok (.mine, ret) → ret.level = gn.level ∧
        ∀ i < n, myPos[gn.level + i]? = gn.positions[i]? := by
    intro n hn hrun
    induction n with
    | zero =>
        obtain ⟨q, -, hrun⟩ := Outcome.bind_eq_ok.mp hrun
        cases hrun
        exact ⟨rfl, fun i hi => absurd hi (Nat.not_lt_zero i)⟩
    | succ n ih =>
        obtain ⟨mine, hmine, hrun⟩ := Outcome.bind_eq_ok.mp hrun
        obtain ⟨theirs, htheirs, hrun⟩ := Outcome.bind_eq_ok.mp hrun
        by_cases hne : mine ≠ theirs
        · rw [if_pos hne] at hrun
          split_ifs at hrun <;> cases hrun
        · rw [if_neg hne] at hrun
          obtain ⟨hlevel, hagree⟩ := ih (by omega) hrun
          refine ⟨hlevel, fun i hi => ?_⟩
          rcases Nat.lt_succ_iff_lt_or_eq.mp hi with hi | rfl
          · exact hagree i hi
          · rw [Outcome.index_eq_ok.mp hmine, Outcome.index_eq_ok.mp htheirs, not_not.mp hne]
  exact hscan _ (le_refl _) hc

/-- A tuple that is visible parts from my address at its own level. -/
lemma level_of_visible {tuple : List UInt32} {level n : ℕ} {ret : HCoord}
    (hscan : convertScan myPos level tuple n = .ok (.visible, ret)) : ret.level = level := by
  induction n with
  | zero =>
      obtain ⟨q, -, hscan⟩ := Outcome.bind_eq_ok.mp hscan
      cases hscan
  | succ n ih =>
      obtain ⟨mine, -, hscan⟩ := Outcome.bind_eq_ok.mp hscan
      obtain ⟨theirs, -, hscan⟩ := Outcome.bind_eq_ok.mp hscan
      by_cases hne : mine ≠ theirs
      · rw [if_pos hne] at hscan
        split_ifs at hscan with hn
        · cases hscan
          rw [hn, Nat.add_zero]
        · cases hscan
      · rw [if_neg hne] at hscan
        exact ih hscan

/-- Moving my address into a g-node of my map changes it at the level of the g-node only. -/
lemma getElem?_moved {i : ℕ} (hi : h.level ≠ i) : (myPos.set h.level h.pos)[i]? = myPos[i]? :=
  List.getElem?_set_ne hi

/-- Moving it to where it is does not change it. -/
lemma set_self {i : ℕ} {p : UInt32} (hp : myPos[i]? = some p) : myPos.set i p = myPos := by
  obtain ⟨hi, rfl⟩ := List.getElem?_eq_some_iff.mp hp
  exact List.set_getElem_self hi

/-- What a tuple excludes at a node inside its scope is what lies in the g-node it names. -/
lemma mem_excludeInside {gn : TupleGNode} {l : List HCoord} (hlen : myPos.length = t.levels)
    (htop : gn.top ≤ myPos.length) {p₀ : UInt32} (hp₀ : myPos[0]? = some p₀)
    (hh : h = ⟨0, p₀⟩ ∨ h.InRange t ∧ myPos[h.level]? ≠ some h.pos)
    (hl : excludeInside t myPos gn = .ok l) : h ∈ l ↔ gn.Covers myPos h := by
  have hadd := gn.level_add_length
  have hpos : 0 < gn.positions.length := List.length_pos_of_ne_nil gn.nonempty
  obtain ⟨⟨rel, ret⟩, hc, hl⟩ := Outcome.bind_eq_ok.mp hl
  by_cases hrel : rel = .mine
  · subst hrel
    obtain ⟨hlevel, hcontains⟩ := contains_of_mine hc
    rw [mem_allGnodesUpToLvl_iff hlen hl hp₀, hlevel]
    constructor
    · rintro (rfl | ⟨hlt, -, -⟩)
      · exact ⟨Nat.zero_le _, by rwa [set_self hp₀]⟩
      · exact ⟨hlt.le, fun i hi => (getElem?_moved (by omega)).trans (hcontains i hi)⟩
    · rintro ⟨hle, hcovers⟩
      refine hh.imp_right fun ⟨hrange, hother⟩ => ⟨lt_of_le_of_ne hle fun heq => ?_, hrange, hother⟩
      have hlt : h.level < myPos.length := by omega
      have hmoved := hcovers 0 hpos
      rw [Nat.add_zero, ← heq, List.getElem?_set_self hlt, ← hcontains 0 hpos, Nat.add_zero,
        ← heq] at hmoved
      exact hother hmoved.symm
  · obtain ⟨offset, hlt, hlevel, hvisible, hget, hparts, habove⟩ := convertScan_parts hc hrel
    -- a g-node at another level keeps my position where the tuple parts from it
    have hcovers : gn.Covers myPos h → offset = 0 ∧ h = ret := by
      rintro ⟨hle, hcontains⟩
      by_cases hsame : h.level = ret.level
      · refine ⟨by omega, ?_⟩
        have hmoved := hcontains offset hlt
        rw [← hlevel, ← hsame, List.getElem?_set_self (by omega), hget, Option.some_inj] at hmoved
        obtain ⟨level, pos⟩ := h
        obtain ⟨level', pos'⟩ := ret
        cases hsame
        cases hmoved
        rfl
      · have hmoved := hcontains offset hlt
        rw [← hlevel, getElem?_moved hsame, hget] at hmoved
        exact absurd hmoved hparts
    cases rel with
    | mine => exact absurd rfl hrel
    | visible =>
        have hret : ret.level = gn.level := level_of_visible hc
        cases hl
        rw [List.mem_singleton]
        refine ⟨?_, fun h => (hcovers h).2⟩
        rintro rfl
        refine ⟨hret.le, fun i hi => ?_⟩
        rcases Nat.eq_zero_or_pos i with rfl | hi'
        · rw [Nat.add_zero, ← hret, List.getElem?_set_self (by omega), ← hget]
          congr 1
          omega
        · rw [getElem?_moved (by omega), habove i (by omega) hi]
    | hidden =>
        cases hl
        refine ⟨fun hmem => absurd hmem List.not_mem_nil, fun h => ?_⟩
        cases hvisible (hcovers h).1

variable {p : PeerState V} {mf : PeerMessageForwarder}

/-- A g-node of my map, or myself, in the terms of the code. -/
lemma onMap_or_me (hmine : p.myPos.topology = p.topology) {p₀ : UInt32} (hme : p.me = ⟨0, p₀⟩)
    (hh : h = p.me ∨ OnMap p.myPos h) :
    h = ⟨0, p₀⟩ ∨ h.InRange p.topology ∧ p.myPos.positions[h.level]? ≠ some h.pos :=
  hh.imp (fun heq => heq.trans hme) fun hmap => ⟨hmine ▸ hmap.inRange, hmap.other⟩

/-- What `non_participant_gnodes` lists. -/
lemma mem_nonParticipantGnodes (hmine : p.myPos.topology = p.topology)
    (hh : h = p.me ∨ OnMap p.myPos h) {pId : ServiceId} {insideLevel : ℕ} {l : List HCoord}
    (hl : p.nonParticipantGnodes pId insideLevel = .ok l) :
    h ∈ l ↔ NotParticipating p pId insideLevel h := by
  have hlen : p.myPos.positions.length = p.topology.levels := hmine ▸ p.myPos.length_positions
  obtain ⟨p₀, hp₀, hme⟩ := p.exists_me
  have hh' := onMap_or_me hmine hme hh
  rw [PeerState.nonParticipantGnodes] at hl
  split_ifs at hl with hoptional
  · obtain ⟨all, hall, hl⟩ := Outcome.bind_eq_ok.mp hl
    rw [Outcome.index_eq_ok.mpr hp₀, Outcome.ok_bind] at hl
    cases hl
    have hmem := @mem_allGnodesUpToLvl_iff _ _ h _ _ hlen hall _ hp₀
    rw [← hme] at hmem hh' ⊢
    simp only [List.mem_filter, decide_eq_true_eq, Bool.not_eq_true', Bool.and_eq_false_iff,
      decide_eq_false_iff_not, hmem]
    constructor
    · rintro ⟨⟨hinside, hunknown⟩, hserved⟩
      refine ⟨hoptional, hinside.imp_right And.left, hunknown, ?_⟩
      rintro ⟨hreg, heq⟩
      rcases hserved with hfalse | hne
      · rw [hreg] at hfalse
        cases hfalse
      · exact hne heq
    · rintro ⟨-, hinside, hunknown, hserved⟩
      refine ⟨⟨?_, hunknown⟩, ?_⟩
      · rcases hh' with heq | hother
        · exact .inl heq
        · exact hinside.imp_right fun hlt => ⟨hlt, hother⟩
      · by_cases hreg : p.services.contains pId = true
        · exact .inr fun heq => hserved ⟨hreg, heq⟩
        · exact .inl (Bool.eq_false_iff.mpr hreg)
  · cases hl
    exact ⟨fun hmem => absurd hmem List.not_mem_nil, fun hn => absurd hn.optional hoptional⟩

/-- **What `forward_msg` excludes** is what the message and the participation bar. -/
theorem mem_forwardExcluded (hmine : p.myPos.topology = p.topology)
    (hexcluded : ∀ gn ∈ mf.excludeTupleList, gn.topology = p.topology)
    (hh : h = p.me ∨ OnMap p.myPos h) {excluded : List HCoord}
    (hrun : forwardExcluded p mf = .ok excluded) : h ∈ excluded ↔ Barred p mf h := by
  have hlen : p.myPos.positions.length = p.topology.levels := hmine ▸ p.myPos.length_positions
  obtain ⟨p₀, hp₀, hme⟩ := p.exists_me
  have hh' := onMap_or_me hmine hme hh
  obtain ⟨nons, hnons, hrun⟩ := Outcome.bind_eq_ok.mp hrun
  obtain ⟨gns, hgns, hrun⟩ := Outcome.bind_eq_ok.mp hrun
  cases hrun
  have htop : ∀ gn ∈ mf.excludeTupleList, gn.top ≤ p.myPos.positions.length := fun gn hgn => by
    rw [hlen, ← hexcluded gn hgn]
    exact gn.top_le
  rw [List.mem_append, mem_nonParticipantGnodes hmine hh hnons, List.mem_flatten, Barred]
  refine or_congr_right ⟨?_, ?_⟩
  · rintro ⟨l, hl, hmem⟩
    obtain ⟨gn, hgn, hl⟩ := (Outcome.mem_of_mapM hgns l).mp hl
    exact ⟨gn, hgn, (mem_excludeInside hlen (htop gn hgn) hp₀ hh' hl).mp hmem⟩
  · rintro ⟨gn, hgn, hcovers⟩
    obtain ⟨l, hl, hrun⟩ := Outcome.exists_of_mapM hgns gn hgn
    exact ⟨l, hl, (mem_excludeInside hlen (htop gn hgn) hp₀ hh' hrun).mpr hcovers⟩

end Exclusion

/-! ## Who is elected -/

/-- The position of the g-node is nearer to the target's than mine at that level. -/
def Nearer (t : Topology) (myPos : List UInt32) (x : TupleNode) (h : HCoord) : Prop :=
  levelDist t x h.level h.pos.toNat < levelDist t x h.level (myPos.getD h.level 0).toNat

section Election

variable {t : Topology} {myPos : List UInt32} {x y y' : TupleNode} {h : HCoord}
  {excluded : List HCoord} {max : ℕ}

/-- A level of `dist` that does not overflow reads one digit. -/
lemma distStep_eq_ok {distance d level : ℕ} (hd : distStep t x y distance level = .ok d) :
    d = distance * t.radix level + distanceDigit t x y level := by
  obtain ⟨g, hg, hd⟩ := Outcome.bind_eq_ok.mp hd
  obtain ⟨yj, hyj, hd⟩ := Outcome.bind_eq_ok.mp hd
  obtain ⟨xj, hxj, hd⟩ := Outcome.bind_eq_ok.mp hd
  obtain ⟨digit, hdigit, hd⟩ := Outcome.bind_eq_ok.mp hd
  obtain ⟨scaled, hscaled, hd⟩ := Outcome.bind_eq_ok.mp hd
  have hradix := Topology.radix_eq (Outcome.expect_eq_ok.mp hg)
  have hx : x.digit level = xj.toNat := by
    rw [TupleNode.digit, List.getD_eq_getElem?_getD, Outcome.index_eq_ok.mp hxj, Option.getD_some]
  have hy : y.digit level = yj.toNat := by
    rw [TupleNode.digit, List.getD_eq_getElem?_getD, Outcome.index_eq_ok.mp hyj, Option.getD_some]
  have hcircular : digit = distanceDigit t x y level := by
    rw [distanceDigit, circular, hradix, hx, hy]
    rw [distDigit] at hdigit
    split_ifs at hdigit ⊢
    · exact (Except.ok.inj hdigit).symm
    · rw [Outcome.checkedSub] at hdigit
      split_ifs at hdigit
      exact (Except.ok.inj hdigit).symm
  rw [Outcome.checkedMul] at hscaled
  split_ifs at hscaled
  cases hscaled
  rw [Outcome.checkedAdd_eq_ok hd, hradix, hcircular]

/-- A distance that is computed is a mixed-radix value. -/
lemma dist_eq_ok {d : ℕ} (hd : dist t x y = .ok d) :
    d = value t.radix (distanceDigit t x y) y.top := by
  have hrun : ∀ n distance d, (List.range n).reverse.foldlM (distStep t x y) distance = .ok d →
      d = horner t.radix (distanceDigit t x y) n distance := by
    intro n
    induction n with
    | zero =>
        intro distance d hd
        exact (Except.ok.inj hd).symm
    | succ n ih =>
        intro distance d hd
        rw [List.range_succ, List.reverse_append, List.reverse_singleton, List.singleton_append,
          List.foldlM_cons] at hd
        obtain ⟨next, hnext, hd⟩ := Outcome.bind_eq_ok.mp hd
        rw [ih next d hd, distStep_eq_ok hnext, horner]
  obtain ⟨_, -, hd⟩ := Outcome.bind_eq_ok.mp hd
  exact hrun y.top 0 d hd

/-- What is weighed can be named in the target's scope, and counts with its distance. -/
lemma weigh_eq_measured {best best' : Option (HCoord × ℕ)}
    (hw : weigh t myPos x best h = .ok best') :
    ∃ y, makeTupleNode t myPos h x.top = .ok y ∧
      best' = if best.all fun b => decide (gnodeDist t myPos x h < b.2) then
        some (h, gnodeDist t myPos x h) else best := by
  obtain ⟨y, hy, hw⟩ := Outcome.bind_eq_ok.mp hw
  obtain ⟨d, hd, hw⟩ := Outcome.bind_eq_ok.mp hw
  have hdist : d = gnodeDist t myPos x h := by
    rw [dist_eq_ok hd, top_makeTupleNode hy, gnodeDist, value, value]
    refine horner_congr (fun i hi => ?_) 0
    rw [distanceDigit, digit_makeTupleNode hy hi]
  cases hw
  exact ⟨y, hy, by rw [hdist]⟩

/-- So does the best of the scan. -/
lemma approximateOthers_measured {gnodeExists : HCoord → Bool} {best : Option (HCoord × ℕ)}
    (hrun : approximateOthers t myPos x excluded gnodeExists = .ok best) :
    ∀ b ∈ best, (∃ y, makeTupleNode t myPos b.1 x.top = .ok y) ∧
      b.2 = gnodeDist t myPos x b.1 := by
  refine Outcome.foldlM_preserves (P := fun best => ∀ b ∈ best,
    (∃ y, makeTupleNode t myPos b.1 x.top = .ok y) ∧ b.2 = gnodeDist t myPos x b.1)
    (fun b hb => by cases hb) (fun best level best' hbest _ hrun => ?_) hrun
  obtain ⟨g, -, hrun⟩ := Outcome.bind_eq_ok.mp hrun
  refine Outcome.foldlM_preserves (P := fun best => ∀ b ∈ best,
    (∃ y, makeTupleNode t myPos b.1 x.top = .ok y) ∧ b.2 = gnodeDist t myPos x b.1)
    hbest (fun best h best' hbest _ hrun => ?_) hrun
  obtain ⟨mine, -, hrun⟩ := Outcome.bind_eq_ok.mp hrun
  split_ifs at hrun
  · cases hrun
    exact hbest
  · cases hrun
    exact hbest
  · obtain ⟨y, hy, rfl⟩ := weigh_eq_measured hrun
    intro b hb
    split_ifs at hb
    · cases hb
      exact ⟨⟨y, hy⟩, rfl⟩
    · exact hbest b hb

/-- **The highest level where they part decides** between a g-node of my map and myself. -/
lemma not_gnodeDist_lt_iff {p₀ : UInt32} (hx : x.topology = t) (hp₀ : myPos[0]? = some p₀)
    (hlt : h.level < x.top) (hother : myPos[h.level]? ≠ some h.pos)
    (hindex : h.level < myPos.length) (hy : makeTupleNode t myPos h x.top = .ok y)
    (hy' : makeTupleNode t myPos ⟨0, p₀⟩ x.top = .ok y') :
    ¬ gnodeDist t myPos x ⟨0, p₀⟩ < gnodeDist t myPos x h ↔ Nearer t myPos x h := by
  have hdigits : ∀ {k : HCoord} {z : TupleNode}, makeTupleNode t myPos k x.top = .ok z →
      ∀ i < x.top, gnodeDigit myPos k i < t.radix i := by
    intro k z hz i hi
    rw [← digit_makeTupleNode hz hi]
    exact z.digit_lt (topology_makeTupleNode hz) (hi.trans_eq (top_makeTupleNode hz).symm)
  have hmine := gnodeDigit_self hp₀ h.level
  have hne : gnodeDigit myPos ⟨0, p₀⟩ h.level ≠ gnodeDigit myPos h h.level := by
    rw [hmine, gnodeDigit_level, List.getD_eq_getElem _ _ hindex]
    intro heq
    rw [List.getElem?_eq_getElem hindex, Ne, Option.some_inj] at hother
    exact hother (UInt32.toNat_inj.mp heq)
  have hdecides := value_lt_iff hlt
    (fun i hi => circular_lt (x.digit_lt hx hi) (hdigits hy' i hi))
    (fun i hi => circular_lt (x.digit_lt hx hi) (hdigits hy i hi))
    (fun i hi _ => by rw [gnodeDigit_self hp₀, gnodeDigit_above hi])
    (fun heq => hne ((circular_inj (x.digit_lt hx hlt) (hdigits hy' _ hlt)
      (hdigits hy _ hlt)).mp heq))
  rw [Nearer, levelDist, levelDist, gnodeDist, gnodeDist, hdecides, ← hmine,
    ← @gnodeDigit_level myPos h]
  have hcircular : circular (t.radix h.level) (x.digit h.level) (gnodeDigit myPos ⟨0, p₀⟩ h.level) ≠
      circular (t.radix h.level) (x.digit h.level) (gnodeDigit myPos h h.level) := fun heq =>
    hne ((circular_inj (x.digit_lt hx hlt) (hdigits hy' _ hlt) (hdigits hy _ hlt)).mp heq)
  omega

/-- A g-node of my map that is elected although I am not barred is nearer than I am. -/
lemma nearer_of_approximate {p₀ : UInt32} {gnodeExists : HCoord → Bool} (hx : x.topology = t)
    (htop : 0 < x.top) (hp₀ : myPos[0]? = some p₀) (hlt : h.level < x.top)
    (hindex : h.level < myPos.length) (hother : myPos[h.level]? ≠ some h.pos)
    (hmem : (⟨0, p₀⟩ : HCoord) ∉ excluded)
    (ha : approximate t myPos (some x) excluded gnodeExists = .ok (some h)) :
    Nearer t myPos x h := by
  have hfilter : ((some x).filter fun y => decide (y.top ≠ 0)) = some x := by
    rw [Option.filter_some, if_pos (decide_eq_true htop.ne')]
  rw [approximate, hfilter] at ha
  obtain ⟨best, hbest, ha⟩ := Outcome.bind_eq_ok.mp ha
  rw [Outcome.index_eq_ok.mpr hp₀, Outcome.ok_bind, if_neg hmem] at ha
  obtain ⟨best', hbest', ha⟩ := Outcome.bind_eq_ok.mp ha
  obtain ⟨⟨k, d⟩, hk, rfl⟩ := Option.map_eq_some_iff.mp (Except.ok.inj ha)
  obtain ⟨y', hy', hbest'⟩ := weigh_eq_measured hbest'
  rw [hk] at hbest'
  split_ifs at hbest' with hcloser
  · cases hbest'
    exact absurd hp₀ hother
  · obtain ⟨⟨y, hy⟩, hd⟩ := approximateOthers_measured hbest _ hbest'.symm
    refine (not_gnodeDist_lt_iff hx hp₀ hlt hother hindex hy hy').mp fun hmine => hcloser ?_
    rw [← hbest', Option.all_some]
    refine decide_eq_true ?_
    rw [hd]
    exact hmine

/-- Nobody is left only if I am excluded too. -/
lemma mem_of_approximate_none {p₀ : UInt32} {xMacron : Option TupleNode}
    {gnodeExists : HCoord → Bool} (hp₀ : myPos[0]? = some p₀)
    (ha : approximate t myPos xMacron excluded gnodeExists = .ok none) :
    (⟨0, p₀⟩ : HCoord) ∈ excluded := by
  by_contra hmem
  unfold approximate at ha
  split at ha
  · rw [Outcome.index_eq_ok.mpr hp₀, Outcome.ok_bind, if_neg hmem] at ha
    cases ha
  · obtain ⟨best, -, ha⟩ := Outcome.bind_eq_ok.mp ha
    rw [Outcome.index_eq_ok.mpr hp₀, Outcome.ok_bind, if_neg hmem] at ha
    obtain ⟨best', hbest', ha⟩ := Outcome.bind_eq_ok.mp ha
    obtain ⟨y, -, rfl⟩ := weigh_eq_measured hbest'
    cases best with
    | none => cases ha
    | some b =>
        rw [Option.all_some] at ha
        split_ifs at ha <;> cases ha

/-- **Where nothing else exists, I am elected**, unless I am excluded. -/
lemma approximate_nobody {p₀ : UInt32} {xMacron : Option TupleNode}
    (hlen : myPos.length = t.levels) (hx : ∀ x, xMacron = some x → x.topology = t)
    (hmax : t.maxNodes = some max) (hp₀ : myPos[0]? = some p₀)
    (hmake : (⟨0, p₀⟩ : HCoord) ∉ excluded → ∀ x, xMacron = some x → 0 < x.top →
      ∃ y, makeTupleNode t myPos ⟨0, p₀⟩ x.top = .ok y) :
    approximate t myPos xMacron excluded (fun _ => false) =
      .ok (if (⟨0, p₀⟩ : HCoord) ∈ excluded then none else some ⟨0, p₀⟩) := by
  rw [approximate]
  split
  next hnone => rw [Outcome.index_eq_ok.mpr hp₀, Outcome.ok_bind]
  next x hsome =>
    obtain ⟨rfl, htop⟩ := Option.filter_eq_some_iff.mp hsome
    rw [approximateOthers_nobody hlen (hx x rfl ▸ x.top_le), Outcome.ok_bind,
      Outcome.index_eq_ok.mpr hp₀, Outcome.ok_bind]
    split_ifs with hmem
    · rfl
    · obtain ⟨y, hy⟩ := hmake hmem x rfl (Nat.pos_of_ne_zero (of_decide_eq_true htop))
      rw [weigh_of_make hmax (hx x rfl) hy]
      rfl

/-- **Where only one g-node exists, it is elected** if it is not excluded, and I am or it is
nearer. -/
lemma approximate_only {p₀ : UInt32} (hlen : myPos.length = t.levels) (hx : x.topology = t)
    (hmax : t.maxNodes = some max) (hp₀ : myPos[0]? = some p₀) (hlt : h.level < x.top)
    (hh : h.InRange t) (hother : myPos[h.level]? ≠ some h.pos) (hmem : h ∉ excluded)
    (hy : makeTupleNode t myPos h x.top = .ok y)
    (hself : (⟨0, p₀⟩ : HCoord) ∉ excluded →
      (∃ y', makeTupleNode t myPos ⟨0, p₀⟩ x.top = .ok y') ∧ Nearer t myPos x h) :
    approximate t myPos (some x) excluded (fun k => decide (k = h)) = .ok (some h) := by
  have hle : x.top ≤ t.levels := hx ▸ x.top_le
  have htop : 0 < x.top := by omega
  have hfilter : ((some x).filter fun y => decide (y.top ≠ 0)) = some x := by
    rw [Option.filter_some, if_pos (decide_eq_true htop.ne')]
  rw [approximate, hfilter]
  simp only
  rw [approximateOthers_only hlen hle hlt hmem hh hother, weigh_of_make hmax hx hy, Option.all_none,
    if_pos rfl, Outcome.ok_bind, Outcome.index_eq_ok.mpr hp₀, Outcome.ok_bind]
  split_ifs with hme
  · rfl
  · obtain ⟨⟨y', hy'⟩, hnearer⟩ := hself hme
    have hfar := (not_gnodeDist_lt_iff hx hp₀ hlt hother (by omega) hy hy').mpr hnearer
    rw [weigh_of_make hmax hx hy', Option.all_some, if_neg (by simpa using hfar)]
    rfl

end Election

/-! ## The condition on a message -/

/-- A message that makes the relay name nothing it cannot. -/
structure Handled (p : PeerState V) (mf : PeerMessageForwarder) : Prop where
  /-- Where nobody here may serve, the originator is told of the message's own g-node. -/
  answers : Unserved p mf ∨ Barred p mf p.me → RealBetween p.myPos (mf.lvl + 1) mf.n.top
  /-- Where I may, I am compared with the target, and named to the originator. -/
  serves : ¬ Unserved p mf → ¬ Barred p mf p.me →
    RealBetween p.myPos 0 mf.n.top ∧ ∀ x, mf.xMacron = some x → RealBetween p.myPos 0 x.top
  /-- Every other g-node that may be asked is compared with the target. -/
  weighs : ¬ Unserved p mf → ∀ x, mf.xMacron = some x → ∀ h, OnMap p.myPos h → h.level < x.top →
    ¬ Barred p mf h → RealBetween p.myPos (h.level + 1) x.top
  /-- One that can be elected is named to the originator. -/
  asks : ¬ Unserved p mf → ∀ x, mf.xMacron = some x → ∀ h, OnMap p.myPos h → h.level < x.top →
    ¬ Barred p mf h → Barred p mf p.me ∨ Nearer p.topology p.myPos.positions x h →
      h.level < mf.n.top ∧ RealBetween p.myPos (h.level + 1) mf.n.top

section Message

variable {p : PeerState V} {mf : PeerMessageForwarder} {belowLevel : ℕ}

/-- The message's own g-node can be named to its originator if I am real between the two. -/
lemma fits_own_iff (hmine : p.myPos.topology = p.topology) (hdecoded : Decoded p.topology mf) :
    Fits p.topology p.myPos.positions ⟨mf.lvl, mf.pos⟩ mf.n.top ↔
      RealBetween p.myPos (mf.lvl + 1) mf.n.top := by
  have htop : mf.n.top ≤ p.topology.levels := hdecoded.n_topology ▸ mf.n.top_le
  have hrange := hdecoded.inRange
  rw [← hmine] at htop hrange ⊢
  rw [fits_iff htop]
  exact ⟨fun h => h.2.2, fun h => ⟨hdecoded.lvl_lt, hrange, h⟩⟩

/-- **A message is handled if nothing it names is out of scope.** -/
lemma namesFit_of_handled (hmine : p.myPos.topology = p.topology)
    (hdecoded : Decoded p.topology mf) (h : Handled p mf) : NamesFit p mf := by
  obtain ⟨p₀, hp₀, hme⟩ := p.exists_me
  have hlen : p.myPos.positions.length = p.topology.levels := hmine ▸ p.myPos.length_positions
  have hn : mf.n.top ≤ p.topology.levels := hdecoded.n_topology ▸ mf.n.top_le
  have hbarred : ∀ {excluded : List HCoord} {k : HCoord}, forwardExcluded p mf = .ok excluded →
      (k = p.me ∨ OnMap p.myPos k) → (k ∈ excluded ↔ Barred p mf k) := fun hexcluded hk =>
    mem_forwardExcluded hmine hdecoded.excluded_topology hk hexcluded
  have honMap : ∀ {k : HCoord}, k.InRange p.topology → p.myPos.positions[k.level]? ≠ some k.pos →
      OnMap p.myPos k := fun hrange hother => ⟨hmine ▸ hrange, hother⟩
  rintro k top (hserved | ⟨hserved, hexcluded, hx, hw⟩ | ⟨gnodeExists, hserved, hexcluded, ha⟩ |
    ⟨gnodeExists, hserved, hexcluded, ha⟩)
  · exact (fits_own_iff hmine hdecoded).mpr (h.answers (.inl hserved))
  · rename_i x
    have hxt : x.top ≤ p.topology.levels := hdecoded.xMacron_topology x hx ▸ x.top_le
    rcases hw.other_or_self with ⟨hrange, hother⟩ | ⟨hlevel, hself⟩
    · have hmap := honMap hrange hother
      rw [← hmine] at hxt hrange ⊢
      exact (fits_iff hxt).mpr ⟨hw.level_lt, hrange, h.weighs hserved x hx k hmap hw.level_lt
        fun hbar => hw.notMem ((hbarred hexcluded (.inr hmap)).mpr hbar)⟩
    · obtain rfl : k = p.me := by
        obtain ⟨level, pos⟩ := k
        cases hlevel
        exact (PeerState.me_eq hself).symm
      exact (fits_me_iff hmine hxt).mpr ⟨hw.level_lt.pos, (h.serves hserved fun hbar =>
        hw.notMem ((hbarred hexcluded (.inl rfl)).mpr hbar)).2 x hx⟩
  · obtain ⟨hnotMem, ⟨hlevel, hself⟩ | ⟨x, hx, hcandidate⟩⟩ := approximate_eq_some ha
    · obtain rfl : k = p.me := by
        obtain ⟨level, pos⟩ := k
        cases hlevel
        exact (PeerState.me_eq hself).symm
      have hpos : 0 < mf.n.top := hdecoded.lvl_lt.pos
      exact (fits_me_iff hmine hn).mpr ⟨hpos, (h.serves hserved fun hbar =>
        hnotMem ((hbarred hexcluded (.inl rfl)).mpr hbar)).1⟩
    · have hother : p.myPos.positions[k.level]? ≠ some k.pos := by
        obtain ⟨q, hq, hne⟩ := hcandidate.parts
        rw [hq, Ne, Option.some_inj]
        exact hne
      have hrange : k.InRange p.topology := by
        refine (approximate_inRange_or_self ha).resolve_right fun ⟨hlevel, hself⟩ => hother ?_
        rw [hlevel, hself]
      have hmap := honMap hrange hother
      have hxtop := hdecoded.xMacron_topology x hx
      have hindex : k.level < p.myPos.positions.length := by
        have := hxtop ▸ x.top_le
        have := hcandidate.level_lt
        omega
      obtain ⟨hlt, hreal⟩ := h.asks hserved x hx k hmap hcandidate.level_lt
        (fun hbar => hnotMem ((hbarred hexcluded (.inr hmap)).mpr hbar)) (by
          refine or_iff_not_imp_left.mpr fun hbar => ?_
          rw [hx] at ha
          refine nearer_of_approximate hxtop hcandidate.level_lt.pos hp₀ hcandidate.level_lt hindex
            hother (fun hmem => hbar ?_) ha
          exact (hbarred hexcluded (.inl rfl)).mp (hme ▸ hmem))
      rw [← hmine] at hn hrange ⊢
      exact (fits_iff hn).mpr ⟨hlt, hrange, hreal⟩
  · exact (fits_own_iff hmine hdecoded).mpr (h.answers (.inr
      ((hbarred hexcluded (.inl rfl)).mp (hme ▸ mem_of_approximate_none hp₀ ha))))

/-- **And only then**, where distances fit a word: the environment may know of any one g-node
alone, or of none. -/
lemma handled_of_namesFit {max : ℕ} (hmine : p.myPos.topology = p.topology)
    (hmax : p.topology.maxNodes = some max) (hdecoded : Decoded p.topology mf)
    (h : NamesFit p mf) : Handled p mf := by
  obtain ⟨p₀, hp₀, hme⟩ := p.exists_me
  have hlen : p.myPos.positions.length = p.topology.levels := hmine ▸ p.myPos.length_positions
  have hn : mf.n.top ≤ p.topology.levels := hdecoded.n_topology ▸ mf.n.top_le
  obtain ⟨excluded, hexcluded⟩ := forwardExcluded_ok hlen hdecoded.excluded_topology
  have hbarred : ∀ {k : HCoord}, (k = p.me ∨ OnMap p.myPos k) →
      (k ∈ excluded ↔ Barred p mf k) := fun hk =>
    mem_forwardExcluded hmine hdecoded.excluded_topology hk hexcluded
  have hmeBarred : (⟨0, p₀⟩ : HCoord) ∈ excluded ↔ Barred p mf p.me := by
    rw [← hme]
    exact hbarred (.inl rfl)
  have hxt : ∀ x, mf.xMacron = some x → x.top ≤ p.topology.levels := fun x hx =>
    hdecoded.xMacron_topology x hx ▸ x.top_le
  -- what may be asked is weighed, so it can be named in the target's scope
  have hother : ¬ Unserved p mf → ∀ x, mf.xMacron = some x → ∀ k, OnMap p.myPos k →
      k.level < x.top → ¬ Barred p mf k → Fits p.topology p.myPos.positions k x.top :=
    fun hserved x hx k hk hlt hbar => h _ _ (.weighed hserved hexcluded hx
      ⟨hlt, fun hmem => hbar ((hbarred (.inr hk)).mp hmem), .inl ⟨hmine ▸ hk.inRange, hk.other⟩⟩)
  have hself : ¬ Unserved p mf → ¬ Barred p mf p.me → ∀ x, mf.xMacron = some x → 0 < x.top →
      Fits p.topology p.myPos.positions ⟨0, p₀⟩ x.top :=
    fun hserved hbar x hx hlt => h _ _ (.weighed hserved hexcluded hx
      ⟨hlt, fun hmem => hbar (hmeBarred.mp hmem), .inr ⟨rfl, hp₀⟩⟩)
  have hmake : ∀ {k : HCoord} {top : ℕ}, top ≤ p.topology.levels →
      Fits p.topology p.myPos.positions k top →
        ∃ y, makeTupleNode p.topology p.myPos.positions k top = .ok y := fun htop hfits =>
    makeTupleNode_of_fits hlen htop hfits
  have hnobody := fun hserved : ¬ Unserved p mf => approximate_nobody hlen
    hdecoded.xMacron_topology hmax hp₀ fun hmem x hx hlt =>
      hmake (hxt x hx) (hself hserved (fun hbar => hmem (hmeBarred.mpr hbar)) x hx hlt)
  refine ⟨?_, fun hserved hbar => ⟨?_, fun x hx => ?_⟩, fun hserved x hx k hk hlt hbar => ?_,
    fun hserved x hx k hk hlt hbar hnearer => ?_⟩
  · intro hnone
    refine (fits_own_iff hmine hdecoded).mp ?_
    by_cases hserved : Unserved p mf
    · exact h _ _ (.unserved hserved)
    · refine h _ _ (.nobody (fun _ => false) hserved hexcluded ?_)
      rw [hnobody hserved, if_pos (hmeBarred.mpr (hnone.resolve_left hserved))]
  · refine ((fits_me_iff hmine hn).mp ?_).2
    refine h _ _ (.elected (fun _ => false) hserved hexcluded ?_)
    rw [hnobody hserved, if_neg fun hmem => hbar (hmeBarred.mp hmem), hme]
  · rcases Nat.eq_zero_or_pos x.top with hzero | hpos
    · rw [hzero]
      exact fun i _ hi => absurd hi (Nat.not_lt_zero i)
    · refine ((fits_me_iff hmine (hxt x hx)).mp ?_).2
      rw [hme]
      exact hself hserved hbar x hx hpos
  · have hfits := hother hserved x hx k hk hlt hbar
    have htop := hxt x hx
    rw [← hmine] at hfits htop
    exact ((fits_iff htop).mp hfits).2.2
  · obtain ⟨y, hy⟩ := hmake (hxt x hx) (hother hserved x hx k hk hlt hbar)
    have helected := approximate_only hlen (hdecoded.xMacron_topology x hx) hmax hp₀ hlt
      (hmine ▸ hk.inRange) hk.other (fun hmem => hbar ((hbarred (.inr hk)).mp hmem)) hy
      fun hmem => ⟨hmake (hxt x hx) (hself hserved (fun hbar' => hmem (hmeBarred.mpr hbar')) x hx
        (by omega)), hnearer.resolve_left fun hbar' => hmem (hmeBarred.mpr hbar')⟩
    have hfits := h k mf.n.top (.elected _ hserved hexcluded (by rw [hx]; exact helected))
    rw [← hmine] at hn hfits
    exact ⟨hfits.level_lt, ((fits_iff hn).mp hfits).2.2⟩

/-- **At a real address** only the g-nodes that can be elected matter: they have to lie below the
scope in which the originator is told of them. -/
theorem handled_iff_of_isReal (hmine : p.myPos.topology = p.topology) (hreal : p.myPos.IsReal)
    (hdecoded : Decoded p.topology mf) :
    Handled p mf ↔ (¬ Unserved p mf → ∀ x, mf.xMacron = some x → ∀ h, OnMap p.myPos h →
      h.level < x.top → ¬ Barred p mf h →
        Barred p mf p.me ∨ Nearer p.topology p.myPos.positions x h → h.level < mf.n.top) := by
  have hn : mf.n.top ≤ p.myPos.topology.levels :=
    (hdecoded.n_topology.trans hmine.symm) ▸ mf.n.top_le
  have hx : ∀ x, mf.xMacron = some x → x.top ≤ p.myPos.topology.levels := fun x hx =>
    ((hdecoded.xMacron_topology x hx).trans hmine.symm) ▸ x.top_le
  constructor
  · exact fun h hserved x hx k hk hlt hbar hnearer => (h.asks hserved x hx k hk hlt hbar hnearer).1
  · intro h
    exact {
      answers := fun _ => RealBetween.of_isReal hreal hn
      serves := fun _ _ => ⟨RealBetween.of_isReal hreal hn,
        fun x hsome => RealBetween.of_isReal hreal (hx x hsome)⟩
      weighs := fun _ x hsome _ _ _ _ => RealBetween.of_isReal hreal (hx x hsome)
      asks := fun hserved x hsome k hk hlt hbar hnearer =>
        ⟨h hserved x hsome k hk hlt hbar hnearer, RealBetween.of_isReal hreal hn⟩ }

/-- **Which messages cannot make a relay panic.**  A message the decoder lets through reaches no
assertion, `expect` or index out of range, whatever the environment answers, exactly when it is
passed on before the election or is handled; that nothing else is safe needs distances to fit a
word, or an overflow stops the election first. -/
theorem forwardMsgWith_safe_iff {w : WireForwarder} (hmine : p.myPos.topology = p.topology)
    (hw : forwarderFromWire p.topology w = .ok mf) :
    (Passed p belowLevel mf ∨ Handled p mf →
        ∀ dial answers, (forwardMsgWith p belowLevel mf dial answers).OverflowOnly) ∧
      ∀ max, p.topology.maxNodes = some max →
        (∀ dial answers, (forwardMsgWith p belowLevel mf dial answers).OverflowOnly) →
          Passed p belowLevel mf ∨ Handled p mf := by
  have hdecoded := decoded_forwarderFromWire hw
  constructor
  · exact fun h => (safe_iff_namesFit hmine hw).mpr
      (h.imp_right (namesFit_of_handled hmine hdecoded))
  · exact fun max hmax h => ((safe_iff_namesFit hmine hw).mp h).imp_right
      (handled_of_namesFit hmine hmax hdecoded)

end Message

/-! ## A message that panics its relay, and one that does not -/

/-- A message from the first position of a g-node of level 0, for a target one level wider than
the originator's own tuple. -/
def wideMessage (insideLevel : UInt32) (excluded : List WireTupleGNode) : WireForwarder where
  insideLevel := insideLevel
  n := some [0]
  xMacron := some [0, 1]
  lvl := 0
  pos := 0
  pId := 0
  msgId := 7
  excludeTupleList := excluded
  nonParticipantTupleList := []

/-- A relay in two levels of four, where service 0 is mandatory. -/
def mandatoryRelay : PeerState Unit where
  topology := twoLevels
  myPos := ⟨twoLevels, [0, 0], rfl⟩
  services := KeyedMap.empty.insert ⟨0⟩ false
  participantSet := KeyedMap.empty
  waiting := KeyedMap.empty

/-- Three levels of four. -/
def threeLevels : Topology := ⟨[4, 4, 4], by simp, by simp⟩

/-- A relay whose position at the top level is virtual, the only one it knows to take part in the
optional service 0. -/
def optionalRelay : PeerState Unit where
  topology := threeLevels
  myPos := ⟨threeLevels, [0, 0, 7], rfl⟩
  services := KeyedMap.empty.insert ⟨0⟩ true
  participantSet := KeyedMap.empty
  waiting := KeyedMap.empty

/-- The g-nodes of the target's scope are barred, one of them by a tuple as well, so the relay
serves. -/
theorem forwardMsgWith_safe_barred :
    ∃ mf, forwarderFromWire optionalRelay.topology (wideMessage 2 [⟨[2], 2⟩]) = .ok mf ∧
      ¬ Passed optionalRelay 2 mf ∧ (∃ x, mf.xMacron = some x ∧ mf.n.top < x.top) ∧
      ∀ dial answers, (forwardMsgWith optionalRelay 2 mf dial answers).OverflowOnly := by
  obtain ⟨mf, hmf, hpId, hinside, hn, hlvl, hpos, ⟨x, hx, hxtop⟩, hexcluded⟩ :
      ∃ mf, forwarderFromWire optionalRelay.topology (wideMessage 2 [⟨[2], 2⟩]) = .ok mf ∧
        mf.pId = ⟨0⟩ ∧ mf.insideLevel = 2 ∧ mf.n.top = 1 ∧ mf.lvl = 0 ∧ mf.pos = 0 ∧
        (∃ x, mf.xMacron = some x ∧ x.top = 2) ∧
        mf.excludeTupleList.map (fun gn => (gn.level, gn.positions)) = [(1, [2])] :=
    ⟨_, rfl, rfl, rfl, rfl, rfl, rfl, ⟨_, rfl, rfl⟩, rfl⟩
  have hreal : RealBetween optionalRelay.myPos 0 2 := by
    intro i _ hi
    interval_cases i <;> rfl
  have hx' : ∀ y, mf.xMacron = some y → y.top = 2 := fun y hy => by
    cases hx.symm.trans hy
    exact hxtop
  have hme : ¬ Barred optionalRelay mf optionalRelay.me := by
    rintro (hn | ⟨gn, hgn, -, hcontains⟩)
    · exact hn.notServed ⟨by rw [hpId]; rfl, rfl⟩
    · obtain ⟨hlevel, hpositions⟩ : gn.level = 1 ∧ gn.positions = [2] := by
        have hmem := List.mem_map_of_mem (f := fun gn : TupleGNode => (gn.level, gn.positions)) hgn
        rw [hexcluded, List.mem_singleton] at hmem
        exact Prod.mk.inj hmem
      have hmoved := hcontains 0 (by rw [hpositions]; decide)
      rw [hlevel, hpositions] at hmoved
      exact absurd hmoved (by decide)
  have hothers : ∀ h, OnMap optionalRelay.myPos h → h.level < 2 → Barred optionalRelay mf h := by
    intro h hh hlt
    refine .inl ⟨by rw [hpId]; rfl, .inr (by rw [hinside]; exact hlt),
      by rw [hpId]; exact List.not_mem_nil, fun ⟨_, hme⟩ => hh.other ?_⟩
    rw [hme]
    rfl
  have hhandled : Handled optionalRelay mf := {
    answers := fun _ i _ hi => hreal i (Nat.zero_le i) (by omega)
    serves := fun _ _ => ⟨fun i hle hi => hreal i hle (by omega),
      fun y hy i hle hi => hreal i hle (hx' y hy ▸ hi)⟩
    weighs := fun _ y hy h hh hlt hbar => absurd (hothers h hh (hx' y hy ▸ hlt)) hbar
    asks := fun _ y hy h hh hlt hbar _ => absurd (hothers h hh (hx' y hy ▸ hlt)) hbar }
  refine ⟨mf, hmf, ?_, ⟨x, hx, by omega⟩, (forwardMsgWith_safe_iff rfl hmf).1 (.inr hhandled)⟩
  rintro (hrelay | ⟨-, hmaps⟩)
  · rw [hlvl, hpos] at hrelay
    exact hrelay rfl
  · rw [hx, Option.any_some, hxtop] at hmaps
    exact absurd hmaps (by decide)

/-- The g-node elected for a target wider than the originator's tuple lies above the scope in which
the originator has to be told. -/
theorem not_forwardMsgWith_safe_wide :
    ∃ mf, forwarderFromWire mandatoryRelay.topology (wideMessage 1 []) = .ok mf ∧
      forwardMsgWith mandatoryRelay 2 mf true [⟨fun h => decide (h = ⟨1, 1⟩), true⟩] =
        .error (.panic "make_tuple_gnode: top must exceed h.level") :=
  ⟨_, rfl, rfl⟩

end Netsukuku
