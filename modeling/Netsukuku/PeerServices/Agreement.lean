import Mathlib
import Netsukuku.Core.Frontier
import Netsukuku.PeerServices.Distance
import Netsukuku.PeerServices.Servants

/-!
# Every search finds the same node

A node that looks for a target knows other g-nodes only as wholes.  It elects the closest one, with
zeros where it does not know better, and hands the search over to somebody inside, who looks again
within that g-node.  Whoever starts, and whoever is found inside, the search ends at the one node
that is closest to the target.

A g-node is elected by its position at its own level: below it the distances do not matter any more,
and above it nothing has changed since the search came in.  So each hand-over fixes one more level
of the closest node, from the top.

* `approximate_eq_of_lt` — a candidate that is closer than all others is elected.
* `Peers.HashNode` — the node closest to the target.
* `HandOver` — one hand-over.
* `OnTrack` — the invariant of a search, `OnTrack.elects` what is elected.
* `dht_agreement` — every search ends there, after at most one hand-over for each level.
* `elect_resolves`, `forwardMsg_resolves` — the messages that hand a search over.
-/

namespace Netsukuku

open MixedRadix

/-! ## The closest candidate -/

section Election

variable {t : Topology} {myPos : List UInt32} {x : TupleNode} {excluded : List HCoord}
  {gnodeExists : HCoord → Bool} {max : ℕ}

/-- The position a g-node of mine shows at a level: zero below its own, mine above. -/
def gnodeDigit (myPos : List UInt32) (h : HCoord) (i : ℕ) : ℕ :=
  if i < h.level then 0 else if i = h.level then h.pos.toNat else (myPos.getD i 0).toNat

/-- How far a g-node of mine is from the target. -/
def gnodeDist (t : Topology) (myPos : List UInt32) (x : TupleNode) (h : HCoord) : ℕ :=
  value t.radix (fun i => circular (t.radix i) (x.digit i) (gnodeDigit myPos h i)) x.top

lemma digit_makeTupleNode {h : HCoord} {top : ℕ} {y : TupleNode}
    (hy : makeTupleNode t myPos h top = .ok y) {i : ℕ} (hi : i < top) :
    y.digit i = gnodeDigit myPos h i := by
  obtain ⟨-, hpos⟩ := positions_makeTupleNode hy
  rw [TupleNode.digit, gnodeDigit, hpos, List.getD_eq_getElem?_getD, List.getElem?_append,
    List.length_replicate]
  split_ifs with hlow heq
  · simp [hlow]
  · simp [heq]
  · rw [show i - h.level = i - h.level - 1 + 1 by omega, List.getElem?_cons_succ,
      List.getElem?_drop, show h.level + 1 + (i - h.level - 1) = i by omega,
      List.getElem?_take_of_lt hi, List.getD_eq_getElem?_getD]

/-- One candidate is weighed by its distance, if it can be named in the target's scope. -/
lemma weigh_of_make (hmax : t.maxNodes = some max) (hx : x.topology = t) {h : HCoord}
    {y : TupleNode} (hy : makeTupleNode t myPos h x.top = .ok y) (best : Option (HCoord × ℕ)) :
    weigh t myPos x best h =
      .ok (if best.all fun b => decide (gnodeDist t myPos x h < b.2) then
        some (h, gnodeDist t myPos x h) else best) := by
  have hdist : dist t x y = .ok (gnodeDist t myPos x h) := by
    rw [dist_eq_value hmax hx (topology_makeTupleNode hy) (top_makeTupleNode hy).symm, gnodeDist,
      value, value]
    refine congrArg _ (horner_congr (fun i hi => ?_) 0)
    rw [distanceDigit, digit_makeTupleNode hy hi]
  rw [weigh, hy, Outcome.ok_bind, hdist, Outcome.ok_bind]

/-- From a real address every candidate can. -/
lemma weigh_eq (hmax : t.maxNodes = some max) (hreal : InRange t 0 myPos)
    (hlen : myPos.length = t.levels) (hx : x.topology = t) {h : HCoord} (hh : h.InRange t)
    (hlt : h.level < x.top) (best : Option (HCoord × ℕ)) :
    weigh t myPos x best h =
      .ok (if best.all fun b => decide (gnodeDist t myPos x h < b.2) then
        some (h, gnodeDist t myPos x h) else best) := by
  obtain ⟨y, hy⟩ := makeTupleNode_ok hreal hlen hlt (hx ▸ x.top_le) hh
  exact weigh_of_make hmax hx hy best

/-- The leader of a scan: it was there before or is a candidate, and nothing closer is given up. -/
structure Leads (dist : HCoord → ℕ) (candidate : HCoord → Prop)
    (best best' : Option (HCoord × ℕ)) : Prop where
  origin : ∀ b ∈ best', b ∈ best ∨ candidate b.1 ∧ b.2 = dist b.1
  keeps : ∀ b ∈ best, ∃ b' ∈ best', b'.2 ≤ b.2

lemma Leads.refl (dist : HCoord → ℕ) (candidate : HCoord → Prop) (best : Option (HCoord × ℕ)) :
    Leads dist candidate best best :=
  ⟨fun _ hb => .inl hb, fun b hb => ⟨b, hb, le_rfl⟩⟩

lemma Leads.trans {dist : HCoord → ℕ} {candidate : HCoord → Prop}
    {best best' best'' : Option (HCoord × ℕ)} (h : Leads dist candidate best best')
    (h' : Leads dist candidate best' best'') : Leads dist candidate best best'' where
  origin b hb := by
    rcases h'.origin b hb with hb | hb
    · exact h.origin b hb
    · exact .inr hb
  keeps b hb := by
    obtain ⟨b', hb', hle⟩ := h.keeps b hb
    obtain ⟨b'', hb'', hle'⟩ := h'.keeps b' hb'
    exact ⟨b'', hb'', hle'.trans hle⟩

/-- A scan whose every step leads, and covers something, leads and covers all of it. -/
lemma foldlM_leads {α : Type} {f : Option (HCoord × ℕ) → α → Outcome Empty (Option (HCoord × ℕ))}
    {dist : HCoord → ℕ} {candidate : HCoord → Prop} {covers : α → HCoord → Prop} {l : List α}
    (hstep : ∀ a ∈ l, ∀ best, ∃ best', f best a = .ok best' ∧ Leads dist candidate best best' ∧
      ∀ h, covers a h → candidate h → ∃ b ∈ best', b.2 ≤ dist h) (best : Option (HCoord × ℕ)) :
    ∃ best', l.foldlM f best = .ok best' ∧ Leads dist candidate best best' ∧
      ∀ h, (∃ a ∈ l, covers a h) → candidate h → ∃ b ∈ best', b.2 ≤ dist h := by
  induction l generalizing best with
  | nil =>
      refine ⟨best, rfl, Leads.refl _ _ _, ?_⟩
      rintro h ⟨a, ha, -⟩
      cases ha
  | cons a l ih =>
      obtain ⟨best', hrun, hleads, hcovers⟩ := hstep a List.mem_cons_self best
      obtain ⟨best'', hrest, hleads', hcovers'⟩ :=
        ih (fun a' ha' => hstep a' (List.mem_cons_of_mem _ ha')) best'
      refine ⟨best'', by rw [List.foldlM_cons, hrun, Outcome.ok_bind, hrest],
        hleads.trans hleads', ?_⟩
      rintro h ⟨a', ha', hh⟩ hcandidate
      rcases List.mem_cons.mp ha' with rfl | ha'
      · obtain ⟨b, hb, hle⟩ := hcovers h hh hcandidate
        obtain ⟨b', hb', hle'⟩ := hleads'.keeps b hb
        exact ⟨b', hb', hle'.trans hle⟩
      · exact hcovers' h ⟨a', ha', hh⟩ hcandidate

/-- One position of the scan. -/
lemma approximateStep_leads (hmax : t.maxNodes = some max) (hreal : InRange t 0 myPos)
    (hlen : myPos.length = t.levels) (hx : x.topology = t) {h : HCoord} (hh : h.InRange t)
    (hlt : h.level < x.top) (best : Option (HCoord × ℕ)) :
    ∃ best', approximateStep t myPos x excluded gnodeExists best h = .ok best' ∧
      Leads (gnodeDist t myPos x) (Candidate myPos x.top excluded gnodeExists) best best' ∧
      (Candidate myPos x.top excluded gnodeExists h →
        ∃ b ∈ best', b.2 ≤ gnodeDist t myPos x h) := by
  have hindex : h.level < myPos.length := by
    have := hx ▸ x.top_le
    omega
  rw [approximateStep, Outcome.index_of_lt hindex, Outcome.ok_bind]
  split_ifs with hmine hskip
  · refine ⟨best, rfl, Leads.refl _ _ _, fun hcandidate => ?_⟩
    obtain ⟨p, hp, hne⟩ := hcandidate.parts
    rw [List.getElem?_eq_getElem hindex, Option.some.injEq] at hp
    exact absurd (hp.symm.trans hmine.symm) hne
  · refine ⟨best, rfl, Leads.refl _ _ _, fun hcandidate => ?_⟩
    rcases hskip with hmem | hnone
    · exact absurd hmem hcandidate.notMem
    · exact absurd (hcandidate.known.symm.trans hnone) (by simp)
  · rw [not_or, Bool.not_eq_false] at hskip
    have hcandidate : Candidate myPos x.top excluded gnodeExists h :=
      ⟨hlt, ⟨_, List.getElem?_eq_getElem hindex, fun heq => hmine heq.symm⟩, hskip.1, hskip.2⟩
    rw [weigh_eq hmax hreal hlen hx hh hlt]
    refine ⟨_, rfl, ?_⟩
    split_ifs with hcloser
    · refine ⟨⟨fun b hb => ?_, fun b hb => ?_⟩, fun _ => ⟨_, rfl, le_rfl⟩⟩
      · cases hb
        exact .inr ⟨hcandidate, rfl⟩
      · cases hb
        exact ⟨_, rfl, (of_decide_eq_true hcloser).le⟩
    · refine ⟨Leads.refl _ _ _, fun _ => ?_⟩
      cases best with
      | none => exact absurd rfl hcloser
      | some b => exact ⟨b, rfl, not_lt.mp fun hlt => hcloser (decide_eq_true hlt)⟩

/-- **The scan finds a closest candidate**, if there is one. -/
lemma approximateOthers_leads (hmax : t.maxNodes = some max) (hreal : InRange t 0 myPos)
    (hlen : myPos.length = t.levels) (hx : x.topology = t) :
    ∃ best, approximateOthers t myPos x excluded gnodeExists = .ok best ∧
      (∀ b ∈ best, Candidate myPos x.top excluded gnodeExists b.1 ∧
        b.2 = gnodeDist t myPos x b.1) ∧
      ∀ h : HCoord, h.InRange t → Candidate myPos x.top excluded gnodeExists h →
        ∃ b ∈ best, b.2 ≤ gnodeDist t myPos x h := by
  have hlevels : ∀ level ∈ List.range x.top, ∀ best, ∃ best',
      approximateLevel t myPos x excluded gnodeExists best level = .ok best' ∧
        Leads (gnodeDist t myPos x) (Candidate myPos x.top excluded gnodeExists) best best' ∧
        ∀ h : HCoord, h.InRange t ∧ h.level = level →
          Candidate myPos x.top excluded gnodeExists h →
            ∃ b ∈ best', b.2 ≤ gnodeDist t myPos x h := by
    intro level hlevel best
    have hlt := List.mem_range.mp hlevel
    obtain ⟨g, hg⟩ := Topology.exists_gsize (hlt.trans_le (hx ▸ x.top_le))
    rw [approximateLevel, hg, Outcome.expect_some, Outcome.ok_bind]
    have hpositions : ∀ a ∈ (List.range g.toNat).map fun p => (⟨level, UInt32.ofNat p⟩ : HCoord),
        ∀ best, ∃ best', approximateStep t myPos x excluded gnodeExists best a = .ok best' ∧
          Leads (gnodeDist t myPos x) (Candidate myPos x.top excluded gnodeExists) best best' ∧
          ∀ h, a = h → Candidate myPos x.top excluded gnodeExists h →
            ∃ b ∈ best', b.2 ≤ gnodeDist t myPos x h := by
      intro a ha best
      obtain ⟨p, hp, rfl⟩ := List.mem_map.mp ha
      obtain ⟨best', hrun, hleads, hcovers⟩ := approximateStep_leads hmax hreal hlen hx
        (HCoord.inRange_ofNat hg (List.mem_range.mp hp)) hlt best
      refine ⟨best', hrun, hleads, ?_⟩
      rintro h rfl
      exact hcovers
    obtain ⟨best', hrun, hleads, hcovers⟩ := foldlM_leads hpositions best
    refine ⟨best', hrun, hleads, fun h hh hcandidate => hcovers h ⟨h, ?_, rfl⟩ hcandidate⟩
    obtain ⟨⟨g', hg', hlt'⟩, rfl⟩ := hh
    rw [hg] at hg'
    cases hg'
    exact List.mem_map.mpr ⟨h.pos.toNat, List.mem_range.mpr hlt', by rw [UInt32.ofNat_toNat]⟩
  obtain ⟨best, hrun, hleads, hcovers⟩ := foldlM_leads hlevels none
  refine ⟨best, hrun, fun b hb => ?_, fun h hh hcandidate => ?_⟩
  · rcases hleads.origin b hb with hb | hb
    · cases hb
    · exact hb
  · exact hcovers h ⟨h.level, List.mem_range.mpr hcandidate.level_lt, hh, rfl⟩ hcandidate

/-- **A candidate closer than all others is elected**, and so is my own node if it is. -/
theorem approximate_eq_of_lt (hmax : t.maxNodes = some max) (hreal : InRange t 0 myPos)
    (hlen : myPos.length = t.levels) (hx : x.topology = t) (htop : x.top ≠ 0) {p₀ : UInt32}
    (hp₀ : myPos[0]? = some p₀) {h : HCoord}
    (hh : h = ⟨0, p₀⟩ ∨ h.InRange t ∧ Candidate myPos x.top [] gnodeExists h)
    (hself : h ≠ ⟨0, p₀⟩ → gnodeDist t myPos x h < gnodeDist t myPos x ⟨0, p₀⟩)
    (hothers : ∀ h', Candidate myPos x.top [] gnodeExists h' → h' ≠ h →
      gnodeDist t myPos x h < gnodeDist t myPos x h') :
    approximate t myPos (some x) [] gnodeExists = .ok (some h) := by
  obtain ⟨best, hrun, horigin, hcovers⟩ :=
    @approximateOthers_leads t myPos x [] gnodeExists max hmax hreal hlen hx
  have hfilter : (some x).filter (fun x => decide (x.top ≠ 0)) = some x := by
    rw [Option.filter_some, decide_eq_true htop, if_pos rfl]
  have hrange : HCoord.InRange t ⟨0, p₀⟩ := by
    obtain ⟨g, hg, hlt⟩ := hreal 0 p₀ hp₀
    exact ⟨g, hg, hlt⟩
  rw [approximate, hfilter]
  simp only
  rw [hrun, Outcome.ok_bind, Outcome.index_eq_ok.mpr hp₀, Outcome.ok_bind,
    if_neg List.not_mem_nil, weigh_eq hmax hreal hlen hx hrange (Nat.pos_of_ne_zero htop),
    Outcome.ok_bind]
  refine congrArg _ ?_
  cases best with
  | none =>
      rcases hh with rfl | ⟨hh, hcandidate⟩
      · rfl
      · obtain ⟨b, hb, -⟩ := hcovers h hh hcandidate
        cases hb
  | some b =>
      obtain ⟨hcandidate, hdist⟩ := horigin b rfl
      have hle : h ≠ ⟨0, p₀⟩ → b.2 ≤ gnodeDist t myPos x h := by
        intro hne
        obtain ⟨hh, hcandidate⟩ := hh.resolve_left hne
        obtain ⟨b', hb', hle⟩ := hcovers h hh hcandidate
        cases hb'
        exact hle
      rw [Option.all_some]
      split_ifs with hcloser
      · have hcloser := of_decide_eq_true hcloser
        by_cases hne : h = ⟨0, p₀⟩
        · rw [hne, Option.map_some]
        · have := hle hne
          have := hself hne
          omega
      · have hfar : b.2 ≤ gnodeDist t myPos x ⟨0, p₀⟩ :=
          not_lt.mp fun hlt => hcloser (decide_eq_true hlt)
        rw [Option.map_some, Option.some.injEq]
        by_contra hne
        have hlt := hothers b.1 hcandidate hne
        by_cases hself' : h = ⟨0, p₀⟩
        · rw [hself'] at hlt
          omega
        · have := hle hself'
          omega

end Election

/-! ## The nodes of a network -/

/-- The nodes of a network: real addresses of one topology. -/
structure Peers (t : Topology) where
  nodes : Finset Naddr
  nonempty : nodes.Nonempty
  topology : ∀ n ∈ nodes, n.topology = t
  real : ∀ n ∈ nodes, n.IsReal

namespace Peers

variable {t : Topology}

/-- Some node of the network is in the g-node `h`, as seen from `me`. -/
def gnodeExists (peers : Peers t) (me : Naddr) (h : HCoord) : Bool :=
  decide (∃ n ∈ peers.nodes, n.positions[h.level]? = some h.pos ∧
    n.positions.drop (h.level + 1) = me.positions.drop (h.level + 1))

lemma gnodeExists_iff {peers : Peers t} {me : Naddr} {h : HCoord} :
    peers.gnodeExists me h = true ↔ ∃ n ∈ peers.nodes, InGnode me.positions h n.positions := by
  rw [gnodeExists, decide_eq_true_eq]
  refine exists_congr fun n => and_congr_right fun _ => and_congr_right fun _ => ?_
  constructor
  · intro hdrop l hl
    exact getElem?_eq_of_drop hdrop hl
  · intro habove
    refine List.ext_getElem? fun i => ?_
    rw [List.getElem?_drop, List.getElem?_drop]
    exact habove _ (by omega)

lemma inRange (peers : Peers t) {n : Naddr} (hn : n ∈ peers.nodes) : InRange t 0 n.positions := by
  rw [← peers.topology n hn]
  exact inRange_of_isReal (peers.real n hn)

lemma length_positions (peers : Peers t) {n : Naddr} (hn : n ∈ peers.nodes) :
    n.positions.length = t.levels := by
  rw [n.length_positions, peers.topology n hn]

/-- A node as a tuple that spans all levels. -/
def tuple (peers : Peers t) {n : Naddr} (hn : n ∈ peers.nodes) : TupleNode :=
  ⟨t, n.positions, peers.inRange hn⟩

lemma eq_of_getElem? (peers : Peers t) {n m : Naddr} (hn : n ∈ peers.nodes) (hm : m ∈ peers.nodes)
    (h : ∀ i : ℕ, n.positions[i]? = m.positions[i]?) : n = m := by
  have htop := (peers.topology n hn).trans (peers.topology m hm).symm
  obtain ⟨tn, pn, hlen⟩ := n
  obtain ⟨tm, pm, hlen'⟩ := m
  simp only at htop
  subst htop
  have hpos : pn = pm := List.ext_getElem? h
  subst hpos
  rfl

/-- The node of the network that is closest to the target. -/
structure HashNode (peers : Peers t) (x : TupleNode) (m : Naddr) : Prop where
  mem : m ∈ peers.nodes
  closest : ∀ n (hn : n ∈ peers.nodes), n ≠ m → ∃ dm dn,
    dist t x (peers.tuple mem) = .ok dm ∧ dist t x (peers.tuple hn) = .ok dn ∧ dm < dn

end Peers

section Agreement

variable {t : Topology} {peers : Peers t} {x : TupleNode} {max : ℕ} {m n : Naddr}

/-- How far a position of level `i` is from the target's. -/
def levelDist (t : Topology) (x : TupleNode) (i : ℕ) (p : ℕ) : ℕ :=
  circular (t.radix i) (x.digit i) p

/-- There is a closest node. -/
lemma exists_hashNode (hmax : t.maxNodes = some max) (peers : Peers t) (hx : x.topology = t)
    (hspan : x.top = t.levels) : ∃ m, peers.HashNode x m := by
  obtain ⟨m, hm, hmin⟩ := Finset.exists_min_image peers.nodes.attach
    (fun n => value t.radix (distanceDigit t x (peers.tuple n.2)) x.top)
    (Finset.attach_nonempty_iff.mpr peers.nonempty)
  have htop : ∀ {n} (hn : n ∈ peers.nodes), x.top = (peers.tuple hn).top := fun hn =>
    hspan.trans (peers.length_positions hn).symm
  refine ⟨m, m.2, fun n hn hne => ⟨_, _, dist_eq_value hmax hx rfl (htop m.2),
    dist_eq_value hmax hx rfl (htop hn), ?_⟩⟩
  refine lt_of_le_of_ne (hmin ⟨n, hn⟩ (Finset.mem_attach _ _)) fun heq => hne ?_
  have hdigits := value_injective (distanceDigit_lt hx rfl (htop m.2))
    (distanceDigit_lt hx rfl (htop hn)) heq
  have htuple : peers.tuple hn = peers.tuple m.2 := by
    refine TupleNode.ext_digit rfl rfl ((htop hn).symm.trans (htop m.2)) fun i hi => ?_
    have hi' : i < x.top := (htop hn) ▸ hi
    exact ((circular_inj (x.digit_lt hx hi') ((peers.tuple m.2).digit_lt rfl (htop m.2 ▸ hi'))
      ((peers.tuple hn).digit_lt rfl hi)).mp (hdigits i hi')).symm
  have hpos : n.positions = (m : Naddr).positions := congrArg TupleNode.positions htuple
  exact peers.eq_of_getElem? hn m.2 fun i => by rw [hpos]

/-- **Where a node parts from the closest one, it is farther** from the target. -/
lemma Peers.HashNode.levelDist_lt (hmax : t.maxNodes = some max) (hx : x.topology = t)
    (hspan : x.top = t.levels) (h : peers.HashNode x m) (hn : n ∈ peers.nodes) {j : ℕ}
    {p q : UInt32}
    (hp : m.positions[j]? = some p) (hq : n.positions[j]? = some q) (hne : q ≠ p)
    (habove : ∀ i, j < i → n.positions[i]? = m.positions[i]?) :
    levelDist t x j p.toNat < levelDist t x j q.toNat := by
  have htop : ∀ {n} (hn : n ∈ peers.nodes), x.top = (peers.tuple hn).top := fun hn =>
    hspan.trans (peers.length_positions hn).symm
  have hj : j < x.top := by
    rw [htop h.mem]
    exact (List.getElem?_eq_some_iff.mp hp).1
  have hdm : (peers.tuple h.mem).digit j = p.toNat := by
    rw [TupleNode.digit, Peers.tuple, List.getD_eq_getElem?_getD, hp, Option.getD_some]
  have hdn : (peers.tuple hn).digit j = q.toNat := by
    rw [TupleNode.digit, Peers.tuple, List.getD_eq_getElem?_getD, hq, Option.getD_some]
  have hparts : n ≠ m := by
    rintro rfl
    rw [hp] at hq
    exact hne (Option.some.inj hq).symm
  obtain ⟨dm, dn, hdistm, hdistn, hlt⟩ := h.closest n hn hparts
  rw [dist_eq_value hmax hx rfl (htop h.mem)] at hdistm
  rw [dist_eq_value hmax hx rfl (htop hn)] at hdistn
  cases hdistm
  cases hdistn
  have hdigits :
      distanceDigit t x (peers.tuple h.mem) j ≠ distanceDigit t x (peers.tuple hn) j := by
    rw [distanceDigit, distanceDigit, Ne, circular_inj (x.digit_lt hx hj)
      ((peers.tuple h.mem).digit_lt rfl (htop h.mem ▸ hj))
      ((peers.tuple hn).digit_lt rfl (htop hn ▸ hj)), hdm, hdn]
    exact fun heq => hne (UInt32.toNat_inj.mp heq).symm
  have hsame : ∀ i, j < i → i < x.top →
      distanceDigit t x (peers.tuple h.mem) i = distanceDigit t x (peers.tuple hn) i := by
    intro i hi _
    rw [distanceDigit, distanceDigit]
    refine congrArg _ ?_
    rw [TupleNode.digit, TupleNode.digit, Peers.tuple, Peers.tuple, List.getD_eq_getElem?_getD,
      List.getD_eq_getElem?_getD, habove i hi]
  have hdigit := (value_lt_iff hj (distanceDigit_lt hx rfl (htop h.mem))
    (distanceDigit_lt hx rfl (htop hn)) hsame hdigits).mp hlt
  rwa [distanceDigit, distanceDigit, hdm, hdn] at hdigit

/-! ## One hand-over -/

/-- A search on its way: the node it has reached, and the target cut to the g-node it is in. -/
structure Resolving where
  node : Naddr
  xMacron : Option TupleNode

/-- What the node that is reached elects. -/
def Resolving.elected (peers : Peers t) (r : Resolving) : Outcome Empty (Option HCoord) :=
  approximate t r.node.positions r.xMacron [] (peers.gnodeExists r.node)

/-- The node that is reached elects itself. -/
def Ends (peers : Peers t) (r : Resolving) : Prop :=
  ∃ p₀, r.node.positions[0]? = some p₀ ∧ r.elected peers = .ok (some ⟨0, p₀⟩)

/-- **One hand-over**: another g-node is elected, and any node inside takes over. -/
inductive HandOver (peers : Peers t) (r : Resolving) : Resolving → Prop
  | intro {h : HCoord} {n : Naddr} {xMacron : Option TupleNode}
      (elects : r.elected peers = .ok (some h))
      (other : ∀ p₀, r.node.positions[0]? = some p₀ → h ≠ ⟨0, p₀⟩) (mem : n ∈ peers.nodes)
      (inside : InGnode r.node.positions h n.positions)
      (cut : cutXMacron t r.xMacron h.level = .ok xMacron) : HandOver peers r ⟨n, xMacron⟩

/-! ## The invariant -/

/-- The search is on its way to `m`: it is in the g-node of `m` of level `l`, and its target has
the positions below. -/
structure OnTrack (peers : Peers t) (x : TupleNode) (m : Naddr) (l : ℕ) (r : Resolving) : Prop where
  mem : r.node ∈ peers.nodes
  le : l ≤ t.levels
  above : ∀ i, l ≤ i → r.node.positions[i]? = m.positions[i]?
  here : l = 0 → r.xMacron = none
  target : l ≠ 0 → ∃ y : TupleNode, r.xMacron = some y ∧ y.topology = t ∧
    y.positions = x.positions.take l

/-- The digits decide between two g-nodes at the highest level where they differ. -/
lemma gnodeDist_lt {myPos : List UInt32} {y : TupleNode} (hy : y.topology = t)
    (hreal : InRange t 0 myPos) (hlen : myPos.length = t.levels) {h h' : HCoord} (hh : h.InRange t)
    {j : ℕ} (hj : j < y.top)
    (hsame : ∀ i, j < i → gnodeDigit myPos h i = gnodeDigit myPos h' i)
    (hlt : levelDist t y j (gnodeDigit myPos h j) < levelDist t y j (gnodeDigit myPos h' j)) :
    gnodeDist t myPos y h < gnodeDist t myPos y h' := by
  refine horner_lt_of_lt hj (fun i hi => circular_lt (y.digit_lt hy hi) ?_) (fun i hi _ => ?_) hlt
  · have hi' : i < t.levels := hi.trans_le (hy ▸ y.top_le)
    rw [gnodeDigit]
    split_ifs with hlow heq
    · exact t.radix_pos i
    · obtain ⟨g, hg, hlt⟩ := hh
      rw [heq, Topology.radix_eq hg]
      exact hlt
    · have hget : i < myPos.length := hlen ▸ hi'
      obtain ⟨g, hg, hlt⟩ := hreal i _ (List.getElem?_eq_getElem hget)
      rw [Nat.zero_add] at hg
      rw [Topology.radix_eq hg, List.getD_eq_getElem _ _ hget]
      exact hlt
  · rw [hsame i hi]

lemma gnodeDigit_above {myPos : List UInt32} {h : HCoord} {i : ℕ} (hi : h.level < i) :
    gnodeDigit myPos h i = (myPos.getD i 0).toNat := by
  rw [gnodeDigit, if_neg (by omega), if_neg (by omega)]

lemma gnodeDigit_level {myPos : List UInt32} {h : HCoord} :
    gnodeDigit myPos h h.level = h.pos.toNat := by
  rw [gnodeDigit, if_neg (lt_irrefl _), if_pos rfl]

lemma gnodeDigit_self {myPos : List UInt32} {p₀ : UInt32} (hp₀ : myPos[0]? = some p₀) (i : ℕ) :
    gnodeDigit myPos ⟨0, p₀⟩ i = (myPos.getD i 0).toNat := by
  rcases Nat.eq_zero_or_pos i with rfl | hi
  · rw [gnodeDigit_level (h := ⟨0, p₀⟩), List.getD_eq_getElem?_getD, hp₀, Option.getD_some]
  · exact gnodeDigit_above hi

/-- A cut target has the positions below. -/
lemma cutXMacron_eq {xMacron : Option TupleNode} {y : TupleNode} {level : ℕ}
    (hy : level ≠ 0 → xMacron = some y ∧ y.topology = t ∧ level ≤ y.top) :
    ∃ cut, cutXMacron t xMacron level = .ok cut ∧ (level = 0 → cut = none) ∧
      (level ≠ 0 → ∃ z : TupleNode, cut = some z ∧ z.topology = t ∧
        z.positions = y.positions.take level) := by
  rw [cutXMacron]
  split_ifs with hpos
  · obtain ⟨rfl, hytop, hle⟩ := hy hpos.ne'
    have hrange : InRange t 0 (y.positions.take level) := hytop ▸ y.inRange.take level
    have hnew : TupleNode.new t (y.positions.take level) =
        .ok ⟨t, y.positions.take level, hrange⟩ := TupleNode.new_eq_ok.mpr ⟨rfl, rfl⟩
    rw [Outcome.expect_some, Outcome.ok_bind, Outcome.slice_of_le (Nat.zero_le _) hle,
      Outcome.ok_bind, List.drop_zero, hnew]
    exact ⟨_, rfl, fun h => absurd h hpos.ne', fun _ => ⟨_, rfl, rfl, rfl⟩⟩
  · exact ⟨none, rfl, fun _ => rfl, fun h => absurd (Nat.pos_of_ne_zero h) hpos⟩

/-- The target spans the levels below. -/
lemma OnTrack.exists_target (hspan : x.top = t.levels) {l : ℕ} {r : Resolving}
    (h : OnTrack peers x m l r) (hl : l ≠ 0) : ∃ y : TupleNode, r.xMacron = some y ∧
      y.topology = t ∧ y.top = l ∧ y.positions = x.positions.take l := by
  obtain ⟨y, hy, hytop, hypos⟩ := h.target hl
  refine ⟨y, hy, hytop, ?_, hypos⟩
  have hlen : l ≤ x.positions.length := h.le.trans hspan.ge
  rw [TupleNode.top, hypos, List.length_take, Nat.min_eq_left hlen]

/-- Below its top the target has the digits of the key. -/
lemma levelDist_target {y : TupleNode} {l j : ℕ} (hypos : y.positions = x.positions.take l)
    (hj : j < l) (p : ℕ) : levelDist t y j p = levelDist t x j p := by
  rw [levelDist, levelDist, TupleNode.digit, TupleNode.digit, hypos, List.getD_eq_getElem?_getD,
    List.getD_eq_getElem?_getD, List.getElem?_take_of_lt hj]

/-- Two nodes part at a highest level. -/
lemma Peers.exists_parting (hn : n ∈ peers.nodes) (hm : m ∈ peers.nodes) (hne : n ≠ m) :
    ∃ (j : ℕ) (p q : UInt32), m.positions[j]? = some p ∧ n.positions[j]? = some q ∧ q ≠ p ∧
      ∀ i, j < i → n.positions[i]? = m.positions[i]? := by
  have hnlen := peers.length_positions hn
  have hmlen := peers.length_positions hm
  have hparts : ∃ i < t.levels, n.positions[i]? ≠ m.positions[i]? := by
    by_contra hall
    refine hne (peers.eq_of_getElem? hn hm fun i => ?_)
    by_contra hi
    refine hall ⟨i, ?_, hi⟩
    by_contra hlevel
    refine hi ?_
    rw [List.getElem?_eq_none (by omega), List.getElem?_eq_none (by omega)]
  obtain ⟨j, hj, hparts, habove⟩ := exists_highest_ne hparts
  obtain ⟨p, hp⟩ : ∃ p, m.positions[j]? = some p := ⟨_, List.getElem?_eq_getElem (by omega)⟩
  obtain ⟨q, hq⟩ : ∃ q, n.positions[j]? = some q := ⟨_, List.getElem?_eq_getElem (by omega)⟩
  refine ⟨j, p, q, hp, hq, ?_, fun i hi => ?_⟩
  · rintro rfl
    exact hparts (hq.trans hp.symm)
  · by_cases hlt : i < t.levels
    · exact habove i hi hlt
    · rw [List.getElem?_eq_none (by omega), List.getElem?_eq_none (by omega)]

section Elects

variable {l j : ℕ} {r : Resolving} {p₀ p q : UInt32}

/-- The closest node elects itself. -/
lemma OnTrack.elects_self (hmax : t.maxNodes = some max) (hx : x.topology = t)
    (hspan : x.top = t.levels) (hm : peers.HashNode x m) (h : OnTrack peers x m l r)
    (hp₀ : r.node.positions[0]? = some p₀) (hsame : r.node = m) :
    r.elected peers = .ok (some ⟨0, p₀⟩) := by
  have hlen := peers.length_positions h.mem
  have hreal := peers.inRange h.mem
  rcases Nat.eq_zero_or_pos l with rfl | hl
  · rw [Resolving.elected, h.here rfl, approximate, Option.filter_none]
    simp only
    rw [Outcome.index_eq_ok.mpr hp₀, Outcome.ok_bind, if_neg List.not_mem_nil]
  · obtain ⟨y, hy, hytop, htop, hypos⟩ := h.exists_target hspan hl.ne'
    rw [Resolving.elected, hy]
    refine approximate_eq_of_lt hmax hreal hlen hytop (by omega) hp₀ (.inl rfl)
      (fun hne => absurd rfl hne) fun h' hcandidate _ => ?_
    obtain ⟨q, hq, hne⟩ := hcandidate.parts
    obtain ⟨n, hn, hpos, habove⟩ := Peers.gnodeExists_iff.mp hcandidate.known
    have hlow := htop ▸ hcandidate.level_lt
    have hself : gnodeDigit r.node.positions ⟨0, p₀⟩ h'.level = q.toNat := by
      rw [gnodeDigit_self hp₀, List.getD_eq_getElem?_getD, hq, Option.getD_some]
    refine gnodeDist_lt hytop hreal hlen (hreal 0 p₀ hp₀) hcandidate.level_lt
      (fun i hi => by rw [gnodeDigit_self hp₀, gnodeDigit_above hi]) ?_
    rw [hself, gnodeDigit_level, levelDist_target hypos hlow, levelDist_target hypos hlow]
    exact hm.levelDist_lt hmax hx hspan hn (hsame ▸ hq) hpos hne.symm
      fun i hi => by rw [habove i hi, hsame]

/-- Another node elects the g-node of the closest one at the highest level where the two part. -/
lemma OnTrack.elects_other (hmax : t.maxNodes = some max) (hx : x.topology = t)
    (hspan : x.top = t.levels) (hm : peers.HashNode x m) (h : OnTrack peers x m l r)
    (hp₀ : r.node.positions[0]? = some p₀) (hj : j < l) (hp : m.positions[j]? = some p)
    (hq : r.node.positions[j]? = some q) (hqp : q ≠ p)
    (habove : ∀ i, j < i → r.node.positions[i]? = m.positions[i]?) :
    r.elected peers = .ok (some ⟨j, p⟩) := by
  have hlen := peers.length_positions h.mem
  have hreal := peers.inRange h.mem
  obtain ⟨y, hy, hytop, htop, hypos⟩ := h.exists_target hspan (by omega)
  have hdigit : ∀ i < l, ∀ p, levelDist t y i p = levelDist t x i p :=
    fun i hi p => levelDist_target hypos hi p
  have hcloser : levelDist t y j p.toNat < levelDist t y j q.toNat := by
    rw [hdigit j hj, hdigit j hj]
    exact hm.levelDist_lt hmax hx hspan h.mem hp hq hqp habove
  have hpos : HCoord.InRange t ⟨j, p⟩ := by
    obtain ⟨g, hg, hlt⟩ := peers.inRange hm.mem j p hp
    exact ⟨g, by rw [← hg, Nat.zero_add], hlt⟩
  have hknown : peers.gnodeExists r.node ⟨j, p⟩ = true :=
    Peers.gnodeExists_iff.mpr ⟨m, hm.mem, hp, fun i hi => (habove i hi).symm⟩
  have hlevel : gnodeDigit r.node.positions ⟨j, p⟩ j = p.toNat := gnodeDigit_level
  rw [Resolving.elected, hy]
  refine approximate_eq_of_lt hmax hreal hlen hytop (by omega) hp₀
    (.inr ⟨hpos, htop ▸ hj, ⟨q, hq, hqp⟩, List.not_mem_nil, hknown⟩) (fun _ => ?_)
    fun h' hcandidate hother => ?_
  · refine gnodeDist_lt hytop hreal hlen hpos (htop ▸ hj)
      (fun i hi => by rw [gnodeDigit_self hp₀, gnodeDigit_above hi]) ?_
    rw [hlevel, gnodeDigit_self hp₀, List.getD_eq_getElem?_getD, hq, Option.getD_some]
    exact hcloser
  · obtain ⟨q', hq', hne'⟩ := hcandidate.parts
    obtain ⟨n, hn, hpos', habove'⟩ := Peers.gnodeExists_iff.mp hcandidate.known
    have hl' : h'.level < l := htop ▸ hcandidate.level_lt
    rcases Nat.lt_trichotomy h'.level j with hlt | heq | hgt
    · -- below `j` the candidate still has the node's own position at `j`
      refine gnodeDist_lt hytop hreal hlen hpos (htop ▸ hj) (fun i hi => ?_) ?_
      · rw [gnodeDigit_above hi, gnodeDigit_above (hlt.trans hi)]
      · rw [hlevel, gnodeDigit_above hlt, List.getD_eq_getElem?_getD, hq, Option.getD_some]
        exact hcloser
    · have hne'' : h'.pos ≠ p := by
        rintro rfl
        refine hother ?_
        rw [← heq]
      refine gnodeDist_lt hytop hreal hlen hpos (htop ▸ hj) (fun i hi => ?_) ?_
      · rw [gnodeDigit_above hi, gnodeDigit_above (heq ▸ hi)]
      · have hdigit' : gnodeDigit r.node.positions h' j = h'.pos.toNat := heq ▸ gnodeDigit_level
        rw [hlevel, hdigit', hdigit j hj, hdigit j hj]
        exact hm.levelDist_lt hmax hx hspan hn hp (heq ▸ hpos') hne''
          fun i hi => (habove' i (heq ▸ hi)).trans (habove i hi)
    · -- above `j` the closest node is where the node that is reached is
      refine gnodeDist_lt hytop hreal hlen hpos (htop ▸ hl') (fun i hi => ?_) ?_
      · rw [gnodeDigit_above hi, gnodeDigit_above (hgt.trans hi)]
      · rw [gnodeDigit_level, gnodeDigit_above hgt, List.getD_eq_getElem?_getD, hq',
          Option.getD_some, hdigit _ hl', hdigit _ hl']
        exact hm.levelDist_lt hmax hx hspan hn ((habove _ hgt).symm.trans hq') hpos' hne'.symm
          fun i hi => (habove' i hi).trans (habove i (hgt.trans hi))

end Elects

/-- **What is elected on the way to `m`**: itself at `m`, and elsewhere the g-node of `m` at the
highest level where the two part. -/
lemma OnTrack.elects (hmax : t.maxNodes = some max) (hx : x.topology = t)
    (hspan : x.top = t.levels) (hm : peers.HashNode x m) {l : ℕ} {r : Resolving}
    (h : OnTrack peers x m l r) :
    ∃ p₀, r.node.positions[0]? = some p₀ ∧
      (r.node = m ∧ r.elected peers = .ok (some ⟨0, p₀⟩) ∨
        ∃ j < l, ∃ p q, m.positions[j]? = some p ∧ r.node.positions[j]? = some q ∧ q ≠ p ∧
          (∀ i, j < i → r.node.positions[i]? = m.positions[i]?) ∧
          r.elected peers = .ok (some ⟨j, p⟩)) := by
  have hlen := peers.length_positions h.mem
  have hzero : 0 < r.node.positions.length := hlen ▸ t.levels_pos
  obtain ⟨p₀, hp₀⟩ : ∃ p₀, r.node.positions[0]? = some p₀ := ⟨_, List.getElem?_eq_getElem hzero⟩
  refine ⟨p₀, hp₀, ?_⟩
  by_cases hsame : r.node = m
  · exact .inl ⟨hsame, h.elects_self hmax hx hspan hm hp₀ hsame⟩
  · obtain ⟨j, p, q, hp, hq, hqp, habove⟩ := Peers.exists_parting h.mem hm.mem hsame
    have hj : j < l := by
      by_contra hle
      exact hqp (Option.some.inj (hq.symm.trans ((h.above j (not_lt.mp hle)).trans hp)))
    exact .inr ⟨j, hj, p, q, hp, hq, hqp, habove,
      h.elects_other hmax hx hspan hm hp₀ hj hp hq hqp habove⟩

/-- **One hand-over** stays on the way, at a lower level. -/
lemma OnTrack.handOver (hmax : t.maxNodes = some max) (hx : x.topology = t)
    (hspan : x.top = t.levels) (hm : peers.HashNode x m) {l : ℕ} {r r' : Resolving}
    (h : OnTrack peers x m l r) (hstep : HandOver peers r r') :
    ∃ j < l, OnTrack peers x m j r' := by
  obtain ⟨p₀, hp₀, ⟨-, helected⟩ | ⟨j, hj, p, q, hp, hq, hqp, habove, helected⟩⟩ :=
    h.elects hmax hx hspan hm
  · cases hstep with
    | intro elects other mem inside cut =>
        rw [helected] at elects
        cases elects
        exact absurd rfl (other p₀ hp₀)
  · cases hstep with
    | @intro e n xMacron elects other mem inside cut =>
        rw [helected] at elects
        cases elects
        obtain ⟨y, hy, hytop, htop, hypos⟩ := h.exists_target hspan (by omega)
        obtain ⟨cut', hcut, hhere, htarget⟩ :=
          cutXMacron_eq fun _ => ⟨hy, hytop, hj.le.trans htop.ge⟩
        rw [hcut] at cut
        cases cut
        refine ⟨j, hj, mem, hj.le.trans h.le, fun i hi => ?_, hhere, fun hne => ?_⟩
        · rcases Nat.eq_or_lt_of_le hi with rfl | hi
          · exact inside.1.trans hp.symm
          · exact (inside.2 i hi).trans (habove i hi)
        · obtain ⟨z, hz, hztop, hzpos⟩ := htarget hne
          refine ⟨z, hz, hztop, ?_⟩
          rw [hzpos, hypos, List.take_take, Nat.min_eq_left hj.le]

/-- A search on its way is at its end, or goes on. -/
lemma OnTrack.progress (hmax : t.maxNodes = some max) (hx : x.topology = t)
    (hspan : x.top = t.levels) (hm : peers.HashNode x m) {l : ℕ} {r : Resolving}
    (h : OnTrack peers x m l r) :
    (Ends peers r ↔ r.node = m) ∧ (Ends peers r ∨ ∃ r', HandOver peers r r') := by
  obtain ⟨p₀, hp₀, ⟨hnode, helected⟩ | ⟨j, hj, p, q, hp, hq, hqp, habove, helected⟩⟩ :=
    h.elects hmax hx hspan hm
  · have hends : Ends peers r := ⟨p₀, hp₀, helected⟩
    exact ⟨iff_of_true hends hnode, .inl hends⟩
  · have hother : ∀ p₁, r.node.positions[0]? = some p₁ → (⟨j, p⟩ : HCoord) ≠ ⟨0, p₁⟩ := by
      rintro p₁ hp₁ heq
      cases heq
      exact hqp (Option.some.inj (hq.symm.trans hp₁))
    have hgoes : ¬Ends peers r := by
      rintro ⟨p₁, hp₁, hends⟩
      rw [helected] at hends
      exact hother p₁ hp₁ (Option.some.inj (Except.ok.inj hends))
    have hnode : r.node ≠ m := by
      rintro rfl
      exact hqp (Option.some.inj (hq.symm.trans hp))
    obtain ⟨y, hy, hytop, htop, -⟩ := h.exists_target hspan (by omega)
    obtain ⟨cut, hcut, -⟩ :=
      cutXMacron_eq (t := t) fun _ => ⟨hy, hytop, hj.le.trans htop.ge⟩
    exact ⟨iff_of_false hgoes hnode,
      .inr ⟨⟨m, cut⟩, .intro helected hother hm.mem ⟨hp, fun i hi => (habove i hi).symm⟩ hcut⟩⟩

/-- A search starts on its way. -/
lemma onTrack_start (hx : x.topology = t) (hspan : x.top = t.levels) (hm : peers.HashNode x m)
    {s : Naddr} (hs : s ∈ peers.nodes) : OnTrack peers x m t.levels ⟨s, some x⟩ where
  mem := hs
  le := le_rfl
  above i hi := by
    rw [List.getElem?_eq_none ((peers.length_positions hs).le.trans hi),
      List.getElem?_eq_none ((peers.length_positions hm.mem).le.trans hi)]
  here hzero := absurd hzero t.levels_pos.ne'
  target _ := ⟨x, rfl, hx, (List.take_of_length_le hspan.le).symm⟩

/-- **All searches agree.**  There is one node closest to the target; from every node, whoever takes
over on the way, a search ends there, after at most one hand-over for each level. -/
theorem dht_agreement (hmax : t.maxNodes = some max) (peers : Peers t) (hx : x.topology = t)
    (hspan : x.top = t.levels) :
    ∃ m, peers.HashNode x m ∧ ∀ s ∈ peers.nodes, ∀ k r,
      Walk (HandOver peers) ⟨s, some x⟩ k r →
        k ≤ t.levels ∧ (Ends peers r ↔ r.node = m) ∧
          (Ends peers r ∨ ∃ r', HandOver peers r r') := by
  obtain ⟨m, hm⟩ := exists_hashNode hmax peers hx hspan
  refine ⟨m, hm, fun s hs k r walk => ?_⟩
  have htrack : ∃ l, OnTrack peers x m l r ∧ k + l ≤ t.levels := by
    induction walk with
    | root => exact ⟨t.levels, onTrack_start hx hspan hm hs, by omega⟩
    | step walk hstep ih =>
        obtain ⟨l, hl, hle⟩ := ih
        obtain ⟨j, hj, htrack⟩ := hl.handOver hmax hx hspan hm hstep
        exact ⟨j, htrack, by omega⟩
  obtain ⟨l, hl, hle⟩ := htrack
  exact ⟨by omega, hl.progress hmax hx hspan hm⟩

end Agreement

/-! ## The messages of a search -/

section Messages

variable {V : Type} {t : Topology} {peers : Peers t} {cfg : PeerConfig} {p : PeerState V}
  {call : ContactCall V} {mf : PeerMessageForwarder} {s s' : Search}

/-- What `forward_msg` makes of a message of a mandatory service that excludes nothing: it ends the
search, or hands it over. -/
theorem forwardMsg_resolves (htop : p.topology = t)
    (hmandatory : p.isServiceOptional mf.pId = false) (hexcluded : mf.excludeTupleList = []) {belowLevel : ℕ} {o : Forwarding} (ho : o.Elected)
    (h : forwardMsg p belowLevel (peers.gnodeExists p.myPos) mf = .ok o) :
    (∃ respondant, o = .serve respondant ∧ Ends peers ⟨p.myPos, mf.xMacron⟩) ∨
      ∃ e mf' told, o = .handOver e mf' told ∧ mf'.pId = mf.pId ∧ mf'.excludeTupleList = [] ∧
        ∀ n ∈ peers.nodes, InGnode p.myPos.positions e n.positions →
          HandOver peers ⟨p.myPos, mf.xMacron⟩ ⟨n, mf'.xMacron⟩ := by
  obtain ⟨-, h⟩ := forwardMsg_elected h ho
  obtain ⟨nonParticipants, hnon, h⟩ := Outcome.bind_eq_ok.mp h
  obtain ⟨excluded, hrun, h⟩ := Outcome.bind_eq_ok.mp h
  obtain ⟨elected, helected, h⟩ := Outcome.bind_eq_ok.mp h
  rw [PeerState.nonParticipantGnodes, hmandatory] at hnon
  rw [hexcluded] at hrun
  cases hnon
  cases hrun
  rw [htop] at helected
  cases elected with
  | none =>
      obtain ⟨gn, -, h⟩ := Outcome.bind_eq_ok.mp h
      cases h
      exact ho.elim
  | some e =>
      obtain ⟨p₀, hp₀, h⟩ := Outcome.bind_eq_ok.mp h
      have hp₀ := Outcome.index_eq_ok.mp hp₀
      split_ifs at h with hme
      · obtain ⟨n, -, h⟩ := Outcome.bind_eq_ok.mp h
        cases h
        exact .inl ⟨n, rfl, p₀, hp₀, hme ▸ helected⟩
      · obtain ⟨xMacron, hcut, h⟩ := Outcome.bind_eq_ok.mp h
        obtain ⟨cuts, hcuts, h⟩ := Outcome.bind_eq_ok.mp h
        obtain ⟨gns, -, h⟩ := Outcome.bind_eq_ok.mp h
        obtain ⟨told, -, h⟩ := Outcome.bind_eq_ok.mp h
        cases h
        rw [hexcluded] at hcuts
        cases hcuts
        refine .inr ⟨e, _, told, rfl, rfl, rfl, fun n hn hin => .intro helected ?_ hn hin
          (htop ▸ hcut)⟩
        intro p₁ hp₁ heq
        rw [hp₀] at hp₁
        cases hp₁
        exact hme heq

/-- What `contact_peer` does before anything is excluded: it ends the search, or hands it over. -/
theorem elect_resolves (htop : p.topology = t) (hexcluded : s.excludeGnodeList = [])
    {el : Election} (h : elect cfg p call (peers.gnodeExists p.myPos) s = .ok (s', el)) :
    (el = .myself → Ends peers ⟨p.myPos, call.xMacron⟩) ∧
      ∀ e msgId a, el = .remote e → openAttempt p call s' e msgId = .ok a →
        ∀ n ∈ peers.nodes, InGnode p.myPos.positions e n.positions →
          HandOver peers ⟨p.myPos, call.xMacron⟩ ⟨n, a.forwarder.xMacron⟩ := by
  rw [elect] at h
  by_cases hhops : cfg.maxContactPeerHops < s.hops + 1
  · rw [if_pos hhops] at h
    cases h
    exact ⟨nofun, nofun⟩
  · rw [if_neg hhops] at h
    obtain ⟨elected, helected, h⟩ := Outcome.bind_eq_ok.mp h
    simp only [hexcluded] at helected
    rw [htop] at helected
    cases elected with
    | none =>
        cases h
        exact ⟨nofun, nofun⟩
    | some e =>
        obtain ⟨p₀, hp₀, h⟩ := Outcome.bind_eq_ok.mp h
        have hp₀ := Outcome.index_eq_ok.mp hp₀
        cases h
        split_ifs with hme
        · exact ⟨fun _ => ⟨p₀, hp₀, hme ▸ helected⟩, nofun⟩
        · refine ⟨nofun, fun e' msgId a heq hopen n hn hin => ?_⟩
          cases heq
          obtain ⟨_, -, hopen⟩ := Outcome.bind_eq_ok.mp hopen
          obtain ⟨_, -, hopen⟩ := Outcome.bind_eq_ok.mp hopen
          obtain ⟨xMacron, hcut, hopen⟩ := Outcome.bind_eq_ok.mp hopen
          obtain ⟨_, -, hopen⟩ := Outcome.bind_eq_ok.mp hopen
          obtain ⟨_, -, hopen⟩ := Outcome.bind_eq_ok.mp hopen
          obtain ⟨_, -, hopen⟩ := Outcome.bind_eq_ok.mp hopen
          cases hopen
          refine .intro helected ?_ hn hin (htop ▸ hcut)
          intro p₁ hp₁ heq
          rw [hp₀] at hp₁
          cases hp₁
          exact hme heq

end Messages

/-! ## Two nodes -/

/-- Two nodes in different g-nodes. -/
def twoPeers : Peers twoLevels where
  nodes := {⟨twoLevels, [3, 0], rfl⟩, ⟨twoLevels, [1, 2], rfl⟩}
  nonempty := Finset.insert_nonempty _ _
  topology n hn := by
    rcases Finset.mem_insert.mp hn with rfl | hn
    · rfl
    · rw [Finset.mem_singleton.mp hn]
  real n hn := by
    rcases Finset.mem_insert.mp hn with rfl | hn
    · decide
    · rw [Finset.mem_singleton.mp hn]
      decide

theorem dht_agreement_two :
    ∃ m, twoPeers.HashNode (twoLevelsNode [0, 1] rfl) m ∧ ∀ s ∈ twoPeers.nodes, ∀ k r,
      Walk (HandOver twoPeers) ⟨s, some (twoLevelsNode [0, 1] rfl)⟩ k r →
        k ≤ 2 ∧ (Ends twoPeers r ↔ r.node = m) ∧
          (Ends twoPeers r ∨ ∃ r', HandOver twoPeers r r') :=
  dht_agreement (rfl : twoLevels.maxNodes = some 16) twoPeers rfl rfl

end Netsukuku
