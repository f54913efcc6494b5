import Mathlib
import Netsukuku.Qspn.State
import Netsukuku.Hooking.Search

/-!
# Which g-node is told to move

A node asked for room names, with every g-node it knows of around its own g-node of level `m`, the
position of its border g-node: the one that is to move out there.  The search puts that position
in front of its name for the asked g-node, so it has to be a position of level `m - 1`.  The
daemon's view of the map takes it from level `m`.

* `QspnViewAdapter.view` — what the daemon shows of its map.
* `BorderInside` — the node that answers is in the g-node it offers to move.
* `borderInside_iff` — when that is so.
-/

namespace Netsukuku.Hooking

/-- `map_eldership`: a claim, none for a virtual position, or not known. -/
def mapEldership : Option (Option UInt32) → Int32
  | some (some n) => if n.toNat < 2 ^ 31 then n.toInt32 else Int32.ofNat (2 ^ 31 - 2)
  | some none => -1
  | none => Int32.ofNat (2 ^ 31 - 1)

/-- `EldershipCache`. -/
structure EldershipCache where
  my : KeyedMap ℕ (Option (Option UInt32))
  foreign : KeyedMap (ℕ × UInt32) (Option (Option UInt32))

/-- The bits of all the levels up to each, counted until they are 5. -/
def epsilonScan (levels : ℕ) : ℕ → ℕ → List UInt32 → ℕ
  | _, _, [] => levels
  | count, bits, gsize :: gsizes =>
      let bits := bits + Nat.size (gsize.toNat - 1)
      if 5 ≤ bits then count + 1 else epsilonScan levels (count + 1) bits gsizes

/-- `hooking_epsilon`. -/
def hookingEpsilon (topology : Topology) : ℕ := epsilonScan topology.levels 0 0 topology.gsizes

/-- The daemon's view of the map: the address and the routes of its qspn, the elderships learned
from it, and what it knows of its network. -/
structure QspnViewAdapter where
  myNaddr : Naddr
  snapshot : RouteSnapshot
  eldership : EldershipCache
  networkId : Int64
  isBootstrapped : Bool

namespace QspnViewAdapter

/-- `adjacent_to_my_gnode`: every g-node of the level that the snapshot shows, but my own. -/
def adjacentToMyGnode (a : QspnViewAdapter) (levelAdjacentGnodes levelMyGnode : ℕ) :
    List AdjacentGNode :=
  match a.snapshot[levelAdjacentGnodes]? with
  | none => []
  | some entries => entries.filterMap fun entry =>
      match a.myNaddr.isInside entry.destination with
      | .ok true => none
      | _ => (a.myNaddr.pos levelMyGnode).map fun borderRealPos => ⟨entry.destination, borderRealPos⟩

def view (a : QspnViewAdapter) : QspnView where
  topology := a.myNaddr.topology
  networkId := a.networkId
  myPos level := (a.myNaddr.pos level).getD 0
  myEldership level := mapEldership ((a.eldership.my.get? level).join)
  subnetlevel := 0
  epsilon _ := hookingEpsilon a.myNaddr.topology
  eldership level pos := mapEldership ((a.eldership.foreign.get? (level, pos)).join)
  adjacentToMyGnode := a.adjacentToMyGnode
  isBootstrapped := a.isBootstrapped

/-- The snapshot shows no g-node of level `m` or above but my own. -/
def KnowsNoOther (a : QspnViewAdapter) (m : ℕ) : Prop :=
  ∀ i, m ≤ i → i < a.myNaddr.topology.levels → ∀ entries, a.snapshot[i]? = some entries →
    ∀ entry ∈ entries, a.myNaddr.isInside entry.destination = .ok true

end QspnViewAdapter

/-- The name the search makes of a border position: in front of the name of my g-node of level
`m`. -/
def previousMigratingGnode (view : QspnView) (m : ℕ) (borderRealPos : UInt32) : TupleGNode :=
  ⟨borderRealPos :: (makeTupleFromLevel m view).pos, -1 :: (makeTupleFromLevel m view).eldership⟩

/-- The g-node offered to move is one of level `m - 1`, at a real position, and the node that
answers is in it. -/
structure NamesMine (view : QspnView) (m : ℕ) (borderRealPos : UInt32) : Prop where
  level : (previousMigratingGnode view m borderRealPos).level view.levels = m - 1
  real : tupleHasVirtualPos (previousMigratingGnode view m borderRealPos) view = false
  inside : iAmInside (previousMigratingGnode view m borderRealPos) view = true

/-- Whatever a search asks of the node, every g-node it offers to move from level `m` is its
own. -/
def BorderInside (a : QspnViewAdapter) (m : ℕ) : Prop :=
  ∀ reserve visitingGnode maxHostLvl step,
    executeSearch a.view reserve visitingGnode maxHostLvl = some step → step.minHostLvl = m →
      ∀ pair ∈ step.setAdjacent, NamesMine a.view m pair.borderRealPos

/-- The border positions of an answer are real ones. -/
def BorderReal (view : QspnView) (step : SearchStepResult) : Prop :=
  ∀ pair ∈ step.setAdjacent, ∃ lvl, pair.borderRealPos.toNat < view.gsize lvl

/-! ## The answers of a node -/

/-- What an answer lists is adjacent to the level it answers for. -/
lemma setAdjacent_executeSearch {view : QspnView} {reserve : ℕ → Option Reservation}
    {visitingGnode : TupleGNode} {maxHostLvl : ℕ} {step : SearchStepResult}
    (h : executeSearch view reserve visitingGnode maxHostLvl = some step) :
    step.setAdjacent = adjacencySet view step.minHostLvl := by
  unfold executeSearch at h
  split_ifs at h
  simp only [Option.bind_eq_bind, Option.bind_eq_some_iff] at h
  obtain ⟨⟨minHostLvl, r⟩, -, h⟩ := h
  simp only at h
  split_ifs at h
  · cases h
    rfl
  · obtain ⟨_, -, h⟩ := Option.bind_eq_some_iff.mp h
    cases h
    rfl

section Names

variable {view : QspnView} {k m : ℕ} {p : UInt32}

/-- A position in front of my own name from level `m` on spells my g-node of the level below
exactly when it is my position there. -/
lemma previousMigratingGnode_pos (hm : 1 ≤ m) (hlt : m < view.levels) :
    (previousMigratingGnode view m p).pos = (makeTupleFromLevel (m - 1) view).pos ↔
      p = view.myPos (m - 1) := by
  obtain ⟨m, rfl⟩ := Nat.exists_eq_add_of_le' hm
  have hrange : List.range' m (view.levels - m) =
      m :: List.range' (m + 1) (view.levels - (m + 1)) := by
    rw [show view.levels - m = view.levels - (m + 1) + 1 by omega, List.range'_succ]
  simp [previousMigratingGnode, makeTupleFromLevel, hrange]

lemma namesMine_iff (hreal : view.IsReal) (hm : 1 ≤ m) (hlt : m < view.levels) :
    NamesMine view m p ↔ p = view.myPos (m - 1) := by
  have hlen : (previousMigratingGnode view m p).pos.length = view.levels - (m - 1) := by
    rw [previousMigratingGnode, List.length_cons, length_makeTupleFromLevel]
    omega
  have hinside : iAmInside (previousMigratingGnode view m p) view = true ↔
      p = view.myPos (m - 1) := by
    rw [iAmInside_iff, hlen, show view.levels - (view.levels - (m - 1)) = m - 1 by omega,
      ← makeTupleFromLevel_eq_drop, previousMigratingGnode_pos hm hlt]
    exact and_iff_right (by omega)
  refine ⟨fun h => hinside.mp h.inside, fun h => ⟨?_, ?_, hinside.mpr h⟩⟩
  · rw [TupleGNode.level, hlen]
    omega
  · exact tupleHasVirtualPos_of_name hreal ((previousMigratingGnode_pos hm hlt).mpr h)

end Names

/-- Every level below the top may be the one a node answers for: its coordinator has room. -/
lemma exists_executeSearch {view : QspnView} (hreal : view.IsReal) {m : ℕ} (hm : 1 ≤ m)
    (hlt : m < view.levels) :
    ∃ reserve visitingGnode maxHostLvl step,
      executeSearch view reserve visitingGnode maxHostLvl = some step ∧ step.minHostLvl = m := by
  have hinside : iAmInside (makeTupleFromLevel m view) view = true := by
    rw [iAmInside_iff, length_makeTupleFromLevel, Nat.sub_sub_self hlt.le]
    exact ⟨Nat.sub_le _ _, makeTupleFromLevel_eq_drop m view⟩
  have hmine : tupleHasVirtualPos (makeTupleFromLevel 0 view) view = false :=
    tupleHasVirtualPos_of_name hreal rfl
  have hlevel : (makeTupleFromLevel m view).level view.levels = m := by
    rw [TupleGNode.level, length_makeTupleFromLevel, Nat.sub_sub_self hlt.le]
  have hroom : 0 < hostSize view m := Nat.zero_lt_of_lt (hreal (m - 1) (by omega))
  have hfirst : firstReservation (fun _ => some ⟨0, 0⟩) m (view.levels + 1 - m) =
      some (m, ⟨0, 0⟩) := by
    rw [show view.levels + 1 - m = view.levels - m + 1 by omega]
    rfl
  refine ⟨fun _ => some ⟨0, 0⟩, makeTupleFromLevel m view, view.levels,
    ⟨m, m, some 0, some 0, adjacencySet view m, none, none⟩, ?_, rfl⟩
  simp [executeSearch, hinside, hmine, hlevel, hfirst, hroom]

/-! ## The positions a node gives -/

section Adapter

variable {a : QspnViewAdapter} {m : ℕ}

lemma view_myPos (hlt : m < a.myNaddr.topology.levels) :
    a.myNaddr.pos m = some (a.view.myPos m) := by
  obtain ⟨p, hp⟩ := Naddr.exists_pos hlt
  show a.myNaddr.pos m = some ((a.myNaddr.pos m).getD 0)
  rw [hp, Option.getD_some]

lemma view_isReal (hreal : a.myNaddr.IsReal) : a.view.IsReal := by
  intro i hi
  obtain ⟨p, g, hp, hg, hroom⟩ := Naddr.isVirtualAt_eq_false.mp (hreal i hi)
  rw [view_myPos hi] at hp
  rw [Option.some.inj hp, QspnView.gsize]
  show p.toNat < ((a.myNaddr.topology.gsize i).map UInt32.toNat).getD 0
  rwa [hg]

/-- Every g-node shown beside my own comes with my position of level `m`. -/
lemma mem_adjacentToMyGnode {i : ℕ} {adj : AdjacentGNode} (hlt : m < a.myNaddr.topology.levels) :
    adj ∈ a.adjacentToMyGnode i m ↔ ∃ entries, a.snapshot[i]? = some entries ∧
      ∃ entry ∈ entries, a.myNaddr.isInside entry.destination ≠ .ok true ∧
        adj = ⟨entry.destination, a.view.myPos m⟩ := by
  unfold QspnViewAdapter.adjacentToMyGnode
  cases hlevel : a.snapshot[i]? with
  | none => simp
  | some entries =>
      simp only [List.mem_filterMap, Option.some.injEq, exists_eq_left', view_myPos hlt,
        Option.map_some]
      refine exists_congr fun entry => and_congr_right fun _ => ?_
      split
      · next hinside => simp [hinside]
      · next houtside =>
          rw [Option.some.injEq, eq_comm]
          exact (and_iff_right houtside).symm

/-- What holds of the positions given. -/
lemma forall_adjacencySet (P : UInt32 → Prop) (hlt : m < a.myNaddr.topology.levels) :
    (∀ pair ∈ adjacencySet a.view m, P pair.borderRealPos) ↔
      a.KnowsNoOther m ∨ P (a.view.myPos m) := by
  simp only [adjacencySet, List.forall_mem_map, List.mem_flatMap, List.mem_range'_1]
  constructor
  · intro h
    by_contra hnot
    rw [not_or] at hnot
    refine hnot.1 fun i hi hlevels entries hentries entry hentry => ?_
    by_contra hother
    exact hnot.2 (h ⟨entry.destination, a.view.myPos m⟩ ⟨i, ⟨hi, by
      show i < m + (a.myNaddr.topology.levels - m)
      omega⟩, (mem_adjacentToMyGnode hlt).mpr ⟨entries, hentries, entry, hentry, hother, rfl⟩⟩)
  · rintro h adj ⟨i, ⟨hi, hlevels⟩, hadj⟩
    obtain ⟨entries, hentries, entry, hentry, hother, rfl⟩ := (mem_adjacentToMyGnode hlt).mp hadj
    refine h.resolve_left fun hnone => hother (hnone i hi ?_ entries hentries entry hentry)
    have : i < m + (a.myNaddr.topology.levels - m) := hlevels
    omega

/-- What a node offers to move away from its border is at a real position: a virtual node does not
answer. -/
theorem borderReal_executeSearch {reserve : ℕ → Option Reservation} {visitingGnode : TupleGNode}
    {maxHostLvl : ℕ} {step : SearchStepResult}
    (h : executeSearch a.view reserve visitingGnode maxHostLvl = some step) :
    BorderReal a.view step := by
  have hreal : a.view.IsReal := by
    unfold executeSearch at h
    split_ifs at h with hinside hvirtual
    exact isReal_of_tupleHasVirtualPos (by simpa using hvirtual)
  intro pair hpair
  rw [setAdjacent_executeSearch h] at hpair
  by_cases hlt : step.minHostLvl < a.view.levels
  · exact (forall_adjacencySet (fun p => ∃ lvl, p.toNat < a.view.gsize lvl) hlt).mpr
      (Or.inr ⟨_, hreal _ hlt⟩) pair hpair
  · -- There are no levels above the highest.
    simp [adjacencySet, Nat.sub_eq_zero_of_le (not_lt.mp hlt)] at hpair

end Adapter

/-- **The g-node offered to move is the node's own when the positions of the two levels agree**, or
when there is nothing around it to offer it to. -/
theorem borderInside_iff {a : QspnViewAdapter} (hreal : a.myNaddr.IsReal) {m : ℕ} (hm : 1 ≤ m)
    (hlt : m < a.myNaddr.topology.levels) :
    BorderInside a m ↔ a.KnowsNoOther m ∨ a.myNaddr.pos (m - 1) = a.myNaddr.pos m := by
  have hview := view_isReal hreal
  have hset : BorderInside a m ↔
      ∀ pair ∈ adjacencySet a.view m, NamesMine a.view m pair.borderRealPos := by
    constructor
    · intro h pair hpair
      obtain ⟨reserve, visitingGnode, maxHostLvl, step, hrun, rfl⟩ :=
        exists_executeSearch hview hm hlt
      exact h reserve visitingGnode maxHostLvl step hrun rfl pair
        (by rwa [setAdjacent_executeSearch hrun])
    · rintro h reserve visitingGnode maxHostLvl step hrun rfl pair hpair
      rw [setAdjacent_executeSearch hrun] at hpair
      exact h pair hpair
  rw [hset, forall_adjacencySet _ hlt, namesMine_iff hview hm hlt, view_myPos hlt,
    view_myPos (show m - 1 < a.myNaddr.topology.levels by omega), Option.some.injEq, eq_comm]

lemma length_borderNode (p q : UInt32) : [p, q].length = [(8 : UInt32), 8].length := rfl

/-- The node at `[p, q]` of two levels of eight, that knows of the g-node 2 of level 1. -/
def borderNode (p q : UInt32) : QspnViewAdapter where
  myNaddr := ⟨⟨[8, 8], by simp, by simp⟩, [p, q], length_borderNode p q⟩
  snapshot := [[], [⟨⟨1, 2⟩, []⟩]]
  eldership := ⟨KeyedMap.empty, KeyedMap.empty⟩
  networkId := 1
  isBootstrapped := true

/-- At `[5, 5]` the position of level 1 is also that of level 0; at `[0, 5]` it is not. -/
theorem borderInside_iff_five :
    BorderInside (borderNode 5 5) 1 ∧ ¬BorderInside (borderNode 0 5) 1 := by
  constructor
  · exact (borderInside_iff (by decide) le_rfl (by decide)).mpr (.inr rfl)
  · rw [borderInside_iff (by decide) le_rfl (by decide)]
    rintro (hnone | hsame)
    · have hinside := hnone 1 le_rfl (by decide) _ rfl _ List.mem_cons_self
      exact absurd hinside (by decide)
    · exact absurd hsame (by decide)

/-- The node at `[0, 5]` offers to move `[5, 5]`. -/
theorem not_borderInside :
    ¬∀ (a : QspnViewAdapter) (m : ℕ), 2 ≤ a.myNaddr.topology.levels → a.myNaddr.IsReal → 1 ≤ m →
      m < a.myNaddr.topology.levels → BorderInside a m := by
  intro h
  have hborder := h (borderNode 0 5) 1 le_rfl (by decide) le_rfl (by decide)
    (fun _ => some ⟨0, 0⟩) (makeTupleFromLevel 1 (borderNode 0 5).view) 2 _ rfl rfl
    ⟨makeTupleFromHc ⟨1, 2⟩ (borderNode 0 5).view, 5⟩ List.mem_cons_self
  exact absurd hborder.inside (by decide)

end Netsukuku.Hooking
