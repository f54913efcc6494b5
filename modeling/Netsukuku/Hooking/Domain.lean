import Mathlib
import Netsukuku.Common.Address

/-!
# Names of g-nodes, and what a node knows

Negotiating an entry takes place between g-nodes: one is asked for room, another is told to move.
A g-node is named by a `TupleGNode`, the positions from its own level up to the top, together with
the elderships held there.  What a node knows of its own address and of its neighbours comes in
through a `QspnView`.

* `TupleGNode.level`, `contains`, `truncateToLevel` — names of different levels.
* `makeTupleFromLevel`, `makeTupleFromHc` — the names a node can give from its own address.
* `tupleHasVirtualPos` — a name that is not a real place.
* `RequestPacket`, `EntryData` — what is sent to a g-node that moves, and what a guest is told.
-/

namespace Netsukuku.Hooking

/-- The name of a g-node: the positions from its level up, innermost first, and the elderships
there.  An eldership that is not known yet is `-1`. -/
structure TupleGNode where
  pos : List UInt32
  eldership : List Int32
  deriving DecidableEq

namespace TupleGNode

/-- The empty tuple, which names the whole network. -/
def default : TupleGNode := ⟨[], []⟩

/-- The level this tuple starts at. -/
def level (g : TupleGNode) (levels : ℕ) : ℕ := levels - g.pos.length

/-- Every position `outside` names is the position `g` has there. -/
def contains (g outside : TupleGNode) : Bool :=
  if g.pos.length < outside.pos.length then false
  else outside.pos.zipIdx.all fun e =>
    decide (some e.1 = g.pos[e.2 + (g.pos.length - outside.pos.length)]?)

/-- The same name from `targetLevel` up; `none` if it does not reach down that far, or is
malformed. -/
def truncateToLevel (g : TupleGNode) (targetLevel levels : ℕ) : Option TupleGNode :=
  if levels < targetLevel ∨ g.eldership.length ≠ g.pos.length then none
  else if g.pos.length < levels - targetLevel then none
  else some ⟨g.pos.drop (g.pos.length - (levels - targetLevel)),
    g.eldership.drop (g.pos.length - (levels - targetLevel))⟩

end TupleGNode

/-- `positions_equal`: the same g-node, whatever the elderships. -/
def positionsEqual (a b : TupleGNode) : Bool := decide (a.pos = b.pos)

/-- An adjacent g-node, and the position of the border g-node of mine that touches it. -/
structure AdjacentGNode where
  hc : HCoord
  borderRealPos : UInt32
  deriving DecidableEq

/-- What a node knows of its address and of its map. -/
structure QspnView where
  topology : Topology
  networkId : Int64
  myPos : ℕ → UInt32
  myEldership : ℕ → Int32
  subnetlevel : ℕ
  epsilon : ℕ → ℕ
  eldership : ℕ → UInt32 → Int32
  adjacentToMyGnode : ℕ → ℕ → List AdjacentGNode
  isBootstrapped : Bool

namespace QspnView

def levels (view : QspnView) : ℕ := view.topology.levels

/-- The room of a level; a level that does not exist has none. -/
def gsize (view : QspnView) (level : ℕ) : ℕ := ((view.topology.gsize level).map UInt32.toNat).getD 0

/-- Every position of mine is real. -/
def IsReal (view : QspnView) : Prop := ∀ i < view.levels, (view.myPos i).toNat < view.gsize i

end QspnView

/-- `make_tuple_from_level`: my own g-node of level `l`. -/
def makeTupleFromLevel (l : ℕ) (view : QspnView) : TupleGNode where
  pos := (List.range' l (view.levels - l)).map view.myPos
  eldership := (List.range' l (view.levels - l)).map view.myEldership

/-- `make_tuple_from_hc`: the g-node at `hc`, which shares my positions above. -/
def makeTupleFromHc (hc : HCoord) (view : QspnView) : TupleGNode where
  pos := hc.pos ::
    (List.range' (hc.level + 1) (view.levels - (hc.level + 1))).map view.myPos
  eldership := view.eldership hc.level hc.pos ::
    (List.range' (hc.level + 1) (view.levels - (hc.level + 1))).map view.myEldership

/-- `i_am_inside`. -/
def iAmInside (tuple : TupleGNode) (view : QspnView) : Bool :=
  (makeTupleFromLevel 0 view).contains tuple

/-- `tuple_has_virtual_pos`; a tuple longer than the hierarchy is never real. -/
def tupleHasVirtualPos (tuple : TupleGNode) (view : QspnView) : Bool :=
  if view.levels < tuple.pos.length then true
  else tuple.pos.zipIdx.any fun e =>
    decide (view.gsize (view.levels - tuple.pos.length + e.2) ≤ e.1.toNat)

/-- One hop of a request on its way through the g-nodes of a chain. -/
structure PathHop where
  visitingGnode : TupleGNode
  previousMigratingGnode : Option TupleGNode
  deriving DecidableEq

/-- An adjacent g-node by name, and the position of the border g-node that touches it. -/
structure PairTupleGNodeInt where
  gnode : TupleGNode
  borderRealPos : UInt32
  deriving DecidableEq

/-- The address a g-node is told to take: positions and elderships from its level up. -/
structure EntryData where
  networkId : Int64
  pos : List UInt32
  elderships : List Int32
  deriving DecidableEq

/-- What the members of a migrating g-node are told. -/
structure FinishMigrationData where
  migrationId : Int32
  migrationData : EntryData
  goConnectivityPosition : UInt32
  deriving DecidableEq

/-- The two halves of a migration. -/
inductive MigOp where
  | prepareMigration
  | finishMigration
  deriving DecidableEq

/-- A migration request, routed to `dest`. -/
structure RequestPacket where
  pktId : Int32
  dest : TupleGNode
  src : TupleGNode
  operation : MigOp
  migrationId : Int32
  connGnodePos : Int32
  hostGnode : TupleGNode
  realNewPos : Int32
  realNewEldership : Int32
  deriving DecidableEq

/-! ## Truncation -/

namespace TupleGNode

variable {g g' : TupleGNode} {l levels : ℕ}

/-- What a truncation that succeeds leaves: the upper positions, as many as its level needs. -/
lemma truncateToLevel_eq_some (h : g.truncateToLevel l levels = some g') :
    l ≤ levels ∧ levels - l ≤ g.pos.length ∧ g.eldership.length = g.pos.length ∧
      g'.pos = g.pos.drop (g.pos.length - (levels - l)) ∧
      g'.pos.length = levels - l ∧ g'.eldership.length = levels - l := by
  unfold truncateToLevel at h
  split_ifs at h with hbad hshort
  rw [not_or, not_lt, not_not] at hbad
  rw [not_lt] at hshort
  cases h
  simp only [List.length_drop]
  exact ⟨hbad.1, hshort, hbad.2, trivial, by omega, by omega⟩

lemma truncateToLevel_of_le (h : l ≤ levels) (hlen : levels - l ≤ g.pos.length)
    (he : g.eldership.length = g.pos.length) :
    g.truncateToLevel l levels = some ⟨g.pos.drop (g.pos.length - (levels - l)),
      g.eldership.drop (g.pos.length - (levels - l))⟩ := by
  unfold truncateToLevel
  rw [if_neg (by rw [not_or, not_lt, not_not]; exact ⟨h, he⟩), if_neg (not_lt.mpr hlen)]

end TupleGNode

/-! ## Where a node is -/

section Names

variable {view : QspnView} {g : TupleGNode} {k : ℕ}

@[simp] lemma length_makeTupleFromLevel (l : ℕ) (view : QspnView) :
    (makeTupleFromLevel l view).pos.length = view.levels - l := by
  simp [makeTupleFromLevel]

lemma makeTupleFromLevel_eq_drop (l : ℕ) (view : QspnView) :
    (makeTupleFromLevel l view).pos = (makeTupleFromLevel 0 view).pos.drop l := by
  simp only [makeTupleFromLevel]
  rw [← List.map_drop, List.drop_range', Nat.zero_add, Nat.mul_one, Nat.sub_zero]

/-- A node is in the g-nodes its own positions name, and in no other. -/
lemma iAmInside_iff : iAmInside g view = true ↔ g.pos.length ≤ view.levels ∧
    g.pos = (makeTupleFromLevel 0 view).pos.drop (view.levels - g.pos.length) := by
  have hlen : (makeTupleFromLevel 0 view).pos.length = view.levels := by
    rw [length_makeTupleFromLevel, Nat.sub_zero]
  rw [iAmInside, TupleGNode.contains, hlen]
  split_ifs with hshort
  · exact ⟨fun h => absurd h (by decide), fun h => absurd h.1 (not_le.mpr hshort)⟩
  · rw [List.all_eq_true]
    refine ⟨fun h => ⟨not_lt.mp hshort, List.ext_getElem? fun i => ?_⟩, ?_⟩
    · rw [List.getElem?_drop]
      cases hi : g.pos[i]? with
      | none =>
          rw [List.getElem?_eq_none_iff] at hi
          rw [eq_comm, List.getElem?_eq_none_iff, hlen]
          omega
      | some p =>
          have hsome := of_decide_eq_true (h (p, i) (List.mem_zipIdx_iff_getElem?.mpr hi))
          rw [Nat.add_comm]
          exact hsome
    · rintro ⟨-, hpos⟩ ⟨p, i⟩ hmem
      have hp : g.pos[i]? = some p := List.mem_zipIdx_iff_getElem?.mp hmem
      rw [hpos, List.getElem?_drop, Nat.add_comm] at hp
      exact decide_eq_true hp.symm

/-- My address is real when my name is. -/
lemma isReal_of_tupleHasVirtualPos
    (h : tupleHasVirtualPos (makeTupleFromLevel 0 view) view = false) : view.IsReal := by
  intro i hi
  have hlen : (makeTupleFromLevel 0 view).pos.length = view.levels := by
    rw [length_makeTupleFromLevel, Nat.sub_zero]
  rw [tupleHasVirtualPos, if_neg (by omega), List.any_eq_false] at h
  have hmem : (view.myPos i, i) ∈ (makeTupleFromLevel 0 view).pos.zipIdx := by
    rw [List.mem_zipIdx_iff_getElem?, makeTupleFromLevel, List.getElem?_map,
      List.getElem?_range' (by omega), Option.map_some, Nat.one_mul, Nat.zero_add]
  have hpos := h _ hmem
  rw [decide_eq_true_eq, not_le, hlen, Nat.sub_self, Nat.zero_add] at hpos
  exact hpos

/-- A name that my own positions spell is real when my address is. -/
lemma tupleHasVirtualPos_of_name (hreal : view.IsReal)
    (hname : g.pos = (makeTupleFromLevel k view).pos) : tupleHasVirtualPos g view = false := by
  have hlen : g.pos.length = view.levels - k := by rw [hname, length_makeTupleFromLevel]
  rw [tupleHasVirtualPos, if_neg (by omega), List.any_eq_false]
  rintro ⟨p, i⟩ hmem
  have hp : g.pos[i]? = some p := List.mem_zipIdx_iff_getElem?.mp hmem
  have hi : i < g.pos.length := (List.getElem?_eq_some_iff.mp hp).1
  rw [hname, makeTupleFromLevel, List.getElem?_map, List.getElem?_range' (by omega),
    Option.map_some, Option.some.injEq, Nat.one_mul] at hp
  rw [decide_eq_true_eq, not_le, ← hp, show view.levels - g.pos.length + i = k + i by omega]
  exact hreal _ (by omega)

end Names

end Netsukuku.Hooking
