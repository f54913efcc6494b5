import Mathlib
import Netsukuku.Common.Address

/-!
# Position tuples and the key-to-node mapping

A peer service routes towards an address by tuples of positions that span only part of the levels:
a `TupleNode` the levels `0..top`, a `TupleGNode` the levels `level..top`.  As a message goes
deeper into the hierarchy, a target is cut to the scope of the g-node it has reached.

* `makeTupleNode`, `makeTupleGnode`, `rebaseTupleNode`, … — moving a tuple between scopes.
* `convertTupleGnode` — how a g-node tuple relates to my own address.
* `dist` — the one-directional distance from a target, the highest level weighing most.
* `approximate` — the g-node I know of that is closest to the target.

Every function that asserts, indexes or does arithmetic on machine integers can panic, and says so
in its type.
-/

namespace Netsukuku

/-- Why a tuple could not be built. -/
inductive TupleError where
  | topOutOfRange (top levels : ℕ)
  | positionOutOfRange (level : ℕ) (pos gsize : UInt32)
  | emptyGNodeTuple
  | gNodeTupleTooLong (len top : ℕ)
  deriving DecidableEq, Repr

/-- The positions of the levels from `level` on, each below the size of its g-node. -/
def InRange (t : Topology) (level : ℕ) (pos : List UInt32) : Prop :=
  ∀ i p, pos[i]? = some p → ∃ g, t.gsize (level + i) = some g ∧ p.toNat < g.toNat

/-- The check of both constructors, from `level` on. -/
def checkPositions (site : String) (t : Topology) : ℕ → List UInt32 → Outcome TupleError Unit
  | _, [] => .ok ()
  | level, p :: pos => do
      let gsize ← Outcome.expect site (t.gsize level)
      if gsize.toNat ≤ p.toNat then Outcome.fail (.positionOutOfRange level p gsize)
      else checkPositions site t (level + 1) pos

lemma checkPositions_eq_ok {site : String} {t : Topology} {level : ℕ} {pos : List UInt32} :
    checkPositions site t level pos = .ok () ↔ InRange t level pos := by
  induction pos generalizing level with
  | nil => simp [checkPositions, InRange]
  | cons p pos ih =>
      rw [checkPositions]
      constructor
      · intro h i q hq
        obtain ⟨g, hg, h⟩ := Outcome.bind_eq_ok.mp h
        by_cases hle : g.toNat ≤ p.toNat
        · rw [if_pos hle] at h
          cases h
        rw [if_neg hle] at h
        cases i with
        | zero =>
            cases hq
            exact ⟨g, Outcome.expect_eq_ok.mp hg, not_le.mp hle⟩
        | succ i =>
            obtain ⟨g', hg', hlt⟩ := ih.mp h i q hq
            exact ⟨g', by rw [← hg', Nat.add_right_comm, Nat.add_assoc], hlt⟩
      · intro h
        obtain ⟨g, hg, hlt⟩ := h 0 p rfl
        rw [Nat.add_zero] at hg
        rw [hg, Outcome.expect_some, Outcome.ok_bind, if_neg (not_le.mpr hlt)]
        refine ih.mpr fun i q hq => ?_
        obtain ⟨g', hg', hlt'⟩ := h (i + 1) q hq
        exact ⟨g', by rw [← hg', Nat.add_assoc, Nat.add_comm 1], hlt'⟩

/-- A node, by its positions at the levels below `top`. -/
structure TupleNode where
  topology : Topology
  positions : List UInt32
  inRange : InRange topology 0 positions

namespace TupleNode

def top (x : TupleNode) : ℕ := x.positions.length

/-- `TupleNode::new`. -/
def new (t : Topology) (pos : List UInt32) : Outcome TupleError TupleNode :=
  if t.levels < pos.length then Outcome.fail (.topOutOfRange pos.length t.levels)
  else
    match h : checkPositions "level < pos.len() <= topology.levels()" t 0 pos with
    | .error e => .error e
    | .ok () => .ok ⟨t, pos, checkPositions_eq_ok.mp h⟩

end TupleNode

/-- A g-node, by its positions at the levels from its own up to `top`. -/
structure TupleGNode where
  topology : Topology
  top : ℕ
  positions : List UInt32
  nonempty : positions ≠ []
  length_le : positions.length ≤ top
  inRange : InRange topology (top - positions.length) positions

namespace TupleGNode

def level (x : TupleGNode) : ℕ := x.top - x.positions.length

/-- `TupleGNode::new`. -/
def new (t : Topology) (top : ℕ) (pos : List UInt32) : Outcome TupleError TupleGNode :=
  if hne : pos = [] then Outcome.fail .emptyGNodeTuple
  else if t.levels < top then Outcome.fail (.topOutOfRange top t.levels)
  else if hlen : top < pos.length then Outcome.fail (.gNodeTupleTooLong pos.length top)
  else
    match h : checkPositions "lvl < top <= topology.levels()" t (top - pos.length) pos with
    | .error e => .error e
    | .ok () => .ok ⟨t, top, pos, hne, not_lt.mp hlen, checkPositions_eq_ok.mp h⟩

end TupleGNode

/-! ## Moving between scopes -/

/-- `make_tuple_node`: the g-node `h` of mine, filled with zeros below its level. -/
def makeTupleNode (t : Topology) (myPos : List UInt32) (h : HCoord) (top : ℕ) :
    Outcome Empty TupleNode := do
  Outcome.assert "make_tuple_node: top must exceed h.level" (decide (h.level < top))
  let above ← (List.range' (h.level + 1) (top - (h.level + 1))).mapM (Outcome.index myPos)
  Outcome.unwrap "levels above h.level come from a valid address"
    (TupleNode.new t (List.replicate h.level 0 ++ h.pos :: above))

/-- `make_tuple_gnode`. -/
def makeTupleGnode (t : Topology) (myPos : List UInt32) (h : HCoord) (top : ℕ) :
    Outcome Empty TupleGNode := do
  Outcome.assert "make_tuple_gnode: top must exceed h.level" (decide (h.level < top))
  let above ← (List.range' (h.level + 1) (top - (h.level + 1))).mapM (Outcome.index myPos)
  Outcome.unwrap "levels above h.level come from a valid address"
    (TupleGNode.new t top (h.pos :: above))

/-- How a g-node tuple relates to my own address. -/
inductive GNodeRelation where
  | mine
  | visible
  | hidden
  deriving DecidableEq, Repr

/-- The scan of `convert_tuple_gnode`, from offset `n - 1` down to 0. -/
def convertScan (myPos : List UInt32) (level : ℕ) (tuple : List UInt32) :
    ℕ → Outcome Empty (GNodeRelation × HCoord)
  | 0 => do
      let p ← Outcome.index tuple 0
      .ok (.mine, ⟨level, p⟩)
  | offset + 1 => do
      let mine ← Outcome.index myPos (level + offset)
      let theirs ← Outcome.index tuple offset
      if mine ≠ theirs then
        .ok (if offset = 0 then .visible else .hidden, ⟨level + offset, theirs⟩)
      else convertScan myPos level tuple offset

/-- `convert_tuple_gnode`: the relation of `x` to my address, and the g-node of my map that
contains it. -/
def convertTupleGnode (myPos : List UInt32) (x : TupleGNode) :
    Outcome Empty (GNodeRelation × HCoord) :=
  convertScan myPos x.level x.positions x.positions.length

/-- `tuple_node_to_tuple_gnode`. -/
def tupleNodeToTupleGnode (x : TupleNode) : Outcome Empty TupleGNode :=
  Outcome.unwrap "a valid TupleNode is a valid level-0 TupleGNode"
    (TupleGNode.new x.topology x.top x.positions)

/-- `rebase_tuple_gnode`: the levels up to `newTop` are filled with my own positions. -/
def rebaseTupleGnode (myPos : List UInt32) (x : TupleGNode) (newTop : ℕ) :
    Outcome Empty TupleGNode := do
  Outcome.assert "rebase_tuple_gnode: new_top must not shrink the scope" (decide (x.top ≤ newTop))
  let above ← Outcome.slice myPos x.top newTop
  Outcome.unwrap "extension uses valid positions"
    (TupleGNode.new x.topology newTop (x.positions ++ above))

/-- `rebase_tuple_node`. -/
def rebaseTupleNode (myPos : List UInt32) (x : TupleNode) (newTop : ℕ) :
    Outcome Empty TupleNode := do
  Outcome.assert "rebase_tuple_node: new_top must not shrink the scope" (decide (x.top ≤ newTop))
  let above ← Outcome.slice myPos x.top newTop
  Outcome.unwrap "extension uses valid positions"
    (TupleNode.new x.topology (x.positions ++ above))

/-- `tuple_gnode_containing`: the ancestor of `x` at `newLevel`; there is none at or beyond the
scope. -/
def tupleGnodeContaining (x : TupleGNode) (newLevel : ℕ) : Outcome TupleError TupleGNode := do
  Outcome.assert "tuple_gnode_containing: new_level must not be deeper than t"
    (decide (x.level ≤ newLevel))
  let remove := min (newLevel - x.level) x.positions.length
  TupleGNode.new x.topology x.top (x.positions.drop remove)

/-- `visible_by_someone_inside_my_gnode`. -/
def visibleBySomeoneInsideMyGnode (myPos : List UInt32) (x : TupleGNode) (lvl : ℕ) :
    Outcome Empty Bool := do
  let l := if lvl = 0 ∨ lvl - 1 ≤ x.level then x.level + 1 else lvl
  if x.top ≤ l then .ok true
  else
    let rest ← Outcome.slice x.positions (l - x.level) x.positions.length
    let h ← Outcome.unwrap "a suffix of a valid tuple is valid"
      (TupleGNode.new x.topology x.top rest)
    let (relation, _) ← convertTupleGnode myPos h
    .ok (decide (relation = .mine))

/-- `all_gnodes_up_to_lvl`: every g-node visible inside my g-node at `lvl`, and myself. -/
def allGnodesUpToLvl (t : Topology) (myPos : List UInt32) (lvl : ℕ) :
    Outcome Empty (List HCoord) := do
  let others ← (myPos.zipIdx.take lvl).mapM fun e => do
    let gsize ← Outcome.expect "level < lvl <= topology.levels()" (t.gsize e.2)
    .ok (((List.range gsize.toNat).filter fun p => decide (p ≠ e.1.toNat)).map fun p =>
      (⟨e.2, UInt32.ofNat p⟩ : HCoord))
  let p₀ ← Outcome.index myPos 0
  .ok (others.flatten ++ [⟨0, p₀⟩])

/-! ## Distance and election -/

/-- How far `xj` is past `xbarj` on the ring of its level. -/
def distDigit (gsize xj xbarj : ℕ) : Outcome Empty ℕ :=
  if xbarj ≤ xj then .ok (xj - xbarj) else Outcome.checkedSub (xj + gsize) xbarj

/-- One level of `dist`. -/
def distStep (t : Topology) (xMacron x : TupleNode) (distance level : ℕ) : Outcome Empty ℕ := do
  let gsize ← Outcome.expect "level < x.top() <= topology.levels()" (t.gsize level)
  let xj ← Outcome.index x.positions level
  let xbarj ← Outcome.index xMacron.positions level
  let d ← distDigit gsize.toNat xj.toNat xbarj.toNat
  let scaled ← Outcome.checkedMul 128 distance gsize.toNat
  Outcome.checkedAdd 128 scaled d

/-- `dist`: from the highest level down. -/
def dist (t : Topology) (xMacron x : TupleNode) : Outcome Empty ℕ := do
  Outcome.assert "dist: tuples must span the same levels" (decide (xMacron.top = x.top))
  (List.range x.top).reverse.foldlM (distStep t xMacron x) 0

/-- Weighs one candidate against the best so far. -/
def weigh (t : Topology) (myPos : List UInt32) (xMacron : TupleNode) (best : Option (HCoord × ℕ))
    (h : HCoord) : Outcome Empty (Option (HCoord × ℕ)) := do
  let x ← makeTupleNode t myPos h xMacron.top
  let d ← dist t xMacron x
  .ok (if best.all fun b => decide (d < b.2) then some (h, d) else best)

/-- One position of the scan of `approximate`. -/
def approximateStep (t : Topology) (myPos : List UInt32) (xMacron : TupleNode)
    (excludeList : List HCoord) (gnodeExists : HCoord → Bool) (best : Option (HCoord × ℕ))
    (h : HCoord) : Outcome Empty (Option (HCoord × ℕ)) := do
  let mine ← Outcome.index myPos h.level
  if h.pos = mine then .ok best
  else if h ∈ excludeList ∨ gnodeExists h = false then .ok best
  else weigh t myPos xMacron best h

/-- One level of the scan of `approximate`. -/
def approximateLevel (t : Topology) (myPos : List UInt32) (xMacron : TupleNode)
    (excludeList : List HCoord) (gnodeExists : HCoord → Bool) (best : Option (HCoord × ℕ))
    (level : ℕ) : Outcome Empty (Option (HCoord × ℕ)) := do
  let gsize ← Outcome.expect "level < valid_levels <= topology.levels()" (t.gsize level)
  ((List.range gsize.toNat).map fun p => (⟨level, UInt32.ofNat p⟩ : HCoord)).foldlM
    (approximateStep t myPos xMacron excludeList gnodeExists) best

/-- The scan of `approximate` over the levels of the target. -/
def approximateOthers (t : Topology) (myPos : List UInt32) (xMacron : TupleNode)
    (excludeList : List HCoord) (gnodeExists : HCoord → Bool) :
    Outcome Empty (Option (HCoord × ℕ)) :=
  (List.range xMacron.top).foldlM (approximateLevel t myPos xMacron excludeList gnodeExists) none

/-- `approximate`: the g-node of my map, or myself, that is closest to the target and not
excluded.  Without a target, or with an empty one, only myself. -/
def approximate (t : Topology) (myPos : List UInt32) (xMacron : Option TupleNode)
    (excludeList : List HCoord) (gnodeExists : HCoord → Bool) :
    Outcome Empty (Option HCoord) := do
  match xMacron.filter fun x => decide (x.top ≠ 0) with
  | none =>
      let p₀ ← Outcome.index myPos 0
      .ok (if (⟨0, p₀⟩ : HCoord) ∈ excludeList then none else some ⟨0, p₀⟩)
  | some x =>
      let best ← approximateOthers t myPos x excludeList gnodeExists
      let p₀ ← Outcome.index myPos 0
      if (⟨0, p₀⟩ : HCoord) ∈ excludeList then .ok (best.map Prod.fst)
      else
        let best ← weigh t myPos x best ⟨0, p₀⟩
        .ok (best.map Prod.fst)

end Netsukuku
