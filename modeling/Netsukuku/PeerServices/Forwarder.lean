import Mathlib
import Netsukuku.PeerServices.Routing
import Netsukuku.PeerServices.TupleSpec

/-!
# What a forwarded message can make a relay do

A message to forward comes off the wire from anybody.  The decoder checks each field by itself;
`forward_msg` then combines them: the target with the scope of the originator, the excluded
tuples with the g-node elected.  Here is what the decoder lets through and which of it can reach a
panic, whatever the routing environment answers.

* `forwarderFromWire` — the decoder, from the message as the wire format has it.
* `forwardMsgWith` — `forward_msg` with the answers of the environment spelled out: which g-nodes
  exist, whether a gateway took the message, whether the originator can be dialled;
  `forwardMsgWith_eq_forwardMsg` — where those are an environment's, it is `forwardMsg`.
* `Fits` — when a g-node can be named at a scope; `makeTupleGnode_safe_iff` is why it is the right
  notion.
* `Named` — the g-nodes a message makes the relay name, under some view of the network.
* `safe_iff_namesFit` — no panic is reachable exactly when all of those fit.
-/

namespace Netsukuku

/-! ## The wire -/

/-- A g-node tuple on the wire. -/
structure WireTupleGNode where
  pos : List UInt32
  top : UInt32

/-- A forwarder on the wire, less its origin signature. -/
structure WireForwarder where
  insideLevel : UInt32
  n : Option (List UInt32)
  xMacron : Option (List UInt32)
  lvl : UInt32
  pos : UInt32
  pId : Int32
  msgId : Int32
  excludeTupleList : List WireTupleGNode
  nonParticipantTupleList : List WireTupleGNode

inductive WireError where
  | missingField (field : String)
  | tuple (e : TupleError)
  | levelOutOfRange (level levels : ℕ)
  | positionOutOfRange (level : ℕ) (pos gsize : UInt32)
  | serviceIdOutOfRange (id : UInt32)
  deriving DecidableEq, Repr

/-- `tuple_node_from_wire`. -/
def tupleNodeFromWire (t : Topology) (pos : List UInt32) : Outcome WireError TupleNode :=
  (TupleNode.new t pos).mapErr .tuple

/-- `tuple_gnode_from_wire`. -/
def tupleGnodeFromWire (t : Topology) (w : WireTupleGNode) : Outcome WireError TupleGNode :=
  (TupleGNode.new t w.top.toNat w.pos).mapErr .tuple

/-- `ServiceId::try_from`. -/
def serviceIdFromWire (id : Int32) : Outcome WireError ServiceId :=
  if 0 ≤ id.toInt ∧ id.toInt < 2 ^ 16 then .ok ⟨UInt16.ofNat id.toInt.toNat⟩
  else Outcome.fail (.serviceIdOutOfRange id.toUInt32)

/-- The required field `n`. -/
def originatorFromWire (t : Topology) : Option (List UInt32) → Outcome WireError TupleNode
  | some pos => tupleNodeFromWire t pos
  | none => Outcome.fail (.missingField "n")

/-- The optional field `x_macron`. -/
def xMacronFromWire (t : Topology) : Option (List UInt32) → Outcome WireError (Option TupleNode)
  | some pos => do
      let x ← tupleNodeFromWire t pos
      .ok (some x)
  | none => .ok none

/-- `forwarder_from_wire`. -/
def forwarderFromWire (t : Topology) (w : WireForwarder) :
    Outcome WireError PeerMessageForwarder := do
  let n ← originatorFromWire t w.n
  let xMacron ← xMacronFromWire t w.xMacron
  let excludeTupleList ← w.excludeTupleList.mapM (tupleGnodeFromWire t)
  let nonParticipantTupleList ← w.nonParticipantTupleList.mapM (tupleGnodeFromWire t)
  let lvl := w.lvl.toNat
  match t.gsize lvl with
  | none => Outcome.fail (.levelOutOfRange lvl t.levels)
  | some gsize =>
      if n.top ≤ lvl then Outcome.fail (.levelOutOfRange lvl n.top)
      else if gsize.toNat ≤ w.pos.toNat then Outcome.fail (.positionOutOfRange lvl w.pos gsize)
      else do
        let pId ← serviceIdFromWire w.pId
        .ok ⟨w.insideLevel.toNat, n, xMacron, lvl, w.pos, pId, w.msgId, excludeTupleList,
          nonParticipantTupleList⟩

/-- What the decoder guarantees. -/
structure Decoded (t : Topology) (mf : PeerMessageForwarder) : Prop where
  lvl_lt : mf.lvl < mf.n.top
  inRange : HCoord.InRange t ⟨mf.lvl, mf.pos⟩
  n_topology : mf.n.topology = t
  xMacron_topology : ∀ x, mf.xMacron = some x → x.topology = t
  excluded_topology : ∀ gn ∈ mf.excludeTupleList, gn.topology = t
  nonParticipant_topology : ∀ gn ∈ mf.nonParticipantTupleList, gn.topology = t

lemma topology_tupleNodeFromWire {t : Topology} {pos : List UInt32} {x : TupleNode}
    (h : tupleNodeFromWire t pos = .ok x) : x.topology = t :=
  (TupleNode.new_eq_ok.mp (Outcome.mapErr_eq_ok.mp h)).1

lemma topology_tupleGnodesFromWire {t : Topology} {ws : List WireTupleGNode}
    {gns : List TupleGNode} (h : ws.mapM (tupleGnodeFromWire t) = .ok gns) :
    ∀ gn ∈ gns, gn.topology = t := by
  intro gn hgn
  obtain ⟨w, -, hw⟩ := (Outcome.mem_of_mapM h gn).mp hgn
  exact (TupleGNode.new_eq_ok.mp (Outcome.mapErr_eq_ok.mp hw)).1

theorem decoded_forwarderFromWire {t : Topology} {w : WireForwarder} {mf : PeerMessageForwarder}
    (h : forwarderFromWire t w = .ok mf) : Decoded t mf := by
  obtain ⟨n, hn, h⟩ := Outcome.bind_eq_ok.mp h
  obtain ⟨xMacron, hx, h⟩ := Outcome.bind_eq_ok.mp h
  obtain ⟨excluded, hexcluded, h⟩ := Outcome.bind_eq_ok.mp h
  obtain ⟨nonParticipants, hnon, h⟩ := Outcome.bind_eq_ok.mp h
  simp only at h
  split at h
  · cases h
  rename_i gsize hgsize
  split at h
  · cases h
  rename_i hlvl
  split at h
  · cases h
  rename_i hpos
  obtain ⟨pId, -, h⟩ := Outcome.bind_eq_ok.mp h
  cases h
  refine
    { lvl_lt := not_le.mp hlvl
      inRange := ⟨gsize, hgsize, not_le.mp hpos⟩
      n_topology := ?_
      xMacron_topology := ?_
      excluded_topology := topology_tupleGnodesFromWire hexcluded
      nonParticipant_topology := topology_tupleGnodesFromWire hnon }
  · cases hw : w.n with
    | none => rw [hw] at hn; cases hn
    | some pos => rw [hw] at hn; exact topology_tupleNodeFromWire hn
  · rintro x rfl
    cases hw : w.xMacron with
    | none => rw [hw] at hx; cases hx
    | some pos =>
        rw [hw] at hx
        obtain ⟨y, hy, hx⟩ := Outcome.bind_eq_ok.mp hx
        cases hx
        exact topology_tupleNodeFromWire hy

/-! ## The environment's answers -/

variable {V : Type}

/-- One round of `forward_msg`'s loop, as the environment sees it. -/
structure RouteAnswers where
  gnodeExists : HCoord → Bool
  delivered : Bool

/-- What a node excludes for a message that has reached its g-node. -/
def forwardExcluded (p : PeerState V) (mf : PeerMessageForwarder) : Outcome Empty (List HCoord) := do
  let nonParticipants ← p.nonParticipantGnodes mf.pId mf.insideLevel
  let excluded ← mf.excludeTupleList.mapM (excludeInside p.topology p.myPos.positions)
  .ok (nonParticipants ++ excluded.flatten)

/-- What the originator is told, if it can be dialled. -/
def tellIf {α : Type} (dial : Bool) (message : Outcome Empty α) : Outcome Empty Unit :=
  if dial then do
    let _ ← message
    .ok ()
  else .ok ()

/-- One round: elect, then answer, serve or hand over.  True if `forward_msg` returns, false if it
tries again. -/
def forwardRound (p : PeerState V) (excluded : List HCoord) (mf : PeerMessageForwarder)
    (dial : Bool) (answers : RouteAnswers) : Outcome Empty Bool := do
  match ← approximate p.topology p.myPos.positions mf.xMacron excluded answers.gnodeExists with
  | none =>
      tellIf dial (makeTupleGnode p.topology p.myPos.positions ⟨mf.lvl, mf.pos⟩ mf.n.top)
      .ok true
  | some x =>
      let p₀ ← Outcome.index p.myPos.positions 0
      if x = ⟨0, p₀⟩ then
        tellIf dial (makeTupleNode p.topology p.myPos.positions ⟨0, p₀⟩ mf.n.top)
        .ok true
      else
        let _ ← cutXMacron p.topology mf.xMacron x.level
        let _ ← translateExcluded p.topology p.myPos.positions x mf.excludeTupleList
        let _ ← translateNonParticipants p.myPos.positions x mf.nonParticipantTupleList
        if answers.delivered then
          tellIf dial (makeTupleGnode p.topology p.myPos.positions x mf.n.top)
          .ok true
        else .ok false

/-- The rounds, as long as the environment answers. -/
def forwardRounds (p : PeerState V) (excluded : List HCoord) (mf : PeerMessageForwarder)
    (dial : Bool) : List RouteAnswers → Outcome Empty Unit
  | [] => .ok ()
  | answers :: rest => do
      if ← forwardRound p excluded mf dial answers then .ok ()
      else forwardRounds p excluded mf dial rest

/-- The message is relayed, or the originator is told that maps are missing here: no tuple is
built. -/
def Passed (p : PeerState V) (belowLevel : ℕ) (mf : PeerMessageForwarder) : Prop :=
  p.myPos.positions[mf.lvl]? ≠ some mf.pos ∨
    (p.isServiceOptional mf.pId = true ∧
      (mf.xMacron.any fun x => decide (belowLevel < x.top)) = true)

/-- Nobody in the g-node takes part in the service. -/
def Unserved (p : PeerState V) (mf : PeerMessageForwarder) : Prop :=
  p.isServiceOptional mf.pId = true ∧ p.gnodeParticipates mf.pId mf.lvl = false

/-- `forward_msg` under given answers of the environment. -/
def forwardMsgWith (p : PeerState V) (belowLevel : ℕ) (mf : PeerMessageForwarder) (dial : Bool)
    (answers : List RouteAnswers) : Outcome Empty Unit := do
  let mine ← Outcome.index p.myPos.positions mf.lvl
  if mine ≠ mf.pos then .ok ()
  else if p.isServiceOptional mf.pId ∧ mf.xMacron.any fun x => decide (belowLevel < x.top) then
    .ok ()
  else if p.isServiceOptional mf.pId ∧ p.gnodeParticipates mf.pId mf.lvl = false then
    tellIf dial (makeTupleGnode p.topology p.myPos.positions ⟨mf.lvl, mf.pos⟩ mf.n.top)
  else do
    let excluded ← forwardExcluded p mf
    forwardRounds p excluded mf dial answers

/-- **The two models of `forward_msg` agree.**  `forwardMsg` says what the first election makes of
the message; an originator that can be dialled is told just that, once the hand-over is taken. -/
theorem forwardMsgWith_eq_forwardMsg (p : PeerState V) (belowLevel : ℕ)
    (mf : PeerMessageForwarder) (gnodeExists : HCoord → Bool) (rest : List RouteAnswers) :
    forwardMsgWith p belowLevel mf true (⟨gnodeExists, true⟩ :: rest) =
      forwardMsg p belowLevel gnodeExists mf >>= fun _ => .ok () := by
  rw [forwardMsgWith, forwardMsg, bind_assoc]
  refine bind_congr fun mine => ?_
  split_ifs with hrelay hmaps hserved
  · rfl
  · rfl
  · rw [tellIf, if_pos rfl, bind_assoc]
    rfl
  · rw [forwardExcluded, forwardInside]
    simp only [bind_assoc, Outcome.ok_bind]
    refine bind_congr fun nonParticipants => bind_congr fun excluded => ?_
    rw [forwardRounds, forwardRound]
    simp only [bind_assoc]
    refine bind_congr fun elected => ?_
    cases elected with
    | none => simp only [tellIf, if_true, bind_assoc, Outcome.ok_bind]
    | some x =>
        simp only [bind_assoc]
        refine bind_congr fun p₀ => ?_
        split_ifs with hself
        · simp only [tellIf, if_true, bind_assoc, Outcome.ok_bind]
        · simp only [tellIf, if_true, bind_assoc, Outcome.ok_bind]

/-! ## Naming a g-node at a scope -/

/-- The g-node `h` of my map can be named at the scope `top`: it lies below, and its position and
mine above it are real. -/
structure Fits (t : Topology) (myPos : List UInt32) (h : HCoord) (top : ℕ) : Prop where
  level_lt : h.level < top
  inRange : InRange t h.level (h.pos :: (myPos.take top).drop (h.level + 1))

/-- Positions within the levels that are not in range are refused, without a panic. -/
lemma checkPositions_refuses (site : String) {t : Topology} {level : ℕ} {pos : List UInt32}
    (hlen : level + pos.length ≤ t.levels) (h : ¬ InRange t level pos) :
    ∃ e, checkPositions site t level pos = .error (.err e) := by
  induction pos generalizing level with
  | nil => exact absurd (fun i p hp => by cases hp) h
  | cons p pos ih =>
      rw [List.length_cons] at hlen
      obtain ⟨g, hg⟩ := t.exists_gsize (show level < t.levels by omega)
      rw [checkPositions, hg, Outcome.expect_some, Outcome.ok_bind]
      by_cases hp : g.toNat ≤ p.toNat
      · rw [if_pos hp]
        exact ⟨_, rfl⟩
      · rw [if_neg hp]
        refine ih (by omega) fun hpos => h ?_
        refine checkPositions_eq_ok.mp (?_ : checkPositions site t level (p :: pos) = _)
        rw [checkPositions, hg, Outcome.expect_some, Outcome.ok_bind, if_neg hp]
        exact checkPositions_eq_ok.mpr hpos

lemma TupleNode.new_refuses {t : Topology} {pos : List UInt32} (hlen : pos.length ≤ t.levels)
    (h : ¬ InRange t 0 pos) : ∃ e, TupleNode.new t pos = .error (.err e) := by
  obtain ⟨e, he⟩ := checkPositions_refuses "level < pos.len() <= topology.levels()"
    (by omega) h
  rw [TupleNode.new, if_neg (not_lt.mpr hlen)]
  split
  · next e' he' =>
      rw [he] at he'
      cases he'
      exact ⟨e, rfl⟩
  · next hok => rw [he] at hok; cases hok

lemma TupleGNode.new_refuses {t : Topology} {top : ℕ} {pos : List UInt32} (hne : pos ≠ [])
    (htop : top ≤ t.levels) (hlen : pos.length ≤ top) (h : ¬ InRange t (top - pos.length) pos) :
    ∃ e, TupleGNode.new t top pos = .error (.err e) := by
  obtain ⟨e, he⟩ := checkPositions_refuses "lvl < top <= topology.levels()"
    (by omega) h
  rw [TupleGNode.new, dif_neg hne, if_neg (not_lt.mpr htop), dif_neg (not_lt.mpr hlen)]
  split
  · next e' he' =>
      rw [he] at he'
      cases he'
      exact ⟨e, rfl⟩
  · next hok => rw [he] at hok; cases hok

section Naming

variable {t : Topology} {myPos : List UInt32} {h : HCoord} {top : ℕ}

/-- An address with real positions can name all its map has below the scope. -/
lemma Fits.of_real (hreal : InRange t 0 myPos) (hh : h.InRange t) (hlt : h.level < top) :
    Fits t myPos h top :=
  ⟨hlt, inRange_cons_above hreal hh⟩

lemma length_above (hlen : myPos.length = t.levels) (hle : top ≤ t.levels) (hlt : h.level < top) :
    (h.pos :: (myPos.take top).drop (h.level + 1)).length = top - h.level := by
  rw [List.length_cons, List.length_drop, List.length_take]
  omega

/-- `make_tuple_gnode` returns exactly when the g-node fits, and panics otherwise. -/
theorem makeTupleGnode_safe_iff (hlen : myPos.length = t.levels) (hle : top ≤ t.levels) :
    (makeTupleGnode t myPos h top).OverflowOnly ↔ Fits t myPos h top := by
  constructor
  · intro hsafe
    by_cases hlt : h.level < top
    · refine ⟨hlt, ?_⟩
      by_contra hrange
      have hlength := length_above hlen hle hlt
      obtain ⟨e, he⟩ := TupleGNode.new_refuses (List.cons_ne_nil _ _) hle
        (show (h.pos :: (myPos.take top).drop (h.level + 1)).length ≤ top by omega)
        (by rwa [hlength, Nat.sub_sub_self hlt.le])
      refine Outcome.OverflowOnly.not_of_panic
        "levels above h.level come from a valid address" ?_ (by decide) hsafe
      rw [makeTupleGnode, decide_eq_true hlt, Outcome.assert_true, Outcome.ok_bind,
        mapM_index_above hlt (by omega), Outcome.ok_bind, he]
      rfl
    · refine absurd hsafe (Outcome.OverflowOnly.not_of_panic
        "make_tuple_gnode: top must exceed h.level" ?_ (by decide))
      rw [makeTupleGnode, decide_eq_false hlt]
      rfl
  · intro hfits
    have hlength := length_above hlen hle hfits.level_lt
    have hlt := hfits.level_lt
    refine Outcome.OverflowOnly.of_eq_ok (a := ⟨t, top,
      h.pos :: (myPos.take top).drop (h.level + 1), List.cons_ne_nil _ _, by omega, ?_⟩) ?_
    · rw [hlength, Nat.sub_sub_self hlt.le]
      exact hfits.inRange
    · rw [makeTupleGnode, decide_eq_true hlt, Outcome.assert_true, Outcome.ok_bind,
        mapM_index_above hlt (by omega), Outcome.ok_bind]
      exact Outcome.unwrap_eq_ok.mpr (TupleGNode.new_eq_ok.mpr ⟨rfl, rfl, rfl⟩)

/-- A g-node that fits has a tuple that spans the scope: the zeros filled in below are always in
range. -/
lemma makeTupleNode_of_fits (hlen : myPos.length = t.levels) (hle : top ≤ t.levels)
    (hfits : Fits t myPos h top) : ∃ y, makeTupleNode t myPos h top = .ok y := by
  have hlt := hfits.level_lt
  refine ⟨⟨t, List.replicate h.level 0 ++ h.pos :: (myPos.take top).drop (h.level + 1), ?_⟩, ?_⟩
  · refine (inRange_replicate_zero (by omega)).append ?_
    rw [List.length_replicate, Nat.zero_add]
    exact hfits.inRange
  · rw [makeTupleNode, decide_eq_true hlt, Outcome.assert_true, Outcome.ok_bind,
      mapM_index_above hlt (by omega), Outcome.ok_bind]
    exact Outcome.unwrap_eq_ok.mpr (TupleNode.new_eq_ok.mpr ⟨rfl, rfl⟩)

/-- So does `make_tuple_node`. -/
theorem makeTupleNode_safe_iff (hlen : myPos.length = t.levels) (hle : top ≤ t.levels) :
    (makeTupleNode t myPos h top).OverflowOnly ↔ Fits t myPos h top := by
  constructor
  · intro hsafe
    by_cases hlt : h.level < top
    · refine ⟨hlt, ?_⟩
      by_contra hrange
      have hlength := length_above hlen hle hlt
      have hfull : (List.replicate h.level 0 ++
          h.pos :: (myPos.take top).drop (h.level + 1)).length ≤ t.levels := by
        rw [List.length_append, List.length_replicate, hlength]
        omega
      obtain ⟨e, he⟩ := TupleNode.new_refuses hfull
        (fun hin => hrange (by simpa using hin.drop h.level))
      refine Outcome.OverflowOnly.not_of_panic
        "levels above h.level come from a valid address" ?_ (by decide) hsafe
      rw [makeTupleNode, decide_eq_true hlt, Outcome.assert_true, Outcome.ok_bind,
        mapM_index_above hlt (by omega), Outcome.ok_bind, he]
      rfl
    · refine absurd hsafe (Outcome.OverflowOnly.not_of_panic
        "make_tuple_node: top must exceed h.level" ?_ (by decide))
      rw [makeTupleNode, decide_eq_false hlt]
      rfl
  · intro hfits
    obtain ⟨y, hy⟩ := makeTupleNode_of_fits hlen hle hfits
    exact Outcome.OverflowOnly.of_eq_ok hy

end Naming

/-! ## The election -/

section Election

variable {t : Topology} {myPos : List UInt32} {x : TupleNode} {excluded : List HCoord}

/-- A g-node the election weighs under some view of the network: one of my map below the target's
scope, or myself, that is not excluded. -/
structure Weighed (t : Topology) (myPos : List UInt32) (x : TupleNode) (excluded : List HCoord)
    (h : HCoord) : Prop where
  level_lt : h.level < x.top
  notMem : h ∉ excluded
  other_or_self : (h.InRange t ∧ myPos[h.level]? ≠ some h.pos) ∨
    (h.level = 0 ∧ myPos[0]? = some h.pos)

/-- Two tuples of one scope are compared without a panic, unless the distance overflows. -/
lemma dist_safe {y : TupleNode} (hx : x.topology = t) (hy : y.topology = t)
    (htop : x.top = y.top) : (dist t x y).OverflowOnly := by
  rw [dist, decide_eq_true htop, Outcome.assert_true, Outcome.ok_bind]
  refine Outcome.OverflowOnly.foldlM fun d level hlevel => ?_
  rw [List.mem_reverse, List.mem_range] at hlevel
  have hlevelx : level < x.positions.length := hlevel.trans_eq htop.symm
  have hle := y.top_le
  rw [hy] at hle
  obtain ⟨g, hg⟩ := t.exists_gsize (hlevel.trans_le hle)
  obtain ⟨g', hg', hlt⟩ := x.inRange level _ (List.getElem?_eq_getElem hlevelx)
  rw [hx, Nat.zero_add, hg] at hg'
  cases hg'
  rw [distStep, hg, Outcome.expect_some, Outcome.ok_bind, Outcome.index_of_lt hlevel,
    Outcome.ok_bind, Outcome.index_of_lt hlevelx, Outcome.ok_bind]
  refine Outcome.OverflowOnly.bind ?_ fun d' _ =>
    (Outcome.OverflowOnly.checkedMul _ _ _).bind fun scaled _ =>
      Outcome.OverflowOnly.checkedAdd _ _ _
  rw [distDigit]
  split
  · exact Outcome.OverflowOnly.ok _
  · exact Outcome.OverflowOnly.of_eq_ok (Outcome.checkedSub_of_le (by omega))

/-- A candidate is weighed without a panic other than its own tuple's. -/
lemma weigh_panicsOnly {sites : List String} (hsites : Outcome.overflowSites ⊆ sites)
    (hx : x.topology = t) {best : Option (HCoord × ℕ)} {h : HCoord}
    (hmake : (makeTupleNode t myPos h x.top).PanicsOnly sites) :
    (weigh t myPos x best h).PanicsOnly sites := by
  refine hmake.bind fun y hy => ?_
  refine ((dist_safe hx ?_ (top_makeTupleNode hy).symm).panicsOnly.mono hsites).bind fun d _ =>
    Outcome.PanicsOnly.ok _
  exact topology_makeTupleNode hy

/-- The election panics only where a tuple it weighs does. -/
theorem approximate_panicsOnly {sites : List String} (hsites : Outcome.overflowSites ⊆ sites)
    {xMacron : Option TupleNode} (hlen : myPos.length = t.levels)
    (hx : ∀ x, xMacron = some x → x.topology = t)
    (hmake : ∀ x, xMacron = some x → ∀ h, Weighed t myPos x excluded h →
      (makeTupleNode t myPos h x.top).PanicsOnly sites)
    (gnodeExists : HCoord → Bool) :
    (approximate t myPos xMacron excluded gnodeExists).PanicsOnly sites := by
  have hindex : 0 < myPos.length := hlen ▸ t.levels_pos
  rw [approximate]
  split
  next hnone =>
    rw [Outcome.index_of_lt hindex, Outcome.ok_bind]
    exact Outcome.PanicsOnly.ok _
  next x hsome =>
    obtain ⟨rfl, htop⟩ := Option.filter_eq_some_iff.mp hsome
    have htop : 0 < x.top := Nat.pos_of_ne_zero (of_decide_eq_true htop)
    have hxt := hx x rfl
    have hle : x.top ≤ t.levels := hxt ▸ x.top_le
    refine Outcome.PanicsOnly.bind ?_ fun best _ => ?_
    · refine Outcome.PanicsOnly.foldlM fun best level hlevel => ?_
      rw [List.mem_range] at hlevel
      obtain ⟨g, hg⟩ := t.exists_gsize (hlevel.trans_le hle)
      rw [approximateLevel, hg, Outcome.expect_some, Outcome.ok_bind]
      refine Outcome.PanicsOnly.foldlM fun best h hh => ?_
      obtain ⟨q, hq, rfl⟩ := List.mem_map.mp hh
      have hlt : level < myPos.length := by omega
      rw [approximateStep, Outcome.index_of_lt hlt, Outcome.ok_bind]
      split_ifs with hmine hskip
      · exact Outcome.PanicsOnly.ok _
      · exact Outcome.PanicsOnly.ok _
      · refine weigh_panicsOnly hsites hxt
          (hmake x rfl _ ⟨hlevel, fun hmem => hskip (.inl hmem), .inl ⟨?_, ?_⟩⟩)
        · exact HCoord.inRange_ofNat hg (List.mem_range.mp hq)
        · rw [List.getElem?_eq_getElem hlt]
          exact fun he => hmine (Option.some.inj he).symm
    · rw [Outcome.index_of_lt hindex, Outcome.ok_bind]
      split_ifs with hmem
      · exact Outcome.PanicsOnly.ok _
      · refine (weigh_panicsOnly hsites hxt
          (hmake x rfl _ ⟨htop, hmem, .inr ⟨rfl, ?_⟩⟩)).bind
            fun best _ => Outcome.PanicsOnly.ok _
        exact List.getElem?_eq_getElem hindex

/-- The election weighs nothing else, so it is safe if all it may weigh fits. -/
theorem approximate_safe {xMacron : Option TupleNode} (hlen : myPos.length = t.levels)
    (hx : ∀ x, xMacron = some x → x.topology = t)
    (hfits : ∀ x, xMacron = some x → ∀ h, Weighed t myPos x excluded h → Fits t myPos h x.top)
    (gnodeExists : HCoord → Bool) :
    (approximate t myPos xMacron excluded gnodeExists).OverflowOnly := by
  refine approximate_panicsOnly (List.Subset.refl _) hlen hx (fun x hsome h hw => ?_) gnodeExists
  have hle : x.top ≤ t.levels := hx x hsome ▸ x.top_le
  exact ((makeTupleNode_safe_iff hlen hle).mpr (hfits x hsome h hw)).panicsOnly

/-- Weighing a g-node a second time changes nothing. -/
lemma weigh_again {h : HCoord} {best best' : Option (HCoord × ℕ)}
    (hw : weigh t myPos x best h = .ok best') : weigh t myPos x best' h = .ok best' := by
  obtain ⟨y, hy, hw⟩ := Outcome.bind_eq_ok.mp hw
  obtain ⟨d, hd, hw⟩ := Outcome.bind_eq_ok.mp hw
  rw [weigh, hy, Outcome.ok_bind, hd, Outcome.ok_bind]
  split_ifs at hw with hcloser
  · cases hw
    simp
  · cases hw
    rw [if_neg hcloser]

/-- One position of the scan, when only `h` is known to exist. -/
lemma approximateStep_only {h h' : HCoord} (hlt : h'.level < myPos.length)
    (hne : h' ≠ h) (best : Option (HCoord × ℕ)) :
    approximateStep t myPos x excluded (fun k => decide (k = h)) best h' = .ok best := by
  rw [approximateStep, Outcome.index_of_lt hlt, Outcome.ok_bind]
  split_ifs with hmine hskip
  · rfl
  · rfl
  · exact absurd (.inr (decide_eq_false hne)) hskip

/-- One level of the scan then weighs `h`, if it is its level. -/
lemma approximateLevel_only {h : HCoord} {level : ℕ} (hlen : myPos.length = t.levels)
    (hl : level < t.levels) (hmem : h ∉ excluded) (hh : h.InRange t)
    (hother : myPos[h.level]? ≠ some h.pos) (best : Option (HCoord × ℕ)) :
    approximateLevel t myPos x excluded (fun k => decide (k = h)) best level =
      if level = h.level then weigh t myPos x best h else .ok best := by
  obtain ⟨g, hg⟩ := t.exists_gsize hl
  rw [approximateLevel, hg, Outcome.expect_some, Outcome.ok_bind]
  have hothers : ∀ k ∈ (List.range g.toNat).map fun p => (⟨level, UInt32.ofNat p⟩ : HCoord),
      k ≠ h → ∀ best,
        approximateStep t myPos x excluded (fun k => decide (k = h)) best k = .ok best := by
    intro k hk hne best
    obtain ⟨q, -, rfl⟩ := List.mem_map.mp hk
    exact approximateStep_only (show level < myPos.length by omega) hne best
  split_ifs with hsame
  · subst hsame
    obtain ⟨g', hg', hpos⟩ := hh
    rw [hg] at hg'
    cases hg'
    have hstep : ∀ best, approximateStep t myPos x excluded (fun k => decide (k = h)) best h =
        weigh t myPos x best h := by
      intro best
      have hlt : h.level < myPos.length := by omega
      rw [List.getElem?_eq_getElem hlt, Ne, Option.some_inj] at hother
      rw [approximateStep, Outcome.index_of_lt hlt, Outcome.ok_bind, if_neg (Ne.symm hother),
        if_neg (by simp [hmem])]
    rw [← hstep best]
    refine Outcome.foldlM_only hothers (fun best' hrun => ?_) ?_
    · rw [hstep] at hrun ⊢
      exact weigh_again hrun
    · exact List.mem_map.mpr ⟨h.pos.toNat, List.mem_range.mpr hpos, by rw [UInt32.ofNat_toNat]⟩
  · refine Outcome.foldlM_fixed fun k hk => hothers k hk ?_ best
    obtain ⟨q, -, rfl⟩ := List.mem_map.mp hk
    rintro rfl
    exact hsame rfl

/-- Under a view in which only `h` exists, the scan weighs `h` and nothing else. -/
lemma approximateOthers_only {h : HCoord} (hlen : myPos.length = t.levels)
    (hle : x.top ≤ t.levels) (hlt : h.level < x.top) (hmem : h ∉ excluded) (hh : h.InRange t)
    (hother : myPos[h.level]? ≠ some h.pos) :
    approximateOthers t myPos x excluded (fun k => decide (k = h)) = weigh t myPos x none h := by
  have hlevel : ∀ level ∈ List.range x.top, ∀ best,
      approximateLevel t myPos x excluded (fun k => decide (k = h)) best level =
        if level = h.level then weigh t myPos x best h else .ok best := fun level hl =>
    approximateLevel_only hlen ((List.mem_range.mp hl).trans_le hle) hmem hh hother
  have hmine := hlevel h.level (List.mem_range.mpr hlt)
  simp only [if_true] at hmine
  rw [approximateOthers, Outcome.foldlM_only _ _ (List.mem_range.mpr hlt), hmine]
  · intro level hl hne best
    rw [hlevel level hl, if_neg hne]
  · intro best hrun
    rw [hmine] at hrun ⊢
    exact weigh_again hrun

/-- Where nothing else exists, the scan finds nobody. -/
lemma approximateOthers_nobody (hlen : myPos.length = t.levels) (hle : x.top ≤ t.levels) :
    approximateOthers t myPos x excluded (fun _ => false) = .ok none := by
  refine Outcome.foldlM_fixed fun level hl => ?_
  rw [List.mem_range] at hl
  obtain ⟨g, hg⟩ := t.exists_gsize (hl.trans_le hle)
  rw [approximateLevel, hg, Outcome.expect_some, Outcome.ok_bind]
  refine Outcome.foldlM_fixed fun k hk => ?_
  obtain ⟨q, -, rfl⟩ := List.mem_map.mp hk
  rw [approximateStep, Outcome.index_of_lt (show level < myPos.length by omega), Outcome.ok_bind]
  split_ifs with hmine hskip
  · rfl
  · rfl
  · exact absurd (.inr rfl) hskip

/-- What the election may weigh, some view makes it weigh first; so it has to fit. -/
theorem fits_of_approximate_safe (hlen : myPos.length = t.levels) (hx : x.topology = t)
    (hsafe : ∀ gnodeExists, (approximate t myPos (some x) excluded gnodeExists).OverflowOnly)
    {h : HCoord} (hw : Weighed t myPos x excluded h) : Fits t myPos h x.top := by
  have hle : x.top ≤ t.levels := hx ▸ x.top_le
  have htop : 0 < x.top := hw.level_lt.pos
  have hindex : 0 < myPos.length := hlen ▸ t.levels_pos
  have hfilter : ((some x).filter fun y => decide (y.top ≠ 0)) = some x := by
    rw [Option.filter_some, if_pos (decide_eq_true htop.ne')]
  rw [← makeTupleNode_safe_iff hlen hle]
  intro site herror
  have hweigh : weigh t myPos x none h = .error (.panic site) := by
    rw [weigh, herror, Outcome.error_bind]
  rcases hw.other_or_self with ⟨hh, hother⟩ | ⟨hlevel, hself⟩
  · refine hsafe (fun k => decide (k = h)) site ?_
    rw [approximate, hfilter]
    simp only
    rw [approximateOthers_only hlen hle hw.level_lt hw.notMem hh hother, hweigh,
      Outcome.error_bind]
  · refine hsafe (fun _ => false) site ?_
    have hnone : approximateOthers t myPos x excluded (fun _ => false) = .ok none :=
      approximateOthers_nobody hlen hle
    obtain ⟨level, pos⟩ := h
    obtain rfl : level = 0 := hlevel
    rw [approximate, hfilter]
    simp only
    rw [hnone, Outcome.ok_bind, Outcome.index_eq_ok.mpr hself, Outcome.ok_bind, if_neg hw.notMem,
      hweigh, Outcome.error_bind]

end Election

/-! ## What the next hop is sent -/

section Translation

variable {t : Topology} {myPos : List UInt32} {x : HCoord}

lemma cutXMacron_ok {xMacron : Option TupleNode} {level : ℕ}
    (hx : ∀ x, xMacron = some x → x.topology = t)
    (hlevel : 0 < level → ∃ x, xMacron = some x ∧ level ≤ x.top) :
    ∃ r, cutXMacron t xMacron level = .ok r := by
  rw [cutXMacron]
  split_ifs with hpos
  · obtain ⟨x, rfl, hle⟩ := hlevel hpos
    have hxt := hx x rfl
    refine ⟨some ⟨t, x.positions.take level, hxt ▸ x.inRange.take level⟩, ?_⟩
    rw [Outcome.expect_some, Outcome.ok_bind, Outcome.slice_of_le (Nat.zero_le _) hle,
      Outcome.ok_bind, List.drop_zero]
    refine Outcome.bind_eq_ok.mpr ⟨_, Outcome.unwrap_eq_ok.mpr (TupleNode.new_eq_ok.mpr ?_), rfl⟩
    exact ⟨rfl, rfl⟩
  · exact ⟨none, rfl⟩

/-- A tuple hidden in the elected g-node starts strictly below it, so its prefix is a tuple. -/
lemma cutExcluded_ok {gn : TupleGNode} (hgn : gn.topology = t) (hlen : myPos.length = t.levels) :
    ∃ r, cutExcluded t myPos x gn = .ok r := by
  have htop : gn.top ≤ myPos.length := by
    rw [hlen, ← hgn]
    exact gn.top_le
  obtain ⟨⟨rel, ret⟩, hc⟩ := convertTupleGnode_ok htop
  rw [cutExcluded, hc, Outcome.ok_bind]
  simp only
  split_ifs with hhidden
  · obtain ⟨rfl, rfl⟩ := hhidden
    obtain ⟨offset, hlt, hlevel, hvisible, -, -, -⟩ := convertScan_parts hc (by decide)
    have hoffset : 0 < offset := by
      rcases Nat.eq_zero_or_pos offset with h0 | h0
      · cases hvisible h0
      · exact h0
    have hlength : (gn.positions.take offset).length = offset := by
      rw [List.length_take]
      omega
    rw [Outcome.checkedSub_of_le (by omega), Outcome.ok_bind, hlevel, Nat.add_sub_cancel_left,
      Outcome.slice_of_le (Nat.zero_le _) hlt.le, Outcome.ok_bind, List.drop_zero]
    refine ⟨some ⟨t, gn.level + offset, gn.positions.take offset, ?_, by omega, ?_⟩, ?_⟩
    · exact List.ne_nil_of_length_pos (by omega)
    · rw [hlength, Nat.add_sub_cancel]
      exact hgn ▸ gn.inRange.take offset
    · exact Outcome.bind_eq_ok.mpr
        ⟨_, Outcome.unwrap_eq_ok.mpr (TupleGNode.new_eq_ok.mpr ⟨rfl, rfl, rfl⟩), rfl⟩
  · exact ⟨none, rfl⟩

lemma visibleBySomeoneInsideMyGnode_ok {gn : TupleGNode} {lvl : ℕ} (htop : gn.top ≤ myPos.length) :
    ∃ r, visibleBySomeoneInsideMyGnode myPos gn lvl = .ok r := by
  have hlevel := gn.level_add_length
  rw [visibleBySomeoneInsideMyGnode]
  simp only
  generalize hl : (if lvl = 0 ∨ lvl - 1 ≤ gn.level then gn.level + 1 else lvl) = l
  have hgt : gn.level < l := by
    rw [← hl]
    split_ifs with hlow
    · exact Nat.lt_succ_self _
    · omega
  split_ifs with hout
  · exact ⟨true, rfl⟩
  · have hlength : (gn.positions.drop (l - gn.level)).length = gn.top - l := by
      rw [List.length_drop]
      omega
    have hrest : InRange gn.topology (gn.top - (gn.positions.drop (l - gn.level)).length)
        (gn.positions.drop (l - gn.level)) := by
      have hstart : gn.top - (gn.positions.drop (l - gn.level)).length =
          gn.level + (l - gn.level) := by omega
      rw [hstart]
      exact gn.inRange.drop _
    obtain ⟨y, hy⟩ : ∃ y, TupleGNode.new gn.topology gn.top (gn.positions.drop (l - gn.level)) =
        .ok y :=
      ⟨⟨gn.topology, gn.top, gn.positions.drop (l - gn.level), List.ne_nil_of_length_pos (by omega),
        by omega, hrest⟩, TupleGNode.new_eq_ok.mpr ⟨rfl, rfl, rfl⟩⟩
    have hytop : y.top ≤ myPos.length := by
      rw [(TupleGNode.new_eq_ok.mp hy).2.1]
      exact htop
    obtain ⟨r, hr⟩ := convertTupleGnode_ok hytop
    rw [Outcome.slice_of_le (by omega) (le_refl _), Outcome.ok_bind, List.take_length, hy,
      Outcome.unwrap_ok, Outcome.ok_bind, hr]
    exact ⟨_, rfl⟩

lemma allGnodesUpToLvl_ok {lvl : ℕ} (hlen : myPos.length = t.levels) :
    ∃ r, allGnodesUpToLvl t myPos lvl = .ok r := by
  have hindex : 0 < myPos.length := hlen ▸ t.levels_pos
  refine Outcome.bind_ok (Outcome.mapM_ok fun e he => ?_) fun others _ => ?_
  · obtain ⟨p, i⟩ := e
    have hi := (List.mem_zipIdx (List.mem_of_mem_take he)).2.1
    obtain ⟨g, hg⟩ := t.exists_gsize (show i < t.levels by omega)
    exact ⟨_, by rw [hg, Outcome.expect_some, Outcome.ok_bind]⟩
  · exact ⟨_, by rw [Outcome.index_of_lt hindex, Outcome.ok_bind]⟩

/-- What a node excludes for a message is computed without a panic. -/
lemma forwardExcluded_ok {p : PeerState V} {mf : PeerMessageForwarder}
    (hlen : p.myPos.positions.length = p.topology.levels)
    (hexcluded : ∀ gn ∈ mf.excludeTupleList, gn.topology = p.topology) :
    ∃ excluded, forwardExcluded p mf = .ok excluded := by
  have hindex : 0 < p.myPos.positions.length := hlen ▸ p.topology.levels_pos
  refine Outcome.bind_ok ?_ fun nonParticipants _ =>
    Outcome.bind_ok (Outcome.mapM_ok fun gn hgn => ?_) fun excluded _ => ⟨_, rfl⟩
  · rw [PeerState.nonParticipantGnodes]
    split_ifs
    · refine Outcome.bind_ok (allGnodesUpToLvl_ok hlen) fun all _ => ?_
      exact ⟨_, by rw [Outcome.index_of_lt hindex, Outcome.ok_bind]⟩
    · exact ⟨[], rfl⟩
  · have htop : gn.top ≤ p.myPos.positions.length := by
      rw [hlen, ← hexcluded gn hgn]
      exact gn.top_le
    refine Outcome.bind_ok (convertTupleGnode_ok htop) fun r _ => ?_
    obtain ⟨rel, ret⟩ := r
    cases rel with
    | mine => exact allGnodesUpToLvl_ok hlen
    | visible => exact ⟨[ret], rfl⟩
    | hidden => exact ⟨[], rfl⟩

end Translation

/-! ## The message as a whole -/

/-- The g-nodes a message makes the relay name, each with the scope it is named at, under some
view of the network. -/
inductive Named (p : PeerState V) (mf : PeerMessageForwarder) : HCoord → ℕ → Prop where
  /-- To say that nobody here takes part. -/
  | unserved (hserved : Unserved p mf) : Named p mf ⟨mf.lvl, mf.pos⟩ mf.n.top
  /-- To compare it with the target. -/
  | weighed {excluded : List HCoord} {x : TupleNode} {h : HCoord} (hserved : ¬ Unserved p mf)
      (hexcluded : forwardExcluded p mf = .ok excluded) (hx : mf.xMacron = some x)
      (hw : Weighed p.topology p.myPos.positions x excluded h) : Named p mf h x.top
  /-- To tell the originator who is asked next, or who serves. -/
  | elected {excluded : List HCoord} {h : HCoord} (gnodeExists : HCoord → Bool)
      (hserved : ¬ Unserved p mf) (hexcluded : forwardExcluded p mf = .ok excluded)
      (ha : approximate p.topology p.myPos.positions mf.xMacron excluded gnodeExists =
        .ok (some h)) : Named p mf h mf.n.top
  /-- To tell the originator that nobody is left to ask. -/
  | nobody {excluded : List HCoord} (gnodeExists : HCoord → Bool)
      (hserved : ¬ Unserved p mf) (hexcluded : forwardExcluded p mf = .ok excluded)
      (ha : approximate p.topology p.myPos.positions mf.xMacron excluded gnodeExists = .ok none) :
      Named p mf ⟨mf.lvl, mf.pos⟩ mf.n.top

/-- Every g-node the message makes the relay name fits the scope it is named at. -/
def NamesFit (p : PeerState V) (mf : PeerMessageForwarder) : Prop :=
  ∀ h top, Named p mf h top → Fits p.topology p.myPos.positions h top

lemma tellIf_safe {α : Type} {dial : Bool} {message : Outcome Empty α}
    (h : message.OverflowOnly) : (tellIf dial message).OverflowOnly := by
  rw [tellIf]
  split_ifs
  · exact h.bind fun _ _ => Outcome.OverflowOnly.ok ()
  · exact Outcome.OverflowOnly.ok ()

lemma safe_of_tellIf {α : Type} {message : Outcome Empty α}
    (h : (tellIf true message).OverflowOnly) : message.OverflowOnly := by
  rw [tellIf, if_pos rfl] at h
  exact h.of_bind

section Message

variable {p : PeerState V} {mf : PeerMessageForwarder} {belowLevel : ℕ}

/-- A message that is neither relayed nor refused for missing maps. -/
lemma forwardMsgWith_of_not_passed (hpassed : ¬ Passed p belowLevel mf) (dial : Bool)
    (answers : List RouteAnswers) :
    (Unserved p mf ∧ forwardMsgWith p belowLevel mf dial answers =
      tellIf dial (makeTupleGnode p.topology p.myPos.positions ⟨mf.lvl, mf.pos⟩ mf.n.top)) ∨
    (¬ Unserved p mf ∧ forwardMsgWith p belowLevel mf dial answers =
      forwardExcluded p mf >>= fun excluded => forwardRounds p excluded mf dial answers) := by
  rw [Passed, not_or, not_not] at hpassed
  obtain ⟨hmine, hmaps⟩ := hpassed
  rw [forwardMsgWith, Outcome.index_eq_ok.mpr hmine, Outcome.ok_bind, if_neg (not_not.mpr rfl),
    if_neg hmaps]
  by_cases hserved : Unserved p mf
  · exact .inl ⟨hserved, if_pos hserved⟩
  · exact .inr ⟨hserved, if_neg hserved⟩

/-- A message that is relayed or refused for missing maps names nothing. -/
lemma passed_safe (hlen : p.myPos.positions.length = p.topology.levels)
    (hdecoded : Decoded p.topology mf) (hpassed : Passed p belowLevel mf) (dial : Bool)
    (answers : List RouteAnswers) :
    (forwardMsgWith p belowLevel mf dial answers).OverflowOnly := by
  have hlt : mf.lvl < p.myPos.positions.length := by
    have hle := mf.n.top_le
    rw [hdecoded.n_topology, ← hlen] at hle
    exact hdecoded.lvl_lt.trans_le hle
  rw [forwardMsgWith, Outcome.index_of_lt hlt, Outcome.ok_bind]
  rcases hpassed with hmine | hmaps
  · rw [List.getElem?_eq_getElem hlt, Ne, Option.some_inj] at hmine
    rw [if_pos hmine]
    exact Outcome.OverflowOnly.ok ()
  · rw [if_pos hmaps, ite_self]
    exact Outcome.OverflowOnly.ok ()

/-- The parts of a hand-over that do not name the elected g-node never panic. -/
lemma translate_ok (hlen : p.myPos.positions.length = p.topology.levels)
    (hdecoded : Decoded p.topology mf) {excluded : List HCoord} {gnodeExists : HCoord → Bool}
    {x : HCoord}
    (ha : approximate p.topology p.myPos.positions mf.xMacron excluded gnodeExists =
      .ok (some x)) :
    (∃ r, cutXMacron p.topology mf.xMacron x.level = .ok r) ∧
      (∃ r, translateExcluded p.topology p.myPos.positions x mf.excludeTupleList = .ok r) ∧
      ∃ r, translateNonParticipants p.myPos.positions x mf.nonParticipantTupleList = .ok r := by
  refine ⟨cutXMacron_ok hdecoded.xMacron_topology fun hpos => ?_, ?_, ?_⟩
  · rcases (approximate_eq_some ha).2 with ⟨hzero, -⟩ | ⟨y, hy, hc⟩
    · omega
    · exact ⟨y, hy, hc.level_lt.le⟩
  · refine Outcome.bind_ok (Outcome.mapM_ok fun gn hgn => ?_) fun cuts _ => ⟨_, rfl⟩
    exact cutExcluded_ok (hdecoded.excluded_topology gn hgn) hlen
  · refine Outcome.bind_ok (Outcome.mapM_ok fun gn hgn => ?_) fun seen _ => ⟨_, rfl⟩
    refine visibleBySomeoneInsideMyGnode_ok ?_
    rw [hlen, ← hdecoded.nonParticipant_topology gn hgn]
    exact gn.top_le

/-- One round names only what `Named` lists. -/
lemma forwardRound_safe (hlen : p.myPos.positions.length = p.topology.levels)
    (hdecoded : Decoded p.topology mf) (hfit : NamesFit p mf) (hserved : ¬ Unserved p mf)
    {excluded : List HCoord} (hexcluded : forwardExcluded p mf = .ok excluded) (dial : Bool)
    (answers : RouteAnswers) : (forwardRound p excluded mf dial answers).OverflowOnly := by
  have hindex : 0 < p.myPos.positions.length := hlen ▸ p.topology.levels_pos
  have hn : mf.n.top ≤ p.topology.levels := hdecoded.n_topology ▸ mf.n.top_le
  refine Outcome.OverflowOnly.bind (approximate_safe hlen hdecoded.xMacron_topology
    (fun x hx h hw => hfit _ _ (.weighed hserved hexcluded hx hw)) _) fun x hx => ?_
  cases x with
  | none =>
      exact (tellIf_safe ((makeTupleGnode_safe_iff hlen hn).mpr
        (hfit _ _ (.nobody _ hserved hexcluded hx)))).bind fun _ _ => Outcome.OverflowOnly.ok _
  | some x =>
      have hfits := hfit _ _ (.elected _ hserved hexcluded hx)
      obtain ⟨⟨cut, hcut⟩, ⟨gns, hgns⟩, ⟨nons, hnons⟩⟩ := translate_ok hlen hdecoded hx
      simp only
      rw [Outcome.index_of_lt hindex, Outcome.ok_bind]
      by_cases hself : x = ⟨0, p.myPos.positions[0]⟩
      · rw [if_pos hself]
        rw [hself] at hfits
        exact (tellIf_safe ((makeTupleNode_safe_iff hlen hn).mpr hfits)).bind
          fun _ _ => Outcome.OverflowOnly.ok _
      · rw [if_neg hself, hcut, Outcome.ok_bind, hgns, Outcome.ok_bind, hnons, Outcome.ok_bind]
        split_ifs
        · exact (tellIf_safe ((makeTupleGnode_safe_iff hlen hn).mpr hfits)).bind
            fun _ _ => Outcome.OverflowOnly.ok _
        · exact Outcome.OverflowOnly.ok _

/-- So do all the rounds, by induction on the answers of the environment. -/
lemma forwardRounds_safe (hlen : p.myPos.positions.length = p.topology.levels)
    (hdecoded : Decoded p.topology mf) (hfit : NamesFit p mf) (hserved : ¬ Unserved p mf)
    {excluded : List HCoord} (hexcluded : forwardExcluded p mf = .ok excluded) (dial : Bool)
    (answers : List RouteAnswers) : (forwardRounds p excluded mf dial answers).OverflowOnly := by
  induction answers with
  | nil => exact Outcome.OverflowOnly.ok ()
  | cons a answers ih =>
      rw [forwardRounds]
      refine (forwardRound_safe hlen hdecoded hfit hserved hexcluded dial a).bind
        fun returned _ => ?_
      split_ifs
      · exact Outcome.OverflowOnly.ok ()
      · exact ih

/-- Conversely a g-node that is named in a round has to fit: the environment delivers the message,
and the originator can be dialled. -/
lemma fits_of_forwardRound_safe (hlen : p.myPos.positions.length = p.topology.levels)
    (hdecoded : Decoded p.topology mf) {excluded : List HCoord}
    (hsafe : ∀ answers, (forwardRound p excluded mf true answers).OverflowOnly)
    {gnodeExists : HCoord → Bool} {o : Option HCoord}
    (ha : approximate p.topology p.myPos.positions mf.xMacron excluded gnodeExists = .ok o) :
    Fits p.topology p.myPos.positions (o.getD ⟨mf.lvl, mf.pos⟩) mf.n.top := by
  have hindex : 0 < p.myPos.positions.length := hlen ▸ p.topology.levels_pos
  have hn : mf.n.top ≤ p.topology.levels := hdecoded.n_topology ▸ mf.n.top_le
  have hround := hsafe ⟨gnodeExists, true⟩
  rw [forwardRound, ha, Outcome.ok_bind] at hround
  cases o with
  | none => exact (makeTupleGnode_safe_iff hlen hn).mp (safe_of_tellIf hround.of_bind)
  | some x =>
      obtain ⟨⟨cut, hcut⟩, ⟨gns, hgns⟩, ⟨nons, hnons⟩⟩ := translate_ok hlen hdecoded ha
      simp only at hround
      rw [Outcome.index_of_lt hindex, Outcome.ok_bind] at hround
      by_cases hself : x = ⟨0, p.myPos.positions[0]⟩
      · rw [if_pos hself] at hround
        rw [Option.getD_some, hself]
        exact (makeTupleNode_safe_iff hlen hn).mp (safe_of_tellIf hround.of_bind)
      · rw [if_neg hself, hcut, Outcome.ok_bind, hgns, Outcome.ok_bind, hnons, Outcome.ok_bind,
          if_pos trivial] at hround
        exact (makeTupleGnode_safe_iff hlen hn).mp (safe_of_tellIf hround.of_bind)

/-- A message the decoder lets through reaches no assertion, `expect` or index out of range,
whatever the environment answers, exactly when it is passed on before the election or every g-node
it makes the relay name fits its scope. -/
theorem safe_iff_namesFit {w : WireForwarder} (hmine : p.myPos.topology = p.topology)
    (hw : forwarderFromWire p.topology w = .ok mf) :
    (∀ dial answers, (forwardMsgWith p belowLevel mf dial answers).OverflowOnly) ↔
      Passed p belowLevel mf ∨ NamesFit p mf := by
  have hdecoded := decoded_forwarderFromWire hw
  have hlen : p.myPos.positions.length = p.topology.levels := hmine ▸ p.myPos.length_positions
  have hn : mf.n.top ≤ p.topology.levels := hdecoded.n_topology ▸ mf.n.top_le
  obtain ⟨excluded, hexcluded⟩ := forwardExcluded_ok hlen hdecoded.excluded_topology
  constructor
  · intro hsafe
    by_cases hpassed : Passed p belowLevel mf
    · exact .inl hpassed
    have hround : ¬ Unserved p mf →
        ∀ dial answers, (forwardRound p excluded mf dial answers).OverflowOnly := by
      intro hserved dial answers
      rcases forwardMsgWith_of_not_passed hpassed dial [answers] with ⟨h, -⟩ | ⟨-, heq⟩
      · exact absurd h hserved
      · have := hsafe dial [answers]
        rw [heq, hexcluded, Outcome.ok_bind, forwardRounds] at this
        exact this.of_bind
    refine .inr fun h top hnamed => ?_
    cases hnamed with
    | unserved hserved =>
        rcases forwardMsgWith_of_not_passed hpassed true [] with ⟨-, heq⟩ | ⟨hserves, -⟩
        · have := hsafe true []
          rw [heq] at this
          exact (makeTupleGnode_safe_iff hlen hn).mp (safe_of_tellIf this)
        · exact absurd hserved hserves
    | weighed hserved hexcluded' hx hweighed =>
        rw [hexcluded] at hexcluded'
        cases hexcluded'
        refine fits_of_approximate_safe hlen (hdecoded.xMacron_topology _ hx)
          (fun gnodeExists => ?_) hweighed
        rw [← hx]
        exact (hround hserved true ⟨gnodeExists, true⟩).of_bind
    | elected gnodeExists hserved hexcluded' ha =>
        rw [hexcluded] at hexcluded'
        cases hexcluded'
        exact fits_of_forwardRound_safe hlen hdecoded (hround hserved true) ha
    | nobody gnodeExists hserved hexcluded' ha =>
        rw [hexcluded] at hexcluded'
        cases hexcluded'
        exact fits_of_forwardRound_safe hlen hdecoded (hround hserved true) ha
  · rintro h dial answers
    by_cases hpassed : Passed p belowLevel mf
    · exact passed_safe hlen hdecoded hpassed dial answers
    have hfit := h.resolve_left hpassed
    rcases forwardMsgWith_of_not_passed hpassed dial answers with ⟨hserved, heq⟩ | ⟨hserved, heq⟩
    · rw [heq]
      exact tellIf_safe ((makeTupleGnode_safe_iff hlen hn).mpr (hfit _ _ (.unserved hserved)))
    · rw [heq, hexcluded, Outcome.ok_bind]
      exact forwardRounds_safe hlen hdecoded hfit hserved hexcluded dial answers

end Message

end Netsukuku
