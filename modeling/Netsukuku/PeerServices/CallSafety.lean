import Mathlib
import Netsukuku.PeerServices.Exclusion
import Netsukuku.PeerServices.Waiting
import Netsukuku.PeerServices.Forwarder

/-!
# What a peer can make a caller do

The commands about a search come off the wire from anybody who knows its message id.  The decoder
checks each tuple by itself, the actor lets one through only if it is of the scope of the search,
and `contact_peer` asserts, indexes and slices on what is left.  Together the checks suffice.

* `peerCallFromWire` — the decoder, one arm a command.
* `Caller.CanPanic` — the panics a call can reach where it stands.
* `Scoped` — the tuples of an event are of one topology and one scope.
* `CallInScope` — the invariant: the attempt and the channel of a call are of the scope the actor
  checks, and a respondant is known before an answer is taken.
* `contactPeer_sites_unreachable` — none of the panic sites of `contact_peer` is reached.
-/

namespace Netsukuku

variable {V : Type}

/-! ## The wire -/

/-- A command about a search on the wire, less its message id. -/
inductive WirePeerCall (V : Type) where
  | getRequest (respondant : Option (List UInt32))
  | setResponse (response : Option V) (respondant : Option (List UInt32))
  | setRefuseMessage (refuseMessage : String) (eLvl : Int32) (respondant : Option (List UInt32))
  | setRedoFromStart (respondant : Option (List UInt32))
  | setNextDestination (tuple : Option WireTupleGNode)
  | setFailure (tuple : Option WireTupleGNode)
  | setNonParticipant (tuple : Option WireTupleGNode)
  | setMissingOptionalMaps

inductive CallError where
  | malformed (message : String)
  | decode (e : WireError)
  deriving DecidableEq, Repr

/-- `require_tuple_node`. -/
def requireTupleNode (t : Topology) : Option (List UInt32) → Outcome CallError TupleNode
  | none => Outcome.fail (.malformed "missing respondant")
  | some pos => (tupleNodeFromWire t pos).mapErr .decode

/-- `require_tuple_gnode`. -/
def requireTupleGnode (t : Topology) : Option WireTupleGNode → Outcome CallError TupleGNode
  | none => Outcome.fail (.malformed "missing tuple")
  | some w => (tupleGnodeFromWire t w).mapErr .decode

/-- The refused level: one of the scope of the respondant. -/
def refusedLevel (respondant : TupleNode) (eLvl : Int32) : Outcome CallError ℕ :=
  if eLvl.toInt < 0 then Outcome.fail (.malformed "e_lvl out of range")
  else if respondant.top ≤ eLvl.toInt.toNat then
    Outcome.fail (.decode (.levelOutOfRange eLvl.toInt.toNat respondant.top))
  else .ok eLvl.toInt.toNat

/-- The arms of the handler that report about a search. -/
def peerCallFromWire (t : Topology) : WirePeerCall V → Outcome CallError (PeerCall V)
  | .getRequest respondant => do
      let respondant ← requireTupleNode t respondant
      .ok (.getRequest respondant)
  | .setResponse none _ => Outcome.fail (.malformed "PeersSetResponseArgs.response unset")
  | .setResponse (some response) respondant => do
      let respondant ← requireTupleNode t respondant
      .ok (.setResponse response respondant)
  | .setRefuseMessage refuseMessage eLvl respondant => do
      let respondant ← requireTupleNode t respondant
      let level ← refusedLevel respondant eLvl
      .ok (.setRefuseMessage ⟨level, refuseMessage⟩ respondant)
  | .setRedoFromStart respondant => do
      let respondant ← requireTupleNode t respondant
      .ok (.setRedoFromStart respondant)
  | .setNextDestination tuple => do
      let tuple ← requireTupleGnode t tuple
      .ok (.setNextDestination tuple)
  | .setFailure tuple => do
      let tuple ← requireTupleGnode t tuple
      .ok (.setFailure tuple)
  | .setNonParticipant tuple => do
      let tuple ← requireTupleGnode t tuple
      .ok (.setNonParticipant tuple)
  | .setMissingOptionalMaps => .ok .setMissingOptionalMaps

/-- The tuples of a report are tuples of the topology. -/
def PeerCall.Over (t : Topology) : PeerCall V → Prop
  | .getRequest respondant | .setResponse _ respondant | .setRefuseMessage _ respondant
  | .setRedoFromStart respondant => respondant.topology = t
  | .setNextDestination tuple | .setFailure tuple | .setNonParticipant tuple => tuple.topology = t
  | .setMissingOptionalMaps => True

section Wire

variable {t : Topology}

lemma topology_requireTupleNode {o : Option (List UInt32)} {x : TupleNode}
    (h : requireTupleNode t o = .ok x) : x.topology = t := by
  cases o with
  | none => cases h
  | some pos => exact topology_tupleNodeFromWire (Outcome.mapErr_eq_ok.mp h)

lemma topology_requireTupleGnode {o : Option WireTupleGNode} {x : TupleGNode}
    (h : requireTupleGnode t o = .ok x) : x.topology = t := by
  cases o with
  | none => cases h
  | some w =>
      exact (TupleGNode.new_eq_ok.mp (Outcome.mapErr_eq_ok.mp (Outcome.mapErr_eq_ok.mp h))).1

/-- What the decoder lets through is of the topology. -/
lemma over_peerCallFromWire {w : WirePeerCall V} {c : PeerCall V}
    (h : peerCallFromWire t w = .ok c) : c.Over t := by
  cases w with
  | getRequest respondant =>
      obtain ⟨r, hr, h⟩ := Outcome.bind_eq_ok.mp h
      cases h
      exact topology_requireTupleNode hr
  | setResponse response respondant =>
      cases response with
      | none => cases h
      | some v =>
          obtain ⟨r, hr, h⟩ := Outcome.bind_eq_ok.mp h
          cases h
          exact topology_requireTupleNode hr
  | setRefuseMessage refuseMessage eLvl respondant =>
      obtain ⟨r, hr, h⟩ := Outcome.bind_eq_ok.mp h
      obtain ⟨level, -, h⟩ := Outcome.bind_eq_ok.mp h
      cases h
      exact topology_requireTupleNode hr
  | setRedoFromStart respondant =>
      obtain ⟨r, hr, h⟩ := Outcome.bind_eq_ok.mp h
      cases h
      exact topology_requireTupleNode hr
  | setNextDestination tuple =>
      obtain ⟨x, hx, h⟩ := Outcome.bind_eq_ok.mp h
      cases h
      exact topology_requireTupleGnode hx
  | setFailure tuple =>
      obtain ⟨x, hx, h⟩ := Outcome.bind_eq_ok.mp h
      cases h
      exact topology_requireTupleGnode hx
  | setNonParticipant tuple =>
      obtain ⟨x, hx, h⟩ := Outcome.bind_eq_ok.mp h
      cases h
      exact topology_requireTupleGnode hx
  | setMissingOptionalMaps =>
      cases h
      trivial

end Wire

/-- Reports arrive only as the decoder lets them through; everything else is open. -/
def wireWorld (V : Type) : World V where
  command k c := ∀ msgId report, c = .call msgId report →
    ∃ w, peerCallFromWire k.state.topology w = .ok report
  draws _ _ := True
  serves _ _ _ := True

/-! ## The panics of a call -/

/-- The panic sites of `contact_peer` and of what it calls on the tuples of a peer. -/
def contactPeerSites : List String :=
  ["a Response only follows a registered respondant",
    "rebase_tuple_gnode: new_top must not shrink the scope",
    "rebase_tuple_node: new_top must not shrink the scope",
    "tuple_gnode_containing: new_level must not be deeper than t",
    "a valid TupleNode is a valid level-0 TupleGNode",
    "x.level > 0 implies x_macron is Some",
    "prefix of a valid tuple is valid",
    "a suffix of a valid tuple is valid",
    "attempt to subtract with overflow",
    "range end index out of range",
    "index out of bounds"]

/-- The sites where only the address of the node itself decides. -/
def addressSites : List String :=
  ["levels above h.level come from a valid address", "extension uses valid positions"]

/-- What is left: an overflow, or a virtual position in the address of the node. -/
def callerSites (n : Naddr) : List String :=
  if n.IsReal then Outcome.overflowSites else Outcome.overflowSites ++ addressSites

/-- A panic `contact_peer` can reach where it stands. -/
inductive Caller.CanPanic (cfg : PeerConfig) (call : ContactCall V) (k : Caller V) :
    String → Prop where
  | restart {hops : ℕ} {site : String} (hphase : k.phase = .restart hops)
      (hpanic : startSearch k.state call hops = .error (.panic site)) : CanPanic cfg call k site
  | elect {s : Search} {site : String} (gnodeExists : HCoord → Bool) (hphase : k.phase = .attempt s)
      (hpanic : elect cfg k.state call gnodeExists s = .error (.panic site)) :
      CanPanic cfg call k site
  | serve {s s' : Search} {site : String} (gnodeExists : HCoord → Bool)
      (outcome : Option (Except ExecError V)) (hphase : k.phase = .attempt s)
      (helect : Netsukuku.elect cfg k.state call gnodeExists s = .ok (s', .myself))
      (hpanic : servedLocally cfg k.state call s' outcome = .error (.panic site)) :
      CanPanic cfg call k site
  | forward {s s' : Search} {x : HCoord} {site : String} (gnodeExists : HCoord → Bool)
      (msgId : Int32) (hphase : k.phase = .attempt s)
      (helect : Netsukuku.elect cfg k.state call gnodeExists s = .ok (s', .remote x))
      (hpanic : openAttempt k.state call s' x msgId = .error (.panic site)) :
      CanPanic cfg call k site
  | timeout {a : Attempt} {site : String} (hphase : k.phase = .waiting a)
      (hpanic : a.timeout k.state call = .error (.panic site)) : CanPanic cfg call k site
  | receive {a : Attempt} {wa : WaitingAnswer V} {e : RouteEvent V} {rest : List (RouteEvent V)}
      {site : String} (hphase : k.phase = .waiting a)
      (hwa : k.state.waiting.get? a.forwarder.msgId = some wa) (hsent : wa.sent = e :: rest)
      (hpanic : a.receive cfg k.state call e = .error (.panic site)) : CanPanic cfg call k site

lemma overflowSites_subset (n : Naddr) : Outcome.overflowSites ⊆ callerSites n := by
  rw [callerSites]
  split_ifs
  · exact List.Subset.refl _
  · exact List.subset_append_left _ _

/-- An address of real positions, or a site where it would have to be one. -/
lemma real_or_mem (n : Naddr) (site : String) (hsite : site ∈ addressSites) :
    n.IsReal ∨ site ∈ callerSites n := by
  by_cases hreal : n.IsReal
  · exact .inl hreal
  · refine .inr ?_
    rw [callerSites, if_neg hreal]
    exact List.mem_append_right _ hsite

/-- None of these is a site of `contact_peer`. -/
lemma notMem_contactPeerSites {n : Naddr} {site : String} (h : site ∈ callerSites n) :
    site ∉ contactPeerSites := by
  have hdisjoint : (Outcome.overflowSites ++ addressSites).Disjoint contactPeerSites := by
    simp [Outcome.overflowSites, addressSites, contactPeerSites]
  refine fun hmem => hdisjoint ?_ hmem
  rw [callerSites] at h
  split_ifs at h
  · exact List.mem_append_left _ h
  · exact h

/-! ## The constructors and the scopes -/

lemma checkPositions_panicsOnly (site : String) {sites : List String} {t : Topology} {level : ℕ}
    {pos : List UInt32} (hlen : level + pos.length ≤ t.levels) :
    (checkPositions site t level pos).PanicsOnly sites := by
  by_cases hpos : InRange t level pos
  · exact .of_eq_ok (checkPositions_eq_ok.mpr hpos)
  · obtain ⟨e, he⟩ := checkPositions_refuses site hlen hpos
    intro site' hpanic
    rw [he] at hpanic
    cases hpanic

/-- A constructor refuses, but does not panic. -/
lemma TupleNode.new_panicsOnly {sites : List String} (t : Topology) (pos : List UInt32) :
    (TupleNode.new t pos).PanicsOnly sites := by
  intro site hpanic
  rw [TupleNode.new] at hpanic
  split_ifs at hpanic with hlen
  · cases hpanic
  · split at hpanic
    next e he =>
      cases hpanic
      exact checkPositions_panicsOnly _ (by omega) site he
    next => cases hpanic

lemma TupleGNode.new_panicsOnly {sites : List String} (t : Topology) (top : ℕ)
    (pos : List UInt32) : (TupleGNode.new t top pos).PanicsOnly sites := by
  intro site hpanic
  rw [TupleGNode.new] at hpanic
  split_ifs at hpanic with hempty htop hlen
  · cases hpanic
  · cases hpanic
  · cases hpanic
  · split at hpanic
    next e he =>
      cases hpanic
      exact checkPositions_panicsOnly _ (by omega) site he
    next => cases hpanic

section Scopes

variable {n : Naddr} {newTop : ℕ}

/-- A g-node of the map, or the node itself, is named at a scope above it. -/
lemma makeTupleNode_panicsOnly {h : HCoord} (hlt : h.level < newTop)
    (hle : newTop ≤ n.topology.levels)
    (hh : h.InRange n.topology ∨ (h.level = 0 ∧ n.positions[0]? = some h.pos)) :
    (makeTupleNode n.topology n.positions h newTop).PanicsOnly (callerSites n) := by
  rcases real_or_mem n "levels above h.level come from a valid address"
    (by simp [addressSites]) with hreal | hmem
  · have hrange := inRange_of_isReal hreal
    have hpos : h.InRange n.topology := by
      rcases hh with hh | ⟨hzero, hself⟩
      · exact hh
      · obtain ⟨g, hg, hpos⟩ := hrange 0 h.pos hself
        exact ⟨g, by rw [hzero, ← hg], hpos⟩
    refine Outcome.PanicsOnly.mono ?_ (overflowSites_subset n)
    exact (makeTupleNode_safe_iff n.length_positions hle).mpr (.of_real hrange hpos hlt)
  · have hlen := n.length_positions
    rw [makeTupleNode, decide_eq_true hlt, Outcome.assert_true, Outcome.ok_bind,
      mapM_index_above hlt (by omega), Outcome.ok_bind]
    exact (TupleNode.new_panicsOnly _ _).unwrap (.inr hmem)

/-- A tuple of the scope is extended to a wider one. -/
lemma rebaseTupleNode_panicsOnly {x : TupleNode} (hx : x.topology = n.topology)
    (hle : x.top ≤ newTop) (hnew : newTop ≤ n.topology.levels) :
    (rebaseTupleNode n.positions x newTop).PanicsOnly (callerSites n) := by
  have hlen := n.length_positions
  rw [rebaseTupleNode, decide_eq_true hle, Outcome.assert_true, Outcome.ok_bind,
    Outcome.slice_of_le hle (by omega), Outcome.ok_bind]
  refine (TupleNode.new_panicsOnly _ _).unwrap ?_
  rcases real_or_mem n "extension uses valid positions"
    (by simp [addressSites]) with hreal | hmem
  · refine .inl ⟨⟨x.topology, x.positions ++ (n.positions.take newTop).drop x.top, ?_⟩,
      TupleNode.new_eq_ok.mpr ⟨rfl, rfl⟩⟩
    refine x.inRange.append ?_
    rw [hx]
    exact ((inRange_of_isReal hreal).take newTop).drop x.top
  · exact .inr hmem

lemma rebaseTupleGnode_panicsOnly {x : TupleGNode} (hx : x.topology = n.topology)
    (hle : x.top ≤ newTop) (hnew : newTop ≤ n.topology.levels) :
    (rebaseTupleGnode n.positions x newTop).PanicsOnly (callerSites n) := by
  have hlen := n.length_positions
  have hlevel := x.level_add_length
  have hlength : (x.positions ++ (n.positions.take newTop).drop x.top).length =
      newTop - x.level := by
    rw [List.length_append, List.length_drop, List.length_take]
    omega
  rw [rebaseTupleGnode, decide_eq_true hle, Outcome.assert_true, Outcome.ok_bind,
    Outcome.slice_of_le hle (by omega), Outcome.ok_bind]
  refine (TupleGNode.new_panicsOnly _ _ _).unwrap ?_
  rcases real_or_mem n "extension uses valid positions"
    (by simp [addressSites]) with hreal | hmem
  · refine .inl ⟨⟨x.topology, newTop, x.positions ++ (n.positions.take newTop).drop x.top,
      List.append_ne_nil_of_left_ne_nil x.nonempty _, by omega, ?_⟩,
      TupleGNode.new_eq_ok.mpr ⟨rfl, rfl, rfl⟩⟩
    rw [hlength, Nat.sub_sub_self (by omega)]
    refine x.inRange.append ?_
    rw [hx, Nat.sub_add_cancel x.length_le]
    simpa using ((inRange_of_isReal hreal).take newTop).drop x.top
  · exact .inr hmem

/-- What is rebased is of the topology it was, and of the new scope. -/
lemma rebaseTupleNode_eq_ok {myPos : List UInt32} {x y : TupleNode}
    (h : rebaseTupleNode myPos x newTop = .ok y) : y.topology = x.topology ∧ y.top = newTop := by
  have hpos := positions_rebaseTupleNode h
  obtain ⟨_, hassert, h⟩ := Outcome.bind_eq_ok.mp h
  obtain ⟨above, habove, h⟩ := Outcome.bind_eq_ok.mp h
  have hle : x.top ≤ newTop := of_decide_eq_true (Outcome.assert_eq_ok.mp hassert)
  have hslice := (Outcome.slice_eq_ok.mp habove).1
  refine ⟨(TupleNode.new_eq_ok.mp (Outcome.unwrap_eq_ok.mp h)).1, ?_⟩
  rw [TupleNode.top, hpos, List.length_append, List.length_drop, List.length_take]
  have htop : x.positions.length = x.top := rfl
  omega

lemma rebaseTupleGnode_eq_ok {myPos : List UInt32} {x y : TupleGNode}
    (h : rebaseTupleGnode myPos x newTop = .ok y) : y.topology = x.topology ∧ y.top = newTop := by
  obtain ⟨_, -, h⟩ := Outcome.bind_eq_ok.mp h
  obtain ⟨above, -, h⟩ := Outcome.bind_eq_ok.mp h
  obtain ⟨htopology, htop, -⟩ := TupleGNode.new_eq_ok.mp (Outcome.unwrap_eq_ok.mp h)
  exact ⟨htopology, htop⟩

/-- A tuple of some level is a g-node of level 0. -/
lemma tupleNodeToTupleGnode_ok {x : TupleNode} (hx : 0 < x.top) :
    ∃ gn, tupleNodeToTupleGnode x = .ok gn ∧ gn.topology = x.topology ∧ gn.top = x.top ∧
      gn.level = 0 := by
  have hzero : x.top - x.positions.length = 0 := Nat.sub_self _
  refine ⟨⟨x.topology, x.top, x.positions, List.ne_nil_of_length_pos hx, le_refl _,
    hzero ▸ x.inRange⟩, ?_, rfl, rfl, hzero⟩
  exact Outcome.unwrap_eq_ok.mpr (TupleGNode.new_eq_ok.mpr ⟨rfl, rfl, rfl⟩)

/-- The ancestor of a g-node of level 0 is looked up without a panic. -/
lemma tupleGnodeContaining_panicsOnly {sites : List String} {gn : TupleGNode} (hgn : gn.level = 0)
    (newLevel : ℕ) : (tupleGnodeContaining gn newLevel).PanicsOnly sites := by
  rw [tupleGnodeContaining, hgn, decide_eq_true (Nat.zero_le newLevel), Outcome.assert_true,
    Outcome.ok_bind]
  exact TupleGNode.new_panicsOnly _ _ _

lemma tupleGnodeContaining_eq_ok {gn gn' : TupleGNode} {newLevel : ℕ}
    (h : tupleGnodeContaining gn newLevel = .ok gn') :
    gn'.topology = gn.topology ∧ gn'.top = gn.top := by
  obtain ⟨_, -, h⟩ := Outcome.bind_eq_ok.mp h
  obtain ⟨htopology, htop, -⟩ := TupleGNode.new_eq_ok.mp h
  exact ⟨htopology, htop⟩

end Scopes

/-! ## The pieces of a call -/

/-- The tuples a search has collected are tuples of the topology. -/
structure Search.Over (t : Topology) (s : Search) : Prop where
  excluded : ∀ gn ∈ s.excludeTupleList, gn.topology = t
  nonParticipants : ∀ gn ∈ s.nonParticipantTupleList, gn.topology = t

/-- A call within a topology: its target and the tuples it starts with are of it. -/
structure ContactCall.Over (t : Topology) (call : ContactCall V) : Prop where
  target : ∀ x, call.xMacron = some x → x.topology = t
  seeds : ∀ gn ∈ call.seedExcludeTupleList, gn.topology = t

/-- The node of a call, which keeps its topology and its address. -/
structure PeerState.At (n : Naddr) (p : PeerState V) : Prop where
  myPos : p.myPos = n
  topology : p.topology = n.topology

section Pieces

variable {n : Naddr} {p : PeerState V} {cfg : PeerConfig} {call : ContactCall V} {s s' : Search}
  {a : Attempt}

lemma ContactCall.Over.targetLevels_le {t : Topology} (h : call.Over t) :
    call.targetLevels ≤ t.levels := by
  rw [ContactCall.targetLevels]
  cases hx : call.xMacron with
  | none => exact Nat.zero_le _
  | some x =>
      have htop := x.top_le
      rw [h.target x hx] at htop
      exact htop

lemma Search.Over.of_eq {t : Topology} (h : s.Over t)
    (hexcluded : s'.excludeTupleList = s.excludeTupleList)
    (hnon : s'.nonParticipantTupleList = s.nonParticipantTupleList) : s'.Over t :=
  ⟨hexcluded ▸ h.excluded, hnon ▸ h.nonParticipants⟩

/-- One more excluded tuple. -/
lemma Search.Over.push {t : Topology} (h : s.Over t) {gn : TupleGNode} (hgn : gn.topology = t)
    (hexcluded : s'.excludeTupleList = s.excludeTupleList ++ [gn])
    (hnon : s'.nonParticipantTupleList = s.nonParticipantTupleList) : s'.Over t where
  excluded gn' hgn' := by
    rw [hexcluded] at hgn'
    rcases List.mem_append.mp hgn' with hold | hnew
    · exact h.excluded gn' hold
    · rw [List.mem_singleton.mp hnew, hgn]
  nonParticipants := hnon ▸ h.nonParticipants

lemma nonParticipantGnodes_ok (hp : p.At n) (pId : ServiceId) (targetLevels : ℕ) :
    ∃ hs, p.nonParticipantGnodes pId targetLevels = .ok hs := by
  have hlen : p.myPos.positions.length = p.topology.levels := by
    rw [hp.myPos, hp.topology, n.length_positions]
  have hindex : 0 < p.myPos.positions.length := hlen ▸ p.topology.levels_pos
  rw [PeerState.nonParticipantGnodes]
  split_ifs
  · refine Outcome.bind_ok (allGnodesUpToLvl_ok hlen) fun all _ => ?_
    exact ⟨_, by rw [Outcome.index_of_lt hindex, Outcome.ok_bind]⟩
  · exact ⟨[], rfl⟩

lemma excludeVisible_ok {gn : TupleGNode} (hgn : gn.topology = n.topology) :
    ∃ hs, excludeVisible n.positions gn = .ok hs := by
  have htop : gn.top ≤ n.positions.length := by
    rw [n.length_positions, ← hgn]
    exact gn.top_le
  exact Outcome.bind_ok (convertTupleGnode_ok htop) fun r _ => ⟨_, rfl⟩

/-- The head of the restart loop panics nowhere. -/
lemma startSearch_ok (hp : p.At n) (hcall : call.Over n.topology) (hops : ℕ) :
    ∃ s, startSearch p call hops = .ok s := by
  refine Outcome.bind_ok (nonParticipantGnodes_ok hp _ _) fun nons _ =>
    Outcome.bind_ok ?_ fun mine _ =>
      Outcome.bind_ok (Outcome.mapM_ok fun gn hgn => ?_) fun visible _ => ⟨_, rfl⟩
  · cases call.excludeMyGnode with
    | none => exact ⟨[], rfl⟩
    | some lvl =>
        refine allGnodesUpToLvl_ok ?_
        rw [hp.myPos, hp.topology, n.length_positions]
  · rw [hp.myPos]
    exact excludeVisible_ok (hcall.seeds gn hgn)

lemma over_startSearch {hops : ℕ} (hcall : call.Over n.topology)
    (h : startSearch p call hops = .ok s) : s.Over n.topology := by
  obtain ⟨nons, -, h⟩ := Outcome.bind_eq_ok.mp h
  obtain ⟨mine, -, h⟩ := Outcome.bind_eq_ok.mp h
  obtain ⟨visible, -, h⟩ := Outcome.bind_eq_ok.mp h
  cases h
  exact ⟨hcall.seeds, fun gn hgn => absurd hgn List.not_mem_nil⟩

/-- The election panics only where the address of the node makes it. -/
lemma elect_panicsOnly (hp : p.At n) (hcall : call.Over n.topology) (gnodeExists : HCoord → Bool) :
    (elect cfg p call gnodeExists s).PanicsOnly (callerSites n) := by
  by_cases hhops : cfg.maxContactPeerHops < s.hops + 1
  · rw [elect, if_pos hhops]
    exact Outcome.PanicsOnly.ok _
  · rw [elect, if_neg hhops]
    refine Outcome.PanicsOnly.bind ?_ fun elected _ => ?_
    · rw [hp.myPos, hp.topology]
      refine approximate_panicsOnly (overflowSites_subset n) n.length_positions hcall.target
        (fun x hx h hw => ?_) gnodeExists
      have hle : x.top ≤ n.topology.levels := hcall.target x hx ▸ x.top_le
      exact makeTupleNode_panicsOnly hw.level_lt hle (hw.other_or_self.imp And.left id)
    · cases elected with
      | none => exact Outcome.PanicsOnly.ok _
      | some x =>
          have hindex : 0 < p.myPos.positions.length := by
            rw [hp.myPos, n.length_positions]
            exact n.topology.levels_pos
          simp only
          rw [Outcome.index_of_lt hindex, Outcome.ok_bind]
          exact Outcome.PanicsOnly.ok _

/-- What is elected in another g-node is a g-node of the map below the scope of the target. -/
lemma remote_of_elect {gnodeExists : HCoord → Bool} {x : HCoord} (hp : p.At n)
    (h : elect cfg p call gnodeExists s = .ok (s', .remote x)) :
    s' = { s with hops := s.hops + 1 } ∧ x.InRange n.topology ∧
      ∃ target, call.xMacron = some target ∧ x.level < target.top := by
  obtain ⟨rfl, x', p₀, hp₀, ha, hremote⟩ := elect_eq_ok h (fun e he => by cases he)
  rw [hp.myPos] at hp₀
  rw [hp.myPos, hp.topology] at ha
  by_cases hself : x' = ⟨0, p₀⟩
  · rw [if_pos hself] at hremote
    cases hremote
  · rw [if_neg hself] at hremote
    cases hremote
    have hother : ¬ (x.level = 0 ∧ n.positions[0]? = some x.pos) := by
      rintro ⟨hzero, hpos⟩
      rw [hp₀] at hpos
      refine hself ?_
      obtain ⟨level, pos⟩ := x
      cases hpos
      cases hzero
      rfl
    have hrange := (approximate_inRange_or_self ha).resolve_right hother
    obtain ⟨target, htarget, hcandidate⟩ := (approximate_eq_some ha).2.resolve_left hother
    exact ⟨rfl, hrange, target, htarget, hcandidate.level_lt⟩

/-- Serving the call here panics only where the address of the node makes it. -/
lemma servedLocally_panicsOnly (hp : p.At n) (hcall : call.Over n.topology)
    (outcome : Option (Except ExecError V)) :
    (servedLocally cfg p call s outcome).PanicsOnly (callerSites n) := by
  have hindex : 0 < n.positions.length := n.length_positions ▸ n.topology.levels_pos
  rcases outcome with _ | (refusal | _) | response
  · refine Outcome.PanicsOnly.of_exists ?_
    rw [servedLocally, hp.myPos]
    exact ⟨_, by rw [Outcome.index_of_lt hindex, Outcome.ok_bind]⟩
  · refine Outcome.PanicsOnly.of_exists ?_
    rw [servedLocally, hp.myPos, hp.topology]
    exact Outcome.bind_ok (allGnodesUpToLvl_ok n.length_positions) fun mine _ => ⟨_, rfl⟩
  · exact Outcome.PanicsOnly.ok _
  · refine Outcome.PanicsOnly.bind ?_ fun respondant _ => Outcome.PanicsOnly.ok _
    rw [ownTuple, hp.myPos, hp.topology]
    split_ifs with hzero
    · have hempty : InRange n.topology 0 [] := fun i q hq => by cases hq
      exact Outcome.PanicsOnly.of_eq_ok (a := ⟨n.topology, [], hempty⟩)
        (Outcome.unwrap_eq_ok.mpr (TupleNode.new_eq_ok.mpr ⟨rfl, rfl⟩))
    · rw [Outcome.index_of_lt hindex, Outcome.ok_bind]
      exact makeTupleNode_panicsOnly (Nat.pos_of_ne_zero hzero) hcall.targetLevels_le
        (.inr ⟨rfl, List.getElem?_eq_getElem hindex⟩)

/-- So does opening an attempt. -/
lemma openAttempt_panicsOnly (hp : p.At n) (hcall : call.Over n.topology)
    (hs : s.Over n.topology) {x : HCoord} (hx : x.InRange n.topology) {target : TupleNode}
    (htarget : call.xMacron = some target) (hlt : x.level < target.top) (msgId : Int32) :
    (openAttempt p call s x msgId).PanicsOnly (callerSites n) := by
  have hlen := n.length_positions
  have hindex : 0 < n.positions.length := hlen ▸ n.topology.levels_pos
  have hle : target.top ≤ n.topology.levels := hcall.target target htarget ▸ target.top_le
  rw [openAttempt, hp.myPos, hp.topology, Outcome.index_of_lt hindex, Outcome.ok_bind]
  refine Outcome.PanicsOnly.bind ?_ fun own _ => Outcome.PanicsOnly.bind ?_ fun cut _ =>
    Outcome.PanicsOnly.bind ?_ fun excluded _ => Outcome.PanicsOnly.bind ?_ fun nons _ =>
      Outcome.PanicsOnly.bind ?_ fun minTarget _ => Outcome.PanicsOnly.ok _
  · exact makeTupleNode_panicsOnly (Nat.succ_pos _) (by omega)
      (.inr ⟨rfl, List.getElem?_eq_getElem hindex⟩)
  · exact .of_exists (cutXMacron_ok hcall.target fun _ => ⟨target, htarget, hlt.le⟩)
  · refine .of_exists (Outcome.bind_ok (Outcome.mapM_ok fun gn hgn => ?_) fun _ _ => ⟨_, rfl⟩)
    exact cutExcluded_ok (hs.excluded gn hgn) hlen
  · refine .of_exists (Outcome.bind_ok (Outcome.mapM_ok fun gn hgn => ?_) fun _ _ => ⟨_, rfl⟩)
    refine visibleBySomeoneInsideMyGnode_ok ?_
    rw [hlen, ← hs.nonParticipants gn hgn]
    exact gn.top_le
  · -- the scope of an attempt is that of its g-node: nothing of mine is above
    have hfits : Fits n.topology n.positions x (x.level + 1) := by
      refine ⟨Nat.lt_succ_self _, fun i q hq => ?_⟩
      obtain ⟨g, hg, hpos⟩ := hx
      rw [List.drop_of_length_le (by rw [List.length_take]; omega)] at hq
      cases i with
      | zero =>
          cases hq
          exact ⟨g, hg, hpos⟩
      | succ i => cases hq
    exact Outcome.PanicsOnly.mono ((makeTupleGnode_safe_iff hlen (by omega)).mpr hfits)
      (overflowSites_subset n)

/-- A g-node of the scope of the attempt can be excluded. -/
lemma giveUp_panicsOnly (hp : p.At n) (hcall : call.Over n.topology) {gn : TupleGNode}
    (hgn : gn.topology = n.topology) (hle : gn.top ≤ call.targetLevels) :
    (a.giveUp p call gn).PanicsOnly (callerSites n) := by
  rw [Attempt.giveUp, hp.myPos]
  refine (rebaseTupleGnode_panicsOnly hgn hle hcall.targetLevels_le).bind fun gn' hgn' => ?_
  refine Outcome.PanicsOnly.bind (.of_exists ?_) fun s' _ => Outcome.PanicsOnly.ok _
  refine Outcome.bind_ok (excludeVisible_ok ?_) fun visible _ => ⟨_, rfl⟩
  rw [(rebaseTupleGnode_eq_ok hgn').1, hgn]

lemma over_giveUp (hs : a.search.Over n.topology) {gn gn' : TupleGNode}
    (hgn : gn.topology = n.topology) (h : a.giveUp p call gn = .ok (s', gn')) :
    s'.Over n.topology ∧ gn'.topology = n.topology := by
  obtain ⟨gn₁, hgn₁, h⟩ := Outcome.bind_eq_ok.mp h
  obtain ⟨s₁, hs₁, h⟩ := Outcome.bind_eq_ok.mp h
  obtain ⟨visible, -, hs₁⟩ := Outcome.bind_eq_ok.mp hs₁
  cases h
  cases hs₁
  have htopology : gn'.topology = n.topology := by rw [(rebaseTupleGnode_eq_ok hgn₁).1, hgn]
  exact ⟨hs.push htopology rfl rfl, htopology⟩

/-- A refusal is worked in without a panic, whatever level it names. -/
lemma refused_ok (hp : p.At n) {respondant : TupleNode}
    (htopology : respondant.topology = n.topology) (htop : 0 < respondant.top) (refusal : Refusal) :
    ∃ s, a.refused cfg p respondant refusal = .ok s := by
  have hlen : p.myPos.positions.length = p.topology.levels := by
    rw [hp.myPos, hp.topology, n.length_positions]
  obtain ⟨gn, hgn, hgnt, hgntop, hlevel⟩ := tupleNodeToTupleGnode_ok htop
  rw [Attempt.refused, hgn, Outcome.ok_bind]
  cases hcontaining : tupleGnodeContaining gn refusal.level with
  | error e =>
      cases e with
      | panic site =>
          have hnone : site ∈ [] :=
            tupleGnodeContaining_panicsOnly hlevel refusal.level site hcontaining
          cases hnone
      | err e => exact Outcome.bind_ok (allGnodesUpToLvl_ok hlen) fun mine _ => ⟨_, rfl⟩
  | ok gn' =>
      have hgn't := (tupleGnodeContaining_eq_ok hcontaining).1
      have htop' : gn'.top ≤ p.myPos.positions.length := by
        rw [hlen, hp.topology, ← htopology, ← hgnt, ← hgn't]
        exact gn'.top_le
      refine Outcome.bind_ok (Outcome.bind_ok (convertTupleGnode_ok htop') fun r _ => ?_)
        fun excluded _ => ⟨_, rfl⟩
      obtain ⟨relation, ret⟩ := r
      cases relation with
      | mine => exact allGnodesUpToLvl_ok hlen
      | visible => exact ⟨[ret], rfl⟩
      | hidden => exact ⟨[], rfl⟩

lemma over_refused (hs : a.search.Over n.topology) {respondant : TupleNode}
    (htopology : respondant.topology = n.topology) {refusal : Refusal}
    (h : a.refused cfg p respondant refusal = .ok s') : s'.Over n.topology := by
  obtain ⟨gn, hgn, h⟩ := Outcome.bind_eq_ok.mp h
  have hgnt := (TupleGNode.new_eq_ok.mp (Outcome.unwrap_eq_ok.mp hgn)).1
  split at h
  · cases h
  · obtain ⟨mine, -, h⟩ := Outcome.bind_eq_ok.mp h
    cases h
    exact hs.of_eq rfl rfl
  · rename_i gn' hcontaining
    obtain ⟨excluded, -, h⟩ := Outcome.bind_eq_ok.mp h
    cases h
    refine hs.push ?_ rfl rfl
    rw [(tupleGnodeContaining_eq_ok hcontaining).1, hgnt, htopology]

end Pieces

/-! ## The channel -/

lemma TupleGNode.top_pos (x : TupleGNode) : 0 < x.top :=
  (List.length_pos_of_ne_nil x.nonempty).trans_le x.length_le

/-- The tuples of an event are tuples of the topology at the scope. -/
def RouteEvent.Scoped (t : Topology) (top : ℕ) : RouteEvent V → Prop
  | .nextDestination tuple | .failure tuple | .nonParticipant tuple =>
      tuple.topology = t ∧ tuple.top = top
  | .respondantNode respondant => respondant.topology = t ∧ respondant.top = top
  | _ => True

/-- A search of one scope, whose channel brings tuples of that scope only. -/
structure WaitingAnswer.Scoped (t : Topology) (top : ℕ) (wa : WaitingAnswer V) : Prop where
  minTarget : wa.minTarget.top = top
  sent : ∀ e ∈ wa.sent, e.Scoped t top

namespace WaitingAnswer.Scoped

variable {t : Topology} {top : ℕ} {wa : WaitingAnswer V}

lemma send (h : wa.Scoped t top) {wa' : WaitingAnswer V} {e : RouteEvent V}
    (hsent : wa'.sent = wa.sent ++ [e]) (hmin : wa'.minTarget.top = top) (he : e.Scoped t top) :
    wa'.Scoped t top where
  minTarget := hmin
  sent e' he' := by
    rw [hsent] at he'
    rcases List.mem_append.mp he' with hold | hnew
    · exact h.sent e' hold
    · rw [List.mem_singleton.mp hnew]
      exact he

lemma sendIf (h : wa.Scoped t top) {accepted : Bool} {e : RouteEvent V}
    (he : accepted = true → e.Scoped t top) : (wa.sendIf accepted e).Scoped t top := by
  cases accepted with
  | false => exact h
  | true => exact h.send rfl h.minTarget (he rfl)

/-- **The actor lets nothing of another scope through.** -/
lemma answer (h : wa.Scoped t top) {c : PeerCall V} (hc : c.Over t) :
    (wa.answer c).Scoped t top := by
  have hdeeper : ∀ {tuple : TupleGNode} {strictly : Bool},
      wa.isDeeperOrEqual tuple strictly = true → tuple.top = top := by
    intro tuple strictly hdeeper
    rw [isDeeperOrEqual, Bool.and_eq_true, decide_eq_true_eq] at hdeeper
    rw [← hdeeper.1, h.minTarget]
  cases c with
  | getRequest respondant =>
      simp only [WaitingAnswer.answer]
      split_ifs with htop
      · exact h.send rfl h.minTarget ⟨hc, by rw [← htop, h.minTarget]⟩
      · exact h
  | setResponse response respondant => exact h.sendIf fun _ => trivial
  | setRefuseMessage refusal respondant => exact h.sendIf fun _ => trivial
  | setRedoFromStart respondant => exact h.sendIf fun _ => trivial
  | setNextDestination tuple =>
      simp only [WaitingAnswer.answer]
      split_ifs with hnext
      · exact h.send rfl (hdeeper hnext) ⟨hc, hdeeper hnext⟩
      · exact h
  | setFailure tuple => exact h.sendIf fun haccepted => ⟨hc, hdeeper haccepted⟩
  | setNonParticipant tuple => exact h.sendIf fun haccepted => ⟨hc, hdeeper haccepted⟩
  | setMissingOptionalMaps => exact h.send rfl h.minTarget trivial

end WaitingAnswer.Scoped

/-! ## A call and its searches -/

/-- An attempt and the search it waits for, both of a scope within that of the target. -/
structure AttemptInScope (t : Topology) (targetLevels top : ℕ) (a : Attempt)
    (wa : WaitingAnswer V) : Prop where
  search : a.search.Over t
  top_le : top ≤ targetLevels
  minTarget : a.minTarget.topology = t ∧ a.minTarget.top = top
  channel : wa.Scoped t top
  inStep : InStep a.respondant.isSome wa
  respondant : ∀ ρ, a.respondant = some ρ → ρ.topology = t ∧ ρ.top = targetLevels

/-- Where a call stands, its search and its attempt are in order. -/
structure CallInScope (n : Naddr) (call : ContactCall V) (k : Caller V) : Prop where
  atNode : k.state.At n
  attempt : ∀ s, k.phase = .attempt s → s.Over n.topology
  opened : ∀ a, k.phase = .sending a ∨ k.phase = .waiting a → ∃ top wa,
    k.state.waiting.get? a.forwarder.msgId = some wa ∧
      AttemptInScope n.topology call.targetLevels top a wa

section Events

variable {n : Naddr} {p : PeerState V} {cfg : PeerConfig} {call : ContactCall V} {a : Attempt}
  {wa : WaitingAnswer V} {top : ℕ} {e : RouteEvent V} {rest : List (RouteEvent V)}

/-- **The event loop panics only where the address of the node makes it.** -/
lemma receive_panicsOnly (hp : p.At n) (hcall : call.Over n.topology)
    (h : AttemptInScope n.topology call.targetLevels top a wa) (hsent : wa.sent = e :: rest) :
    (a.receive cfg p call e).PanicsOnly (callerSites n) := by
  have he : e.Scoped n.topology top := h.channel.sent e (by rw [hsent]; exact List.mem_cons_self)
  have hle := h.top_le
  have htop : 0 < call.targetLevels := by
    have hpos := a.minTarget.top_pos
    rw [h.minTarget.2] at hpos
    omega
  cases e with
  | nextDestination tuple => exact Outcome.PanicsOnly.ok _
  | failure tuple =>
      obtain ⟨htopology, hscope⟩ := he
      exact (giveUp_panicsOnly hp hcall htopology (by omega)).bind fun _ _ =>
        Outcome.PanicsOnly.ok _
  | nonParticipant tuple =>
      obtain ⟨htopology, hscope⟩ := he
      exact (giveUp_panicsOnly hp hcall htopology (by omega)).bind fun _ _ =>
        Outcome.PanicsOnly.ok _
  | missingOptionalMaps => exact Outcome.PanicsOnly.ok _
  | respondantNode respondant =>
      obtain ⟨htopology, hscope⟩ := he
      simp only [Attempt.receive]
      split
      · rw [hp.myPos]
        exact (rebaseTupleNode_panicsOnly htopology (by omega) hcall.targetLevels_le).bind
          fun _ _ => Outcome.PanicsOnly.ok _
      · exact Outcome.PanicsOnly.ok _
  | response response =>
      -- the channel brings an answer only once the loop knows a respondant
      have hannounced := h.inStep.announced
      rw [hsent] at hannounced
      obtain ⟨ρ, hρ⟩ := Option.isSome_iff_exists.mp (hannounced.1 rfl)
      simp only [Attempt.receive, hρ, Outcome.expect_some, Outcome.ok_bind]
      exact Outcome.PanicsOnly.ok _
  | refuse refusal =>
      simp only [Attempt.receive]
      split
      · exact Outcome.PanicsOnly.ok _
      · rename_i ρ hρ
        obtain ⟨htopology, hscope⟩ := h.respondant ρ hρ
        exact (Outcome.PanicsOnly.of_exists (refused_ok hp htopology (by omega) refusal)).bind
          fun _ _ => Outcome.PanicsOnly.ok _
  | redoFromStart =>
      simp only [Attempt.receive]
      split <;> exact Outcome.PanicsOnly.ok _

/-- **One event keeps the attempt in order**, if the loop goes on with it. -/
lemma AttemptInScope.waiting {a' : Attempt}
    (h : AttemptInScope n.topology call.targetLevels top a wa) (hsent : wa.sent = e :: rest)
    (hreceive : a.receive cfg p call e = .ok (.waiting a')) :
    a'.forwarder = a.forwarder ∧
      AttemptInScope n.topology call.targetLevels top a' { wa with sent := rest } := by
  have he : e.Scoped n.topology top := h.channel.sent e (by rw [hsent]; exact List.mem_cons_self)
  obtain ⟨hprogress, hforwarder, hinStep⟩ := receive_waiting h.inStep hsent hreceive
  have hscoped : ({ wa with sent := rest } : WaitingAnswer V).Scoped n.topology top :=
    ⟨h.channel.minTarget, fun e' he' => h.channel.sent e' (by
      rw [hsent]
      exact List.mem_cons_of_mem e he')⟩
  refine ⟨hforwarder, ?_⟩
  cases e with
  | nextDestination tuple =>
      cases hreceive
      exact ⟨h.search, h.top_le, he, hscoped, hinStep, h.respondant⟩
  | respondantNode respondant =>
      simp only [Attempt.receive] at hreceive
      split at hreceive
      · obtain ⟨ρ, hρ, hreceive⟩ := Outcome.bind_eq_ok.mp hreceive
        cases hreceive
        obtain ⟨htopology, htop⟩ := rebaseTupleNode_eq_ok hρ
        refine ⟨h.search, h.top_le, h.minTarget, hscoped, hinStep, ?_⟩
        rintro ρ' ⟨⟩
        exact ⟨htopology.trans he.1, htop⟩
      · cases hreceive
        exact ⟨h.search, h.top_le, h.minTarget, hscoped, hinStep, h.respondant⟩
  | _ => cases hprogress

/-- What the loop leaves an attempt with is in order. -/
lemma AttemptInScope.over_receive {s : Search}
    (h : AttemptInScope n.topology call.targetLevels top a wa) (hsent : wa.sent = e :: rest)
    (hreceive : a.receive cfg p call e = .ok (.attempt s)) :
    s.Over n.topology := by
  have he : e.Scoped n.topology top := h.channel.sent e (by rw [hsent]; exact List.mem_cons_self)
  cases e with
  | failure tuple =>
      obtain ⟨⟨s', gn⟩, hgiveUp, hreceive⟩ := Outcome.bind_eq_ok.mp hreceive
      cases hreceive
      exact (over_giveUp h.search he.1 hgiveUp).1
  | nonParticipant tuple =>
      obtain ⟨⟨s', gn⟩, hgiveUp, hreceive⟩ := Outcome.bind_eq_ok.mp hreceive
      cases hreceive
      obtain ⟨hs', hgn⟩ := over_giveUp h.search he.1 hgiveUp
      refine ⟨hs'.excluded, fun gn' hgn' => ?_⟩
      rcases List.mem_append.mp hgn' with hold | hnew
      · exact hs'.nonParticipants gn' hold
      · rw [List.mem_singleton.mp hnew, hgn]
  | refuse refusal =>
      simp only [Attempt.receive] at hreceive
      split at hreceive
      · cases hreceive
      · rename_i ρ hρ
        obtain ⟨s', hs', hreceive⟩ := Outcome.bind_eq_ok.mp hreceive
        cases hreceive
        exact over_refused h.search (h.respondant ρ hρ).1 hs'
  | respondantNode respondant =>
      simp only [Attempt.receive] at hreceive
      split at hreceive
      · obtain ⟨ρ, -, hreceive⟩ := Outcome.bind_eq_ok.mp hreceive
        cases hreceive
      · cases hreceive
  | redoFromStart =>
      simp only [Attempt.receive] at hreceive
      split at hreceive <;> cases hreceive
  | response response =>
      obtain ⟨ρ, -, hreceive⟩ := Outcome.bind_eq_ok.mp hreceive
      cases hreceive
  | nextDestination tuple => cases hreceive
  | missingOptionalMaps => cases hreceive

/-- The loop does not send again. -/
lemma receive_ne_sending {a' : Attempt} :
    a.receive cfg p call e ≠ .ok (.sending a') := by
  intro hreceive
  cases e with
  | failure tuple =>
      obtain ⟨r, -, hreceive⟩ := Outcome.bind_eq_ok.mp hreceive
      cases hreceive
  | nonParticipant tuple =>
      obtain ⟨r, -, hreceive⟩ := Outcome.bind_eq_ok.mp hreceive
      cases hreceive
  | response response =>
      obtain ⟨ρ, -, hreceive⟩ := Outcome.bind_eq_ok.mp hreceive
      cases hreceive
  | respondantNode respondant =>
      simp only [Attempt.receive] at hreceive
      split at hreceive
      · obtain ⟨ρ, -, hreceive⟩ := Outcome.bind_eq_ok.mp hreceive
        cases hreceive
      · cases hreceive
  | refuse refusal =>
      simp only [Attempt.receive] at hreceive
      split at hreceive
      · cases hreceive
      · obtain ⟨s, -, hreceive⟩ := Outcome.bind_eq_ok.mp hreceive
        cases hreceive
  | redoFromStart =>
      simp only [Attempt.receive] at hreceive
      split at hreceive <;> cases hreceive
  | nextDestination tuple => cases hreceive
  | missingOptionalMaps => cases hreceive

end Events

/-! ## Runs -/

section Runs

variable {n : Naddr} {cfg : PeerConfig} {call : ContactCall V} {k k' : Caller V}

/-- A phase without a search in flight. -/
lemma CallInScope.of_idle {phase : Phase V} (hp : k.state.At n)
    (hattempt : ∀ s, phase = .attempt s → s.Over n.topology)
    (hopened : ∀ a, phase ≠ .sending a ∧ phase ≠ .waiting a) :
    CallInScope n call { k with phase } where
  atNode := hp
  attempt := hattempt
  opened a ha := (ha.elim (hopened a).1 (hopened a).2).elim

/-- A command keeps the searches of the call in order, wherever it stands. -/
lemma CallInScope.command (h : CallInScope n call k) {c : PeerCmd V}
    (hc : (wireWorld V).command k c) (hforeign : k.Foreign c)
    (accepted : List (Int32 × V × TupleNode)) :
    CallInScope n call { k with state := k.state.handle c, accepted } where
  atNode := ⟨by rw [PeerState.handle_myPos, h.atNode.myPos],
    by rw [PeerState.handle_topology, h.atNode.topology]⟩
  attempt := h.attempt
  opened a ha := by
    obtain ⟨top, wa, hwa, hok⟩ := h.opened a ha
    have hid : k.phase.msgId = some a.forwarder.msgId := by
      rcases ha with hphase | hphase
      · exact congrArg Phase.msgId hphase
      · exact congrArg Phase.msgId hphase
    obtain ⟨wa', hwa', hsame | ⟨report, rfl, rfl⟩⟩ := Caller.pending_handle hid hwa hforeign
    · exact ⟨top, wa', hwa', hsame ▸ hok⟩
    · obtain ⟨w, hw⟩ := hc _ report rfl
      rw [h.atNode.topology] at hw
      exact ⟨top, _, hwa', hok.search, hok.top_le, hok.minTarget,
        hok.channel.answer (over_peerCallFromWire hw), hok.inStep.answer report, hok.respondant⟩

/-- The attempt that has just been opened. -/
lemma attemptInScope_openAttempt {p : PeerState V} {s : Search} {x : HCoord} {msgId : Int32}
    {a : Attempt} (hp : p.At n) (hs : s.Over n.topology) {target : TupleNode}
    (htarget : call.xMacron = some target) (hlt : x.level < target.top)
    (h : openAttempt p call s x msgId = .ok a) (request : Option V) :
    AttemptInScope n.topology call.targetLevels (x.level + 1) a (.new a.minTarget request) := by
  obtain ⟨-, hrespondant⟩ := openAttempt_eq_ok h
  obtain ⟨_, -, h⟩ := Outcome.bind_eq_ok.mp h
  obtain ⟨_, -, h⟩ := Outcome.bind_eq_ok.mp h
  obtain ⟨_, -, h⟩ := Outcome.bind_eq_ok.mp h
  obtain ⟨_, -, h⟩ := Outcome.bind_eq_ok.mp h
  obtain ⟨_, -, h⟩ := Outcome.bind_eq_ok.mp h
  obtain ⟨minTarget, hmin, h⟩ := Outcome.bind_eq_ok.mp h
  cases h
  obtain ⟨_, hscope, -⟩ := positions_makeTupleGnode hmin
  obtain ⟨_, -, hmin⟩ := Outcome.bind_eq_ok.mp hmin
  obtain ⟨above, -, hmin⟩ := Outcome.bind_eq_ok.mp hmin
  have htopology := (TupleGNode.new_eq_ok.mp (Outcome.unwrap_eq_ok.mp hmin)).1
  rw [hp.topology] at htopology
  refine
    { search := hs
      top_le := ?_
      minTarget := ⟨htopology, hscope⟩
      channel := ⟨hscope, fun e he => absurd he List.not_mem_nil⟩
      inStep := .new _ _ _
      respondant := fun ρ hρ => by cases hρ }
  rw [ContactCall.targetLevels, htarget]
  exact hlt

/-- **One step keeps the call in order.** -/
theorem Caller.Step.callInScope (hcall : call.Over n.topology)
    (hstep : Step (wireWorld V) cfg call k k') (h : CallInScope n call k) :
    CallInScope n call k' := by
  cases hstep with
  | command c hc hforeign => exact h.command hc hforeign _
  | registry services participantSet =>
      exact ⟨⟨h.atNode.myPos, h.atNode.topology⟩, h.attempt, h.opened⟩
  | restart hphase hstart =>
      refine .of_idle h.atNode ?_ (by simp)
      rintro s ⟨⟩
      exact over_startSearch hcall hstart
  | fail gnodeExists hphase helect => exact .of_idle h.atNode (by simp) (by simp)
  | @myself s s' phase gnodeExists outcome hphase helect hserves hregistered hserved =>
      obtain ⟨rfl, -⟩ := elect_eq_ok helect (fun e he => by cases he)
      have hs := h.attempt s hphase
      have hidle := idle_of_servedLocally hserved
      refine .of_idle h.atNode (fun s' hs' => ?_) fun a => ⟨?_, ?_⟩
      · subst hs'
        rcases outcome with _ | (refusal | _) | response
        · obtain ⟨p₀, -, hserved⟩ := Outcome.bind_eq_ok.mp hserved
          cases hserved
          exact hs.of_eq rfl rfl
        · obtain ⟨mine, -, hserved⟩ := Outcome.bind_eq_ok.mp hserved
          cases hserved
          exact hs.of_eq rfl rfl
        · cases hserved
        · obtain ⟨ρ, -, hserved⟩ := Outcome.bind_eq_ok.mp hserved
          cases hserved
      · rintro rfl
        exact hidle
      · rintro rfl
        exact hidle
  | @forward s s' x a gnodeExists msgId hphase helect hfree hdraws hopen =>
      obtain ⟨rfl, -, target, htarget, hlt⟩ := remote_of_elect h.atNode helect
      refine ⟨⟨?_, ?_⟩, (by simp), fun a' ha' => ?_⟩
      · exact (PeerState.handle_myPos _ _).trans h.atNode.myPos
      · exact (PeerState.handle_topology _ _).trans h.atNode.topology
      · obtain rfl : a = a' := by
          rcases ha' with hphase | hphase <;> cases hphase
          rfl
        obtain ⟨rfl, -⟩ := openAttempt_eq_ok hopen
        refine ⟨x.level + 1, _, KeyedMap.get?_insert_self _ _ _, ?_⟩
        have hs : ({ s with hops := s.hops + 1 } : Search).Over n.topology :=
          (h.attempt s hphase).of_eq rfl rfl
        exact attemptInScope_openAttempt h.atNode hs htarget hlt hopen _
  | @sent a hphase =>
      refine ⟨h.atNode, (by simp), fun a' ha' => ?_⟩
      obtain rfl : a = a' := by
        rcases ha' with hphase' | hphase' <;> cases hphase'
        rfl
      exact h.opened a (.inl hphase)
  | @notSent a hphase =>
      obtain ⟨top, wa, -, hok⟩ := h.opened a (.inl hphase)
      refine .of_idle h.atNode ?_ (by simp)
      rintro s ⟨⟩
      exact hok.search
  | @receive a wa e rest phase hphase hwa hsent hreceive =>
      obtain ⟨top, wa', hwa', hok⟩ := h.opened a (.inr hphase)
      obtain rfl : wa = wa' := Option.some.inj (hwa.symm.trans hwa')
      refine ⟨⟨h.atNode.myPos, h.atNode.topology⟩, ?_, ?_⟩
      · rintro s rfl
        exact hok.over_receive hsent hreceive
      · rintro a' (rfl | rfl)
        · exact absurd hreceive receive_ne_sending
        · obtain ⟨hforwarder, hok'⟩ := hok.waiting hsent hreceive
          refine ⟨top, _, ?_, hok'⟩
          rw [hforwarder]
          exact KeyedMap.get?_insert_self _ _ _
  | @timeout a phase hphase htimeout =>
      obtain ⟨top, wa, -, hok⟩ := h.opened a (.inr hphase)
      obtain ⟨⟨s, gn⟩, hgiveUp, htimeout⟩ := Outcome.bind_eq_ok.mp htimeout
      cases htimeout
      refine .of_idle h.atNode ?_ (by simp)
      rintro s' ⟨⟩
      exact (over_giveUp hok.search hok.minTarget.1 hgiveUp).1

lemma callInScope_of_run (hcall : call.Over n.topology)
    (hrun : Relation.ReflTransGen (Caller.Step (wireWorld V) cfg call) k k')
    (h : CallInScope n call k) : CallInScope n call k' := by
  induction hrun with
  | refl => exact h
  | tail _ hstep ih => exact hstep.callInScope hcall ih

/-- In order, a call panics only where the address of the node makes it. -/
lemma CallInScope.mem_callerSites (hcall : call.Over n.topology) (h : CallInScope n call k)
    {site : String} (hpanic : k.CanPanic cfg call site) : site ∈ callerSites n := by
  cases hpanic with
  | restart hphase hpanic =>
      obtain ⟨s, hs⟩ := startSearch_ok h.atNode hcall _
      rw [hs] at hpanic
      cases hpanic
  | elect gnodeExists hphase hpanic =>
      exact elect_panicsOnly h.atNode hcall gnodeExists site hpanic
  | serve gnodeExists outcome hphase helect hpanic =>
      exact servedLocally_panicsOnly h.atNode hcall outcome site hpanic
  | @forward s s' x site gnodeExists msgId hphase helect hpanic =>
      obtain ⟨rfl, hx, target, htarget, hlt⟩ := remote_of_elect h.atNode helect
      have hs : ({ s with hops := s.hops + 1 } : Search).Over n.topology :=
        (h.attempt s hphase).of_eq rfl rfl
      exact openAttempt_panicsOnly h.atNode hcall hs hx htarget hlt msgId site hpanic
  | @timeout a site hphase hpanic =>
      obtain ⟨top, wa, -, hok⟩ := h.opened a (.inr hphase)
      refine Outcome.PanicsOnly.bind ?_ (fun _ _ => Outcome.PanicsOnly.ok _) site hpanic
      exact giveUp_panicsOnly h.atNode hcall hok.minTarget.1 (hok.minTarget.2.trans_le hok.top_le)
  | @receive a wa e rest site hphase hwa hsent hpanic =>
      obtain ⟨top, wa', hwa', hok⟩ := h.opened a (.inr hphase)
      obtain rfl : wa = wa' := Option.some.inj (hwa.symm.trans hwa')
      exact receive_panicsOnly h.atNode hcall hok hsent site hpanic

end Runs

/-- **No peer can panic a caller.**  In every run of a call, whatever reports the decoder lets
through and in whatever order they arrive, no panic site of `contact_peer` is reached.  What is
left is an overflow of the distance, and from a virtual address the tuples made of it. -/
theorem contactPeer_sites_unreachable {n : Naddr} {cfg : PeerConfig} {call : ContactCall V}
    {k₀ k : Caller V} {hops : ℕ} (h₀ : k₀.phase = .restart hops) (hp : k₀.state.At n)
    (hcall : call.Over n.topology)
    (hrun : Relation.ReflTransGen (Caller.Step (wireWorld V) cfg call) k₀ k) :
    (∀ site, k.CanPanic cfg call site → site ∈ callerSites n) ∧
      ∀ site ∈ contactPeerSites, ¬ k.CanPanic cfg call site := by
  have hstart : CallInScope n call k₀ := by
    refine ⟨hp, fun s hs => ?_, fun a ha => ?_⟩
    · rw [h₀] at hs
      cases hs
    · rw [h₀] at ha
      rcases ha with ha | ha <;> cases ha
  have hleft : ∀ site, k.CanPanic cfg call site → site ∈ callerSites n := fun site =>
    (callInScope_of_run hcall hrun hstart).mem_callerSites hcall
  exact ⟨hleft, fun site hsite hpanic => notMem_contactPeerSites (hleft site hpanic) hsite⟩

lemma requireTupleNode_ring : requireTupleNode ringTopology (some [1]) =
    .ok (ringTuple 1 (by decide)) := by
  have hnew : tupleNodeFromWire ringTopology [1] = .ok (ringTuple 1 (by decide)) :=
    Outcome.mapErr_eq_ok.mpr (TupleNode.new_eq_ok.mpr ⟨rfl, rfl⟩)
  rw [requireTupleNode, hnew]
  rfl

/-- A call that waits with a respondant and its response on the channel. -/
theorem contactPeer_sites_unreachable_answered : ∃ k a,
    Relation.ReflTransGen (Caller.Step (wireWorld ℕ) ⟨100, 10⟩ ringCall) ringCaller k ∧
      k.phase = .waiting a ∧ ∀ site ∈ contactPeerSites, ¬ k.CanPanic ⟨100, 10⟩ ringCall site := by
  have hrun : ∃ k a, Relation.ReflTransGen (Caller.Step (wireWorld ℕ) ⟨100, 10⟩ ringCall)
      ringCaller k ∧ k.phase = .waiting a := by
    refine ⟨_, _, (((((Relation.ReflTransGen.refl.tail
      (.restart rfl rfl)).tail
      (.forward (fun _ => true) 5 rfl rfl rfl trivial rfl)).tail
      (.sent rfl)).tail
      (.command (.call 5 (.getRequest (ringTuple 1 (by decide)))) ?_ trivial)).tail
      (.command (.call 5 (.setResponse 42 (ringTuple 1 (by decide)))) ?_ trivial)), rfl⟩
    · rintro msgId report ⟨⟩
      exact ⟨.setResponse (some 42) (some [1]),
        Outcome.bind_eq_ok.mpr ⟨_, requireTupleNode_ring, rfl⟩⟩
    · rintro msgId report ⟨⟩
      exact ⟨.getRequest (some [1]),
        Outcome.bind_eq_ok.mpr ⟨_, requireTupleNode_ring, rfl⟩⟩
  obtain ⟨k, a, hsteps, hphase⟩ := hrun
  have hcall : ringCall.Over (ringNode 0).topology :=
    ⟨fun x hx => by cases hx; rfl, fun gn hgn => absurd hgn List.not_mem_nil⟩
  exact ⟨k, a, hsteps, hphase,
    (contactPeer_sites_unreachable (n := ringNode 0) rfl ⟨rfl, rfl⟩ hcall hsteps).2⟩

end Netsukuku
