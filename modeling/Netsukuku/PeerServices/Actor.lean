import Mathlib
import Netsukuku.Core.KeyedMap
import Netsukuku.PeerServices.Tuple

/-!
# The PeerServices actor

One task owns the registered services, what is known about who participates in which, and the
searches in flight.  A search is known by its message id: the caller registers it and gets the
receiving end of a channel, and the peers that work on the search report by that id.

* `PeerState.nonParticipantGnodes`, `PeerState.gnodeParticipates` — reading the participation.
* `WaitingAnswer` — one search: how deep it has come, who serves it, and the events not yet
  received.
* `PeerCall`, `WaitingAnswer.answer` — what a peer may report, and what is made of it.
* `PeerState.handle` — the commands that touch the searches.

Payloads are an arbitrary type `V`: nothing here looks into them.
-/

namespace Netsukuku

structure ServiceId where
  get : UInt16
  deriving DecidableEq, Repr

/-- A servant's refusal: the g-node of this level around it is not to be asked again. -/
structure Refusal where
  level : ℕ
  message : String
  deriving DecidableEq, Repr

inductive ExecError where
  | refuse (refusal : Refusal)
  | redoFromStart
  deriving DecidableEq, Repr

/-- What a waiting caller is told about its search. -/
inductive RouteEvent (V : Type) where
  | nextDestination (tuple : TupleGNode)
  | failure (tuple : TupleGNode)
  | nonParticipant (tuple : TupleGNode)
  | missingOptionalMaps
  | respondantNode (respondant : TupleNode)
  | response (response : V)
  | refuse (refusal : Refusal)
  | redoFromStart

/-- A search in flight; `sent` is the channel, oldest event first. -/
structure WaitingAnswer (V : Type) where
  minTarget : TupleGNode
  respondantNode : Option TupleNode
  request : Option V
  sent : List (RouteEvent V)

/-- What a peer reports about a search, or asks of it. -/
inductive PeerCall (V : Type) where
  | getRequest (respondant : TupleNode)
  | setResponse (response : V) (respondant : TupleNode)
  | setRefuseMessage (refusal : Refusal) (respondant : TupleNode)
  | setRedoFromStart (respondant : TupleNode)
  | setNextDestination (tuple : TupleGNode)
  | setFailure (tuple : TupleGNode)
  | setNonParticipant (tuple : TupleGNode)
  | setMissingOptionalMaps

inductive GetRequestOutcome where
  | unknownMessage
  | invalidRequest
  deriving DecidableEq, Repr

namespace WaitingAnswer

variable {V : Type}

/-- `RegisterWaiting`: nobody serves the search yet, and the channel is empty. -/
def new (minTarget : TupleGNode) (request : Option V) : WaitingAnswer V :=
  ⟨minTarget, none, request, []⟩

/-- `respondant_matches`: only the positions are compared. -/
def respondantMatches (wa : WaitingAnswer V) (respondant : TupleNode) : Bool :=
  wa.respondantNode.any fun r => decide (r.positions = respondant.positions)

/-- `is_deeper_or_equal`. -/
def isDeeperOrEqual (wa : WaitingAnswer V) (tuple : TupleGNode) (strictly : Bool) : Bool :=
  decide (wa.minTarget.top = tuple.top) &&
    if strictly then decide (tuple.level < wa.minTarget.level)
    else decide (tuple.level ≤ wa.minTarget.level)

def send (wa : WaitingAnswer V) (e : RouteEvent V) : WaitingAnswer V :=
  { wa with sent := wa.sent ++ [e] }

def sendIf (wa : WaitingAnswer V) (accepted : Bool) (e : RouteEvent V) : WaitingAnswer V :=
  if accepted then wa.send e else wa

/-- What a call makes of the search it is about.  A `get_request` from the right scope always
replaces the respondant; the answers that follow must name the one recorded. -/
def answer (wa : WaitingAnswer V) : PeerCall V → WaitingAnswer V
  | .getRequest respondant =>
      if wa.minTarget.top = respondant.top then
        { wa with respondantNode := some respondant }.send (.respondantNode respondant)
      else wa
  | .setResponse response respondant =>
      wa.sendIf (wa.respondantMatches respondant) (.response response)
  | .setRefuseMessage refusal respondant =>
      wa.sendIf (wa.respondantMatches respondant) (.refuse refusal)
  | .setRedoFromStart respondant => wa.sendIf (wa.respondantMatches respondant) .redoFromStart
  | .setNextDestination tuple =>
      if wa.isDeeperOrEqual tuple true then
        { wa with minTarget := tuple }.send (.nextDestination tuple)
      else wa
  | .setFailure tuple => wa.sendIf (wa.isDeeperOrEqual tuple false) (.failure tuple)
  | .setNonParticipant tuple =>
      wa.sendIf (wa.isDeeperOrEqual tuple false) (.nonParticipant tuple)
  | .setMissingOptionalMaps => wa.send .missingOptionalMaps

/-- The reply to `get_request`. -/
def getRequestReply (wa : WaitingAnswer V) (respondant : TupleNode) :
    Except GetRequestOutcome V :=
  if wa.minTarget.top = respondant.top then
    match wa.request with
    | some request => .ok request
    | none => .error .unknownMessage
  else .error .invalidRequest

end WaitingAnswer

/-- The part of the actor's state that routing reads and writes. -/
structure PeerState (V : Type) where
  topology : Topology
  myPos : Naddr
  /-- The services registered here, with whether they are optional. -/
  services : KeyedMap ServiceId Bool
  participantSet : KeyedMap ServiceId (List HCoord)
  waiting : KeyedMap Int32 (WaitingAnswer V)

/-- The commands that touch the searches. -/
inductive PeerCmd (V : Type) where
  | registerWaiting (msgId : Int32) (minTarget : TupleGNode) (request : Option V)
  | unregisterWaiting (msgId : Int32)
  | call (msgId : Int32) (call : PeerCall V)

namespace PeerState

variable {V : Type}

/-- A service nobody registered here counts as optional. -/
def isServiceOptional (p : PeerState V) (pId : ServiceId) : Bool :=
  (p.services.get? pId).getD true

/-- `non_participant_gnodes`: for an optional service, every visible g-node not known to
participate; myself only if the service is not registered here. -/
def nonParticipantGnodes (p : PeerState V) (pId : ServiceId) (targetLevels : ℕ) :
    Outcome Empty (List HCoord) :=
  if p.isServiceOptional pId then do
    let all ← allGnodesUpToLvl p.topology p.myPos.positions targetLevels
    let p₀ ← Outcome.index p.myPos.positions 0
    .ok ((all.filter fun h => decide (h ∉ (p.participantSet.get? pId).getD [])).filter fun h =>
      !(p.services.contains pId && decide (h = ⟨0, p₀⟩)))
  else .ok []

/-- `gnode_participates`. -/
def gnodeParticipates (p : PeerState V) (pId : ServiceId) (level : ℕ) : Bool :=
  p.services.contains pId ||
    ((p.participantSet.get? pId).getD []).any fun h => decide (h.level < level)

/-- `State::handle` on the searches. -/
def handle (p : PeerState V) : PeerCmd V → PeerState V
  | .registerWaiting msgId minTarget request =>
      { p with waiting := p.waiting.insert msgId (.new minTarget request) }
  | .unregisterWaiting msgId => { p with waiting := p.waiting.erase msgId }
  | .call msgId call =>
      match p.waiting.get? msgId with
      | some wa => { p with waiting := p.waiting.insert msgId (wa.answer call) }
      | none => p

/-- The reply to a `get_request` for `msgId`. -/
def getRequestReply (p : PeerState V) (msgId : Int32) (respondant : TupleNode) :
    Except GetRequestOutcome V :=
  match p.waiting.get? msgId with
  | some wa => wa.getRequestReply respondant
  | none => .error .unknownMessage

@[simp] lemma handle_myPos (p : PeerState V) (c : PeerCmd V) : (p.handle c).myPos = p.myPos := by
  cases c with
  | call msgId call =>
      simp only [handle]
      split <;> rfl
  | _ => rfl

@[simp] lemma handle_topology (p : PeerState V) (c : PeerCmd V) :
    (p.handle c).topology = p.topology := by
  cases c with
  | call msgId call =>
      simp only [handle]
      split <;> rfl
  | _ => rfl

@[simp] lemma handle_participantSet (p : PeerState V) (c : PeerCmd V) :
    (p.handle c).participantSet = p.participantSet := by
  cases c with
  | call msgId call =>
      simp only [handle]
      split <;> rfl
  | _ => rfl

/-- What a call does to the search it is about. -/
lemma get?_handle_call (p : PeerState V) (msgId : Int32) (call : PeerCall V) :
    (p.handle (.call msgId call)).waiting.get? msgId =
      (p.waiting.get? msgId).map fun wa => wa.answer call := by
  simp only [handle]
  cases h : p.waiting.get? msgId with
  | none => simpa using h
  | some wa => simp

/-- The commands about one search leave the others alone. -/
lemma get?_handle_of_ne (p : PeerState V) {msgId other : Int32} (hne : other ≠ msgId)
    (call : PeerCall V) :
    (p.handle (.call msgId call)).waiting.get? other = p.waiting.get? other := by
  simp only [handle]
  split
  · exact KeyedMap.get?_insert_of_ne _ _ hne
  · rfl

end PeerState

end Netsukuku
