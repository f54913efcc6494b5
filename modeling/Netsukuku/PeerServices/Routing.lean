import Mathlib
import Netsukuku.PeerServices.Actor

/-!
# Routing a request to its servant

`contact_peer` elects, among the g-nodes it knows, the one closest to the target, sends a message
there and waits.  `forward_msg` does the same election at every node the message reaches, each
time within the g-node reached, until a node elects itself and serves.  A failure, a refusal or a
timeout excludes what failed and elects again; some answers restart the whole search.

`contact_peer` is a loop that waits in several places, so it is a machine here: `Phase` is where
it stands, and `Caller.Step` one step of it or of the actor it shares the searches with.  What the
rest of the node does is open: which g-nodes exist, which commands arrive, what a service answers
and when a timeout fires.

* `startSearch`, `elect`, `servedLocally`, `openAttempt`, `Attempt.receive`, `Attempt.timeout` —
  the pieces of `contact_peer` between two waits.
* `Caller`, `Caller.Step` — the whole call, and what the actor does meanwhile.
* `Replication.Step` — `replicate`, one call after the other.
* `forwardMsg` — one election at a node the message has reached.

The origin signature of a message and its check are left out: a request that fails the check is
refused like any other.
-/

namespace Netsukuku

variable {V : Type}

structure PeerConfig where
  maxContactPeerHops : ℕ
  maxRefuseMessages : ℕ

/-- A request on its way, less its origin signature. -/
structure PeerMessageForwarder where
  insideLevel : ℕ
  n : TupleNode
  xMacron : Option TupleNode
  lvl : ℕ
  pos : UInt32
  pId : ServiceId
  msgId : Int32
  excludeTupleList : List TupleGNode
  nonParticipantTupleList : List TupleGNode

/-! ## Translating a message to the next scope -/

/-- The target, cut to the levels below `level`; the g-node of level 0 is the node itself. -/
def cutXMacron (t : Topology) (xMacron : Option TupleNode) (level : ℕ) :
    Outcome Empty (Option TupleNode) :=
  if 0 < level then do
    let x ← Outcome.expect "x.level > 0 implies x_macron is Some" xMacron
    let pos ← Outcome.slice x.positions 0 level
    let cut ← Outcome.unwrap "prefix of a valid tuple is valid" (TupleNode.new t pos)
    .ok (some cut)
  else .ok none

/-- An excluded g-node hidden inside the elected one, cut to its scope. -/
def cutExcluded (t : Topology) (myPos : List UInt32) (x : HCoord) (gn : TupleGNode) :
    Outcome Empty (Option TupleGNode) := do
  let (relation, ret) ← convertTupleGnode myPos gn
  if relation = .hidden ∧ ret = x then
    let stop ← Outcome.checkedSub x.level gn.level
    let pos ← Outcome.slice gn.positions 0 stop
    let cut ← Outcome.unwrap "prefix of a valid tuple is valid" (TupleGNode.new t x.level pos)
    .ok (some cut)
  else .ok none

/-- The excluded g-nodes the next hop has to know about. -/
def translateExcluded (t : Topology) (myPos : List UInt32) (x : HCoord)
    (excluded : List TupleGNode) : Outcome Empty (List TupleGNode) := do
  let cuts ← excluded.mapM (cutExcluded t myPos x)
  .ok (cuts.filterMap id)

/-- The non-participants the next hop may know about. -/
def translateNonParticipants (myPos : List UInt32) (x : HCoord) (gns : List TupleGNode) :
    Outcome Empty (List TupleGNode) := do
  let seen ← gns.mapM fun gn => visibleBySomeoneInsideMyGnode myPos gn (x.level + 1)
  .ok (((gns.zip seen).filter Prod.snd).map Prod.fst)

/-! ## The pieces of `contact_peer` -/

/-- The arguments of one call. -/
structure ContactCall (V : Type) where
  pId : ServiceId
  xMacron : Option TupleNode
  request : V
  excludeMyGnode : Option ℕ
  seedExcludeTupleList : List TupleGNode

def ContactCall.targetLevels (call : ContactCall V) : ℕ := (call.xMacron.map TupleNode.top).getD 0

/-- Why a call gave up. -/
inductive ContactPeerError where
  | noParticipants
  | database (message : String)
  | tooManyHops (max : ℕ)
  deriving DecidableEq, Repr

def formatRefusals (refusals : List Refusal) : String :=
  refusals.foldl (fun out r => out ++ r.message ++ " - ") ""

/-- What a search has learned since its last restart. -/
structure Search where
  hops : ℕ
  refuseMessages : List Refusal
  excludeGnodeList : List HCoord
  excludeTupleList : List TupleGNode
  nonParticipantTupleList : List TupleGNode

/-- The coordinate to exclude for a tuple, if I can see the g-node it names. -/
def excludeVisible (myPos : List UInt32) (gn : TupleGNode) : Outcome Empty (List HCoord) := do
  let (relation, ret) ← convertTupleGnode myPos gn
  .ok (if relation = .visible then [ret] else [])

/-- The g-nodes of mine the caller does not want asked. -/
def excludeMine (p : PeerState V) : Option ℕ → Outcome Empty (List HCoord)
  | none => .ok []
  | some lvl => allGnodesUpToLvl p.topology p.myPos.positions lvl

/-- The head of the restart loop. -/
def startSearch (p : PeerState V) (call : ContactCall V) (hops : ℕ) : Outcome Empty Search := do
  let nonParticipants ← p.nonParticipantGnodes call.pId call.targetLevels
  let mine ← excludeMine p call.excludeMyGnode
  let visible ← call.seedExcludeTupleList.mapM (excludeVisible p.myPos.positions)
  .ok ⟨hops, [], nonParticipants ++ mine ++ visible.flatten, call.seedExcludeTupleList, []⟩

inductive Election where
  | failed (e : ContactPeerError)
  | myself
  | remote (x : HCoord)

/-- The head of the attempt loop: count the hop and elect. -/
def elect (cfg : PeerConfig) (p : PeerState V) (call : ContactCall V)
    (gnodeExists : HCoord → Bool) (s : Search) : Outcome Empty (Search × Election) :=
  let s := { s with hops := s.hops + 1 }
  if cfg.maxContactPeerHops < s.hops then
    .ok (s, .failed (.tooManyHops cfg.maxContactPeerHops))
  else do
    match ← approximate p.topology p.myPos.positions call.xMacron s.excludeGnodeList gnodeExists with
    | none =>
        .ok (s, .failed (if s.refuseMessages = [] then .noParticipants
          else .database (formatRefusals s.refuseMessages)))
    | some x =>
        let p₀ ← Outcome.index p.myPos.positions 0
        .ok (s, if x = ⟨0, p₀⟩ then .myself else .remote x)

/-- Keeps the latest refusals. -/
def Search.refuse (cfg : PeerConfig) (s : Search) (refusal : Refusal) : Search :=
  let all := s.refuseMessages ++ [refusal]
  { s with refuseMessages := if cfg.maxRefuseMessages < all.length then all.tail else all }

/-- Excludes more of the g-nodes I can see. -/
def Search.excludeGnodes (s : Search) (hs : List HCoord) : Search :=
  { s with excludeGnodeList := s.excludeGnodeList ++ hs }

/-- Excludes a g-node given by its tuple. -/
def Search.excludeTuple (myPos : List UInt32) (s : Search) (gn : TupleGNode) :
    Outcome Empty Search := do
  let visible ← excludeVisible myPos gn
  .ok { s.excludeGnodes visible with excludeTupleList := s.excludeTupleList ++ [gn] }

/-- One attempt: the message sent, how deep it is known to have come, and who serves it. -/
structure Attempt where
  search : Search
  forwarder : PeerMessageForwarder
  minTarget : TupleGNode
  respondant : Option TupleNode

/-- Where a call stands. -/
inductive Phase (V : Type) where
  /-- At the head of the restart loop. -/
  | restart (hops : ℕ)
  /-- At the head of the attempt loop. -/
  | attempt (s : Search)
  /-- The attempt is registered and being forwarded. -/
  | sending (a : Attempt)
  /-- In the event loop. -/
  | waiting (a : Attempt)
  /-- Returned, with the message id of the answer, or none if the request was served here. -/
  | returned (msgId : Option Int32) (response : V) (respondant : TupleNode)
  | failed (e : ContactPeerError)

/-- The search whose channel the call holds. -/
def Phase.msgId : Phase V → Option Int32
  | .sending a => some a.forwarder.msgId
  | .waiting a => some a.forwarder.msgId
  | _ => none

/-- My own tuple in a scope of `targetLevels`. -/
def ownTuple (p : PeerState V) (targetLevels : ℕ) : Outcome Empty TupleNode :=
  if targetLevels = 0 then
    Outcome.unwrap "empty tuple is always valid" (TupleNode.new p.topology [])
  else do
    let p₀ ← Outcome.index p.myPos.positions 0
    makeTupleNode p.topology p.myPos.positions ⟨0, p₀⟩ targetLevels

/-- The call elected its own node: what the local service makes of it.  `none` if the service is
not registered here. -/
def servedLocally (cfg : PeerConfig) (p : PeerState V) (call : ContactCall V) (s : Search) :
    Option (Except ExecError V) → Outcome Empty (Phase V)
  | none => do
      let p₀ ← Outcome.index p.myPos.positions 0
      .ok (.attempt (s.excludeGnodes [⟨0, p₀⟩]))
  | some (.ok response) => do
      let respondant ← ownTuple p call.targetLevels
      .ok (.returned none response respondant)
  | some (.error .redoFromStart) => .ok (.restart s.hops)
  | some (.error (.refuse refusal)) => do
      let mine ← allGnodesUpToLvl p.topology p.myPos.positions refusal.level
      .ok (.attempt ((s.refuse cfg refusal).excludeGnodes mine))

/-- The message to the elected g-node, and the attempt that waits for its answer. -/
def openAttempt (p : PeerState V) (call : ContactCall V) (s : Search) (x : HCoord)
    (msgId : Int32) : Outcome Empty Attempt := do
  let p₀ ← Outcome.index p.myPos.positions 0
  let n ← makeTupleNode p.topology p.myPos.positions ⟨0, p₀⟩ (x.level + 1)
  let xMacron ← cutXMacron p.topology call.xMacron x.level
  let excluded ← translateExcluded p.topology p.myPos.positions x s.excludeTupleList
  let nonParticipants ← translateNonParticipants p.myPos.positions x s.nonParticipantTupleList
  let minTarget ← makeTupleGnode p.topology p.myPos.positions x (x.level + 1)
  .ok {
    search := s
    forwarder := ⟨call.targetLevels, n, xMacron, x.level, x.pos, call.pId, msgId, excluded,
      nonParticipants⟩
    minTarget
    respondant := none }

namespace Attempt

/-- Gives the attempt up and excludes a g-node, given in the scope of the attempt. -/
def giveUp (p : PeerState V) (call : ContactCall V) (a : Attempt) (gn : TupleGNode) :
    Outcome Empty (Search × TupleGNode) := do
  let gn ← rebaseTupleGnode p.myPos.positions gn call.targetLevels
  let s ← a.search.excludeTuple p.myPos.positions gn
  .ok (s, gn)

/-- The attempt timed out: what it was last known to have reached is excluded. -/
def timeout (p : PeerState V) (call : ContactCall V) (a : Attempt) : Outcome Empty (Phase V) := do
  let (s, _) ← a.giveUp p call a.minTarget
  .ok (.attempt s)

/-- What a refusal of the g-node `gn` excludes of the g-nodes I can see. -/
def refusedGnodes (p : PeerState V) (gn : TupleGNode) (level : ℕ) :
    Outcome Empty (List HCoord) := do
  match ← convertTupleGnode p.myPos.positions gn with
  | (.visible, ret) => .ok [ret]
  | (.mine, _) => allGnodesUpToLvl p.topology p.myPos.positions level
  | (.hidden, _) => .ok []

/-- A refusal by `respondant`: the g-node of the refused level around it is excluded; a level that
names none falls back to all of mine up to it. -/
def refused (cfg : PeerConfig) (p : PeerState V) (a : Attempt) (respondant : TupleNode)
    (refusal : Refusal) : Outcome Empty Search := do
  let s := a.search.refuse cfg refusal
  let gn ← tupleNodeToTupleGnode respondant
  match tupleGnodeContaining gn refusal.level with
  | .error (.panic site) => .error (.panic site)
  | .error (.err _) =>
      let mine ← allGnodesUpToLvl p.topology p.myPos.positions refusal.level
      .ok (s.excludeGnodes mine)
  | .ok gn =>
      let excluded ← refusedGnodes p gn refusal.level
      .ok { s.excludeGnodes excluded with excludeTupleList := s.excludeTupleList ++ [gn] }

/-- The event loop: what one event makes of the attempt. -/
def receive (cfg : PeerConfig) (p : PeerState V) (call : ContactCall V) (a : Attempt) :
    RouteEvent V → Outcome Empty (Phase V)
  | .nextDestination tuple => .ok (.waiting { a with minTarget := tuple })
  | .failure tuple => do
      let (s, _) ← a.giveUp p call tuple
      .ok (.attempt s)
  | .nonParticipant tuple => do
      let (s, gn) ← a.giveUp p call tuple
      .ok (.attempt { s with nonParticipantTupleList := s.nonParticipantTupleList ++ [gn] })
  | .missingOptionalMaps => .ok (.restart a.search.hops)
  | .respondantNode n =>
      match a.respondant with
      | none => do
          let respondant ← rebaseTupleNode p.myPos.positions n call.targetLevels
          .ok (.waiting { a with respondant := some respondant })
      | some _ => .ok (.waiting a)
  | .response response => do
      let respondant ← Outcome.expect "a Response only follows a registered respondant"
        a.respondant
      .ok (.returned (some a.forwarder.msgId) response respondant)
  | .refuse refusal =>
      match a.respondant with
      | none => .ok (.waiting a)
      | some respondant => do
          let s ← a.refused cfg p respondant refusal
          .ok (.attempt s)
  | .redoFromStart =>
      match a.respondant with
      | none => .ok (.waiting a)
      | some _ => .ok (.restart a.search.hops)

end Attempt

/-! ## The call and the actor -/

/-- A call in progress and the actor it runs beside, with the messages forwarded so far and the
responses the actor has accepted. -/
structure Caller (V : Type) where
  state : PeerState V
  phase : Phase V
  forwarded : List PeerMessageForwarder
  accepted : List (Int32 × V × TupleNode)

/-- The response a command brings, if its search waits for it. -/
def acceptedBy (p : PeerState V) : PeerCmd V → List (Int32 × V × TupleNode)
  | .call msgId (.setResponse response respondant) =>
      if (p.waiting.get? msgId).any fun wa => wa.respondantMatches respondant then
        [(msgId, response, respondant)]
      else []
  | _ => []

/-- What is open about the surroundings of a call. -/
structure World (V : Type) where
  /-- The commands that may arrive. -/
  command : Caller V → PeerCmd V → Prop
  /-- The message ids that may be drawn. -/
  draws : Caller V → Int32 → Prop
  /-- What the local service may answer in a call. -/
  serves : Caller V → ContactCall V → Option (Except ExecError V) → Prop

namespace Caller

/-- A command of somebody else: a new search takes a free id, and nobody else unregisters the
search the call waits for. -/
def Foreign (k : Caller V) : PeerCmd V → Prop
  | .registerWaiting msgId _ _ => k.state.waiting.contains msgId = false
  | .unregisterWaiting msgId => k.phase.msgId ≠ some msgId
  | .call _ _ => True

/-- One step of the call, or of the actor. -/
inductive Step (w : World V) (cfg : PeerConfig) (call : ContactCall V) :
    Caller V → Caller V → Prop where
  /-- The actor handles a command. -/
  | command {k : Caller V} (c : PeerCmd V) (hc : w.command k c) (hforeign : k.Foreign c) :
      Step w cfg call k
        { k with state := k.state.handle c, accepted := k.accepted ++ acceptedBy k.state c }
  /-- Services are registered, and participation becomes known. -/
  | registry {k : Caller V} (services : KeyedMap ServiceId Bool)
      (participantSet : KeyedMap ServiceId (List HCoord)) :
      Step w cfg call k { k with state := { k.state with services, participantSet } }
  | restart {k : Caller V} {hops : ℕ} {s : Search} (hphase : k.phase = .restart hops)
      (hstart : startSearch k.state call hops = .ok s) :
      Step w cfg call k { k with phase := .attempt s }
  | fail {k : Caller V} {s s' : Search} {e : ContactPeerError} (gnodeExists : HCoord → Bool)
      (hphase : k.phase = .attempt s)
      (helect : elect cfg k.state call gnodeExists s = .ok (s', .failed e)) :
      Step w cfg call k { k with phase := .failed e }
  /-- The call elects its own node, which serves unless the service is not registered. -/
  | myself {k : Caller V} {s s' : Search} {phase : Phase V} (gnodeExists : HCoord → Bool)
      (outcome : Option (Except ExecError V)) (hphase : k.phase = .attempt s)
      (helect : elect cfg k.state call gnodeExists s = .ok (s', .myself))
      (hserves : w.serves k call outcome)
      (hregistered : outcome = none ↔ k.state.services.contains call.pId = false)
      (hserved : servedLocally cfg k.state call s' outcome = .ok phase) :
      Step w cfg call k { k with phase }
  /-- The call elects another g-node: a new search is registered and its message goes out. -/
  | forward {k : Caller V} {s s' : Search} {x : HCoord} {a : Attempt}
      (gnodeExists : HCoord → Bool) (msgId : Int32) (hphase : k.phase = .attempt s)
      (helect : elect cfg k.state call gnodeExists s = .ok (s', .remote x))
      (hfree : k.state.waiting.contains msgId = false) (hdraws : w.draws k msgId)
      (hopen : openAttempt k.state call s' x msgId = .ok a) :
      Step w cfg call k
        { k with
          state := k.state.handle (.registerWaiting msgId a.minTarget (some call.request))
          phase := .sending a
          forwarded := k.forwarded ++ [a.forwarder] }
  | sent {k : Caller V} {a : Attempt} (hphase : k.phase = .sending a) :
      Step w cfg call k { k with phase := .waiting a }
  | notSent {k : Caller V} {a : Attempt} (hphase : k.phase = .sending a) :
      Step w cfg call k { k with phase := .attempt a.search }
  /-- The event loop takes the oldest event of its channel. -/
  | receive {k : Caller V} {a : Attempt} {wa : WaitingAnswer V} {e : RouteEvent V}
      {rest : List (RouteEvent V)} {phase : Phase V} (hphase : k.phase = .waiting a)
      (hwa : k.state.waiting.get? a.forwarder.msgId = some wa) (hsent : wa.sent = e :: rest)
      (hreceive : a.receive cfg k.state call e = .ok phase) :
      Step w cfg call k
        { k with
          state := { k.state with
            waiting := k.state.waiting.insert a.forwarder.msgId { wa with sent := rest } }
          phase }
  | timeout {k : Caller V} {a : Attempt} {phase : Phase V} (hphase : k.phase = .waiting a)
      (htimeout : a.timeout k.state call = .ok phase) :
      Step w cfg call k { k with phase }

/-- The search a call waits for stays registered, whatever command is handled, and only a call
about it changes it. -/
lemma pending_handle {k : Caller V} {msgId : Int32} {wa : WaitingAnswer V}
    (hid : k.phase.msgId = some msgId) (hwa : k.state.waiting.get? msgId = some wa) {c : PeerCmd V}
    (hforeign : k.Foreign c) :
    ∃ wa', (k.state.handle c).waiting.get? msgId = some wa' ∧
      (wa' = wa ∨ ∃ call, c = .call msgId call ∧ wa' = wa.answer call) := by
  cases c with
  | registerWaiting other minTarget request =>
      have hne : msgId ≠ other := by
        rintro rfl
        rw [Foreign, KeyedMap.contains, hwa] at hforeign
        cases hforeign
      exact ⟨wa, (KeyedMap.get?_insert_of_ne _ _ hne).trans hwa, .inl rfl⟩
  | unregisterWaiting other =>
      have hne : msgId ≠ other := by
        rintro rfl
        exact hforeign hid
      exact ⟨wa, (KeyedMap.get?_erase_of_ne _ hne).trans hwa, .inl rfl⟩
  | call other call =>
      by_cases hne : msgId = other
      · subst hne
        exact ⟨wa.answer call, by rw [PeerState.get?_handle_call, hwa]; rfl, .inr ⟨call, rfl, rfl⟩⟩
      · exact ⟨wa, (PeerState.get?_handle_of_ne _ hne call).trans hwa, .inl rfl⟩

end Caller

/-! ## Replication -/

/-- `replicate` between two calls. -/
structure Replication (V : Type) where
  caller : Caller V
  replicas : List (V × TupleNode)
  excludeTupleList : List TupleGNode

/-- The call for the next replica: every node collected so far is excluded. -/
def Replication.call (r : Replication V) (pId : ServiceId) (target : TupleNode) (request : V) :
    ContactCall V :=
  ⟨pId, some target, request, none, r.excludeTupleList⟩

/-- One round of `replicate`.  It may end before any round, by the deadline or a failed call, with
the replicas collected by then. -/
inductive Replication.Step (w : World V) (cfg : PeerConfig) (pId : ServiceId) (target : TupleNode)
    (request : V) (q : UInt32) : Replication V → Replication V → Prop where
  | round {r : Replication V} {k : Caller V} {msgId : Option Int32} {response : V}
      {respondant : TupleNode} {gn : TupleGNode} (hq : r.replicas.length % 2 ^ 32 < q.toNat)
      (hrun : Relation.ReflTransGen (Caller.Step w cfg (r.call pId target request))
        { r.caller with phase := .restart 0 } k)
      (hreturned : k.phase = .returned msgId response respondant)
      (hgn : tupleNodeToTupleGnode respondant = .ok gn) :
      Step w cfg pId target request q r
        ⟨k, r.replicas ++ [(response, respondant)], r.excludeTupleList ++ [gn]⟩

/-! ## The servant's side -/

/-- What a node does with a message. -/
inductive Forwarding where
  /-- The message is not for a g-node of mine: on towards it. -/
  | relay (target : HCoord)
  | missingOptionalMaps
  | nonParticipant (gn : TupleGNode)
  | failure (gn : TupleGNode)
  /-- I am elected: fetch the request and serve it, under this name. -/
  | serve (respondant : TupleNode)
  /-- On towards the elected g-node; the originator is told how deep the search has come. -/
  | handOver (x : HCoord) (mf : PeerMessageForwarder) (next : TupleGNode)

/-- What an excluded tuple excludes at a node inside its scope. -/
def excludeInside (t : Topology) (myPos : List UInt32) (gn : TupleGNode) :
    Outcome Empty (List HCoord) := do
  match ← convertTupleGnode myPos gn with
  | (.mine, ret) => allGnodesUpToLvl t myPos ret.level
  | (.visible, ret) => .ok [ret]
  | (.hidden, _) => .ok []

/-- The election of `forward_msg`, once the message is in the right g-node. -/
def forwardInside (p : PeerState V) (gnodeExists : HCoord → Bool) (mf : PeerMessageForwarder) :
    Outcome Empty Forwarding := do
  let nonParticipants ← p.nonParticipantGnodes mf.pId mf.insideLevel
  let excluded ← mf.excludeTupleList.mapM (excludeInside p.topology p.myPos.positions)
  match ← approximate p.topology p.myPos.positions mf.xMacron (nonParticipants ++ excluded.flatten)
      gnodeExists with
  | none =>
      let gn ← makeTupleGnode p.topology p.myPos.positions ⟨mf.lvl, mf.pos⟩ mf.n.top
      .ok (.failure gn)
  | some x =>
      let p₀ ← Outcome.index p.myPos.positions 0
      if x = ⟨0, p₀⟩ then
        let respondant ← makeTupleNode p.topology p.myPos.positions ⟨0, p₀⟩ mf.n.top
        .ok (.serve respondant)
      else
        let xMacron ← cutXMacron p.topology mf.xMacron x.level
        let excluded ← translateExcluded p.topology p.myPos.positions x mf.excludeTupleList
        let nonParticipants ←
          translateNonParticipants p.myPos.positions x mf.nonParticipantTupleList
        let next ← makeTupleGnode p.topology p.myPos.positions x mf.n.top
        .ok (.handOver x
          { mf with
            lvl := x.level
            pos := x.pos
            xMacron
            excludeTupleList := excluded
            nonParticipantTupleList := nonParticipants } next)

/-- `forward_msg`: relay, or check that this g-node can answer, then elect.  A hand-over no
gateway takes is elected again. -/
def forwardMsg (p : PeerState V) (belowLevel : ℕ) (gnodeExists : HCoord → Bool)
    (mf : PeerMessageForwarder) : Outcome Empty Forwarding := do
  let mine ← Outcome.index p.myPos.positions mf.lvl
  if mine ≠ mf.pos then .ok (.relay ⟨mf.lvl, mf.pos⟩)
  else if p.isServiceOptional mf.pId ∧ mf.xMacron.any fun x => decide (belowLevel < x.top) then
    .ok .missingOptionalMaps
  else if p.isServiceOptional mf.pId ∧ p.gnodeParticipates mf.pId mf.lvl = false then
    let gn ← makeTupleGnode p.topology p.myPos.positions ⟨mf.lvl, mf.pos⟩ mf.n.top
    .ok (.nonParticipant gn)
  else forwardInside p gnodeExists mf

end Netsukuku
