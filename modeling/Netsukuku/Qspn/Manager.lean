import Mathlib
import Netsukuku.Qspn.Flood

/-!
# The QSPN actor

One task owns the state and handles commands one at a time.  A handler never waits: what it wants
done (a fetch, a gather over all arcs, a send, a timer) is spawned, and the answer comes back as
another command.  `handle` is therefore a function from the actor and a command to the next actor
and the list of things spawned or published, in order.

* `ingestCheckedEtp` — record the peer, revise, update the map, climb the clusters.
* `handleInboundSendEtp`, `handleArcAddFetched`, `handleGatherComplete` — the three ways an ETP
  comes in, with what is forwarded.
* `handleInboundGetFullEtp` — the reply to a neighbour that asks for everything.
* `requestArcGather`, `handleArcGatherWindowElapsed` — the debounce of arc-change gathers.
* `handle` — the command dispatch.

`Err` results the source only logs leave the state as mutated so far (`Outcome.attempt`); a panic
ends the task and is the only way `handle` fails.
-/

namespace Netsukuku

variable {F : Type} [Float64 F]

/-- An open debounce window: the arc of the latest change, and whether a gather is owed. -/
structure PendingArcGather where
  latestArc : ArcId
  trailingOwed : Bool
  deriving DecidableEq, Repr

structure Actor (F : Type) where
  state : QspnState F
  arcGatherWindow : Option PendingArcGather

/-- What a handler spawns or publishes. -/
inductive Effect where
  | fetch (arc : ArcId)
  | bootstrapFetch (arc : ArcId)
  | gather (aChanged : Option ArcId) (extraDeadPaths : List EtpPath) (arcs : List ArcId)
  | exitBootstrapGather (arcs : List ArcId)
  | arcGatherWindow
  | unicast (arc : ArcId) (msg : EtpMessage) (isFull : Bool)
  | broadcast (arcs : List ArcId) (msg : EtpMessage) (isFull : Bool)
  | firstDetectionSplit (bSet : List HCoord)
  | splitTimers (signals : List SplitSignal)
  | emit (event : QspnEvent)
  | bootstrapComplete
  | publish (snapshot : RouteSnapshot)

/-- The arcs to send to, in order. -/
def arcIds (s : QspnState F) : List ArcId := s.arcs.keys

/-- `publish_snapshot`; a snapshot that cannot be built is only logged. -/
def publishSnapshot (s : QspnState F) : Outcome Empty (List Effect) := do
  let (_, snapshot) ← Outcome.attempt ((), s.snapshot)
  .ok (snapshot.toList.map .publish)

def publishIf (changed : Bool) (s : QspnState F) : Outcome Empty (List Effect) :=
  if changed then publishSnapshot s else .ok []

/-- `spawn_gather`. -/
def spawnGather (s : QspnState F) (aChanged : Option ArcId) (extraDeadPaths : List EtpPath) :
    Effect :=
  .gather aChanged extraDeadPaths (arcIds s)

/-- `spawn_broadcast`; with no arc to send to, nothing is spawned. -/
def spawnBroadcast (arcs : List ArcId) (msg : EtpMessage) (isFull : Bool) : List Effect :=
  if arcs = [] then [] else [.broadcast arcs msg isFull]

/-- `do_remove_arc`: the actor's own decision to drop an arc. -/
def doRemoveArc (s : QspnState F) (arc : ArcId) (badLink : Bool) :
    Outcome Empty (QspnState F × List Effect) := do
  let (s, removal) := s.removeArc arc
  let published ← publishIf (removal.events ≠ []) s
  .ok (s, removal.events.map .emit ++ [.emit (.arcRemoved arc badLink)] ++ published ++
    if removal.deadPaths = [] then [] else [spawnGather s none removal.deadPaths])

/-! ## Ingestion -/

/-- What ingesting one ETP leaves to be forwarded. -/
structure Ingested where
  hops : List HCoord
  allPathsSet : List EtpPath
  changedMyGnodes : Bool

/-- There is something to publish and to forward. -/
def Ingested.changed (i : Ingested) : Bool := decide (i.allPathsSet ≠ []) || i.changedMyGnodes

/-- What `update_map` and `update_clusters` make the actor emit and spawn. -/
def mapEffects (outcome : UpdateMapOutcome) (clusterEvents : List QspnEvent) : List Effect :=
  outcome.events.map .emit ++
    (if outcome.bSet = [] then [] else [.firstDetectionSplit outcome.bSet]) ++
    [.splitTimers outcome.splitSignals] ++ clusterEvents.map .emit

/-- `ingest_checked_etp`: a message that passed the incoming gate. -/
def ingestCheckedEtp (order : MapOrder) (s : QspnState F) (arc : ArcId) (etp : EtpMessage)
    (isFull : Bool) : Outcome Empty (QspnState F × List Effect × Option Ingested) := do
  let (s, revised) ← Outcome.attempt (s.reviseOver arc etp isFull)
  match revised with
  | none => .ok (s, [], none)
  | some revised =>
      let (s, outcome) ← Outcome.attempt (updateMap order s revised.paths none)
      match outcome with
      | none => .ok (s, [], none)
      | some outcome =>
          let (s, climbed) ← Outcome.attempt s.updateClusters
          let clusterEvents := climbed.getD []
          .ok (s, mapEffects outcome clusterEvents,
            some ⟨revised.hops, outcome.allPathsSet, decide (clusterEvents ≠ [])⟩)

/-- `ingest_incoming_etp`: the gate, then the ingestion; junk costs the sender the arc. -/
def ingestIncomingEtp (order : MapOrder) (s : QspnState F) (arc : ArcId) (etp : EtpMessage)
    (isFull : Bool) : Outcome Empty (QspnState F × List Effect × Option Ingested) :=
  if checkIncomingMessage etp s.myNaddr then ingestCheckedEtp order s arc etp isFull
  else do
    let (s, effects) ← doRemoveArc s arc false
    .ok (s, effects, none)

/-- Publish what changed, and forward it to every other arc. -/
def forwardIngested (s : QspnState F) (arc : ArcId) (i : Ingested) :
    Outcome Empty (List Effect) := do
  let published ← publishIf i.changed s
  if i.changed ∧ 1 < (arcIds s).length then
    let paths ← finalizeForSending s i.allPathsSet
    let msg ← prepareNewEtp s paths i.hops
    .ok (published ++ spawnBroadcast ((arcIds s).filter fun a => decide (a ≠ arc)) msg false)
  else .ok published

/-! ## Bootstrap of an entering identity -/

/-- `do_exit_bootstrap`. -/
def doExitBootstrap (s : QspnState F) :
    Outcome Empty (QspnState F × List Effect) := do
  let s := { s with bootstrap := .complete }
  let published ← publishSnapshot s
  .ok (s, published ++ [.bootstrapComplete, .exitBootstrapGather (arcIds s)])

/-- An ETP during bootstrap ends it if it comes from inside the hooking g-node and reaches the
g-node being entered. -/
def endsBootstrap (s : QspnState F) (guest host : ℕ) (etp : EtpMessage) : Bool :=
  match (s.myNaddr.hcoord etp.nodeAddress).toOption.join with
  | none => false
  | some sender =>
      decide (sender.level < guest) && etp.paths.any fun p =>
        match p.hops.getLast? with
        | some h => decide (h.level = host - 1)
        | none => false

/-- `handle_bootstrap_etp_fetched`. -/
def handleBootstrapEtpFetched (order : MapOrder) (s : QspnState F) (arc : ArcId)
    (result : Option EtpMessage) :
    Outcome Empty (QspnState F × List Effect) :=
  match s.bootstrap with
  | .complete => .ok (s, [])
  | .inProgress guest host =>
      if !s.containsArc arc then .ok (s, [])
      else
        match result with
        | none => doRemoveArc s arc true
        | some etp =>
            match (s.myNaddr.hcoord etp.nodeAddress).toOption.join with
            | none => .ok (s, [])
            | some sender =>
                if sender.level < guest ∨ host ≤ sender.level then .ok (s, [])
                else do
                  let (s, effects, _) ← ingestIncomingEtp order s arc etp true
                  let (s, exits) ← doExitBootstrap s
                  .ok (s, effects ++ exits)

/-- `handle_bootstrap_timeout`. -/
def handleBootstrapTimeout (s : QspnState F) :
    Outcome Empty (QspnState F × List Effect) :=
  if s.isBootstrapComplete then .ok (s, []) else doExitBootstrap s

/-- One gathered reply at the end of bootstrap. -/
def exitBootstrapStep (order : MapOrder) (acc : QspnState F × List Effect × Bool)
    (reply : ArcId × Option EtpMessage) : Outcome Empty (QspnState F × List Effect × Bool) :=
  let (s, effects, changed) := acc
  if !s.containsArc reply.1 then .ok acc
  else
    match reply.2 with
    | none => do
        let (s, removed) ← doRemoveArc s reply.1 true
        .ok (s, effects ++ removed, changed)
    | some etp => do
        let (s, more, ingested) ← ingestIncomingEtp order s reply.1 etp true
        .ok (s, effects ++ more, changed || ingested.any Ingested.changed)

/-- `handle_exit_bootstrap_gathered`. -/
def handleExitBootstrapGathered (order : MapOrder) (s : QspnState F)
    (results : List (ArcId × Option EtpMessage)) :
    Outcome Empty (QspnState F × List Effect) := do
  let (s, effects, changed) ← results.foldlM (exitBootstrapStep order) (s, [], false)
  let published ← publishIf changed s
  if 0 < (arcIds s).length then
    let msg ← prepareFullEtp s
    .ok (s, effects ++ published ++ spawnBroadcast (arcIds s) msg true)
  else .ok (s, effects ++ published)

/-! ## Arcs -/

/-- `handle_add_arc`: the first id the source draws that is not in use. -/
def handleAddArc (s : QspnState F) (drawn : List ArcId) (cost : Cost) : QspnState F × List Effect :=
  match drawn.find? fun id => !s.containsArc id with
  | none => (s, [])
  | some id => (s.addArc id cost,
      [if s.isBootstrapComplete then .fetch id else .bootstrapFetch id])

/-- `handle_arc_add_fetched`. -/
def handleArcAddFetched (order : MapOrder) (s : QspnState F) (arc : ArcId)
    (result : Option EtpMessage) :
    Outcome Empty (QspnState F × List Effect) :=
  if !s.containsArc arc then .ok (s, [])
  else
    match result with
    | none => doRemoveArc s arc true
    | some etp => do
        let (s, effects, ingested) ← ingestIncomingEtp order s arc etp true
        match ingested with
        | none => .ok (s, effects)
        | some ingested =>
            let forwarded ← forwardIngested s arc ingested
            let full ← prepareFullEtp s
            .ok (s, effects ++ forwarded ++ [.unicast arc full true])

/-- `request_arc_gather`: gather now and open a window, or note the change in the open one. -/
def requestArcGather (a : Actor F) (arc : ArcId) : Actor F × List Effect :=
  match a.arcGatherWindow with
  | none => ({ a with arcGatherWindow := some ⟨arc, false⟩ },
      [spawnGather a.state (some arc) [], .arcGatherWindow])
  | some _ => ({ a with arcGatherWindow := some ⟨arc, true⟩ }, [])

/-- `handle_arc_gather_window_elapsed`: an owed gather is spawned and opens a fresh window. -/
def handleArcGatherWindowElapsed (a : Actor F) : Actor F × List Effect :=
  match a.arcGatherWindow with
  | none => (a, [])
  | some pending =>
      if pending.trailingOwed then
        ({ a with arcGatherWindow := some ⟨pending.latestArc, false⟩ },
          [spawnGather a.state (some pending.latestArc) [], .arcGatherWindow])
      else ({ a with arcGatherWindow := none }, [])

/-- `handle_arc_changed`. -/
def handleArcChanged (a : Actor F) (arc : ArcId) (cost : Cost) : Actor F × List Effect :=
  if a.state.containsArc arc then
    let a := { a with state := a.state.setArcCost arc cost }
    if a.state.isBootstrapComplete then requestArcGather a arc else (a, [])
  else (a, [])

/-- `handle_remove_arc`: the owner asks for the removal. -/
def handleRemoveArc (s : QspnState F) (arc : ArcId) :
    Outcome Empty (QspnState F × List Effect) :=
  if s.containsArc arc ∧ s.isBootstrapComplete then do
    let (s, removal) := s.removeArc arc
    let published ← publishIf (removal.events ≠ []) s
    .ok (s, removal.events.map .emit ++ published ++ [spawnGather s none removal.deadPaths])
  else .ok (s, [])

/-- One gathered reply: the arc is dropped if it failed or sent junk, and the revised candidates
are collected otherwise. -/
def gatherStep (acc : QspnState F × List Effect × List NodePath)
    (reply : ArcId × Option EtpMessage) :
    Outcome Empty (QspnState F × List Effect × List NodePath) :=
  let (s, effects, q) := acc
  if !s.containsArc reply.1 then .ok acc
  else
    match reply.2 with
    | none => do
        let (s, removed) ← doRemoveArc s reply.1 true
        .ok (s, effects ++ removed, q)
    | some etp =>
        if checkIncomingMessage etp s.myNaddr then do
          let (s, revised) ← Outcome.attempt (s.reviseOver reply.1 etp true)
          match revised with
          | none => .ok (s, effects, q)
          | some revised => .ok (s, effects, q ++ revised.paths)
        else do
          let (s, removed) ← doRemoveArc s reply.1 false
          .ok (s, effects ++ removed, q)

/-- `handle_gather_complete`: one map update for all replies. -/
def handleGatherComplete (order : MapOrder) (s : QspnState F) (aChanged : Option ArcId)
    (extraDeadPaths : List EtpPath) (results : List (ArcId × Option EtpMessage)) :
    Outcome Empty (QspnState F × List Effect) := do
  let (s, effects, q) ← results.foldlM gatherStep (s, [], [])
  let (s, outcome) ← Outcome.attempt (updateMap order s q aChanged)
  match outcome with
  | none => .ok (s, effects)
  | some outcome =>
      let (s, climbed) ← Outcome.attempt s.updateClusters
      let clusterEvents := climbed.getD []
      let allPathsSet := outcome.allPathsSet ++ extraDeadPaths
      let changed := decide (allPathsSet ≠ []) || decide (clusterEvents ≠ [])
      let published ← publishIf changed s
      let effects := effects ++ mapEffects outcome clusterEvents ++ published
      if changed ∧ 0 < (arcIds s).length then
        let paths ← finalizeForSending s allPathsSet
        let msg ← prepareNewEtp s paths []
        .ok (s, effects ++ spawnBroadcast (arcIds s) msg false)
      else .ok (s, effects)

/-! ## Inbound messages -/

/-- `handle_inbound_get_full_etp`: everything the requester may need, less what it lies on. -/
def handleInboundGetFullEtp (s : QspnState F) (arc : ArcId) (requestingAddress : Naddr) :
    Outcome QspnError EtpMessage :=
  if !s.isBootstrapComplete then Outcome.fail .bootstrapInProgress
  else if !s.containsArc arc then Outcome.fail .notAnArc
  else do
    match ← (s.myNaddr.hcoord requestingAddress).mapErr .common with
    | none => Outcome.fail .etpFromSelf
    | some b =>
        let wire := (((List.range' b.level (s.levels - b.level)).flatMap s.allPathsAt).filter
          fun np => decide (b ∉ np.path.hops)).map fun np =>
            prepareForSending np (s.arcCost np.arc)
        let paths ← finalizeForSending s wire
        prepareNewEtp s paths []

/-- `handle_inbound_send_etp`. -/
def handleInboundSendEtp (order : MapOrder) (s : QspnState F) (arc : ArcId) (etp : EtpMessage)
    (isFull : Bool) :
    Outcome Empty (QspnState F × List Effect) :=
  if !s.containsArc arc then .ok (s, [])
  else if !checkIncomingMessage etp s.myNaddr then doRemoveArc s arc false
  else
    match s.bootstrap with
    | .inProgress guest host =>
        if endsBootstrap s guest host etp then do
          let (s, effects, _) ← ingestCheckedEtp order s arc etp isFull
          let (s, exits) ← doExitBootstrap s
          .ok (s, effects ++ exits)
        else .ok (s, [])
    | .complete => do
        let (s, effects, ingested) ← ingestCheckedEtp order s arc etp isFull
        match ingested with
        | none => .ok (s, effects)
        | some ingested =>
            let forwarded ← forwardIngested s arc ingested
            .ok (s, effects ++ forwarded)

/-! ## Timers and leaving -/

/-- `handle_periodic_full_etp`. -/
def handlePeriodicFullEtp (s : QspnState F) :
    Outcome Empty (QspnState F × List Effect) :=
  if arcIds s = [] then .ok (s, [])
  else do
    let msg ← prepareFullEtp s
    .ok (s, spawnBroadcast (arcIds s) msg true)

/-- `handle_first_detection_split`: tell everyone about the forked destinations. -/
def handleFirstDetectionSplit (s : QspnState F) (bSet : List HCoord) :
    Outcome Empty (QspnState F × List Effect) := do
  let wire := (bSet.flatMap fun g =>
    ((s.destination g.level g.pos).map Destination.paths).getD []).map fun np =>
      prepareForSending np (s.arcCost np.arc)
  if wire = [] then .ok (s, [])
  else
    let paths ← finalizeForSending s wire
    let msg ← prepareNewEtp s paths []
    .ok (s, spawnBroadcast (arcIds s) msg false)

/-- `handle_exit_network`. -/
def handleExitNetwork (s : QspnState F) (level : ℕ) :
    Outcome Empty (QspnState F × List Effect) := do
  let (s, outcome) ← Outcome.attempt (s.exitNetwork level)
  match outcome with
  | none => .ok (s, [])
  | some (events, _) =>
      let published ← publishIf (events ≠ []) s
      if 0 < (arcIds s).length then
        let msg ← prepareFullEtp s
        .ok (s, events.map .emit ++ published ++ spawnBroadcast (arcIds s) msg true)
      else .ok (s, events.map .emit ++ published)

/-! ## The dispatch -/

/-- The commands that read or change the routing state. -/
inductive Command where
  | addArc (drawn : List ArcId) (cost : Cost)
  | arcAddFetched (arc : ArcId) (result : Option EtpMessage)
  | arcChanged (arc : ArcId) (cost : Cost)
  | removeArc (arc : ArcId)
  | gatherComplete (aChanged : Option ArcId) (extraDeadPaths : List EtpPath)
      (results : List (ArcId × Option EtpMessage))
  | sendEtp (arc : ArcId) (etp : EtpMessage) (isFull : Bool)
  | gotDestroy (arc : ArcId)
  | resendEtp (arc : ArcId) (etp : EtpMessage) (isFull : Bool)
  | resendFailed (arc : ArcId)
  | periodicFullEtp
  | bootstrapEtpFetched (arc : ArcId) (result : Option EtpMessage)
  | bootstrapTimeout
  | exitBootstrapGathered (results : List (ArcId × Option EtpMessage))
  | exitNetwork (level : ℕ)
  | firstDetectionSplitFire (bSet : List HCoord)
  | arcGatherWindowElapsed

/-- A handler of the state alone leaves the debounce window as it is. -/
def Actor.lift (a : Actor F) (h : Outcome Empty (QspnState F × List Effect)) : Outcome Empty (Actor F × List Effect) := do
  let (s, effects) ← h
  .ok ({ a with state := s }, effects)

/-- `Actor::handle`. -/
def Actor.handle (order : MapOrder) (a : Actor F) : Command →
    Outcome Empty (Actor F × List Effect)
  | .addArc drawn cost => a.lift (.ok (handleAddArc a.state drawn cost))
  | .arcAddFetched arc result => a.lift (handleArcAddFetched order a.state arc result)
  | .arcChanged arc cost => .ok (handleArcChanged a arc cost)
  | .removeArc arc => a.lift (handleRemoveArc a.state arc)
  | .gatherComplete aChanged extra results =>
      a.lift (handleGatherComplete order a.state aChanged extra results)
  | .sendEtp arc etp isFull => a.lift (handleInboundSendEtp order a.state arc etp isFull)
  | .gotDestroy arc => a.lift (doRemoveArc a.state arc false)
  | .resendEtp arc etp isFull =>
      .ok (a, if a.state.containsArc arc then [.unicast arc etp isFull] else [])
  | .resendFailed arc => a.lift (doRemoveArc a.state arc true)
  | .periodicFullEtp => a.lift (handlePeriodicFullEtp a.state)
  | .bootstrapEtpFetched arc result => a.lift (handleBootstrapEtpFetched order a.state arc result)
  | .bootstrapTimeout => a.lift (handleBootstrapTimeout a.state)
  | .exitBootstrapGathered results => a.lift (handleExitBootstrapGathered order a.state results)
  | .exitNetwork level => a.lift (handleExitNetwork a.state level)
  | .firstDetectionSplitFire bSet => a.lift (handleFirstDetectionSplit a.state bSet)
  | .arcGatherWindowElapsed => .ok (handleArcGatherWindowElapsed a)

end Netsukuku
