import Mathlib
import Netsukuku.Neighborhood.Arc
import Netsukuku.Proto.Sequence

/-!
# The neighbourhood manager

The actor that owns the monitored interfaces and the arcs, with the handler of each of its
commands.  What leaves the actor is a list of outputs, in order: calls of the route manager, events
and broadcasts.  Signatures of outbound calls and the published snapshot are left out, no handler
reads them.

* `Ran` — a state with what has been output and which tasks have been spawned on the way to it.
* `Manager.handle` — one command.  The clock, the order in which a map is iterated, the links the
  kernel reports, the address a new interface gets and whether it could be assigned come from an
  `Input`.
-/

namespace Netsukuku.Neighborhood

/-- A cancellation token, by its number. -/
abbrev Token : Type := ℕ

/-- A monitored interface. -/
structure NicState where
  mac : Mac
  localAddress : NicAddr
  radarCancel : Token
  deriving DecidableEq

/-- An arc and what the manager keeps of it.  `inserted` is the token made when the entry was
inserted: it tells one insertion under a MAC from the next and is read by no handler. -/
structure ArcEntry where
  arc : Arc
  monitorCancel : Token
  createdAt : ℕ
  consecutiveNoRtt : ℕ
  verifiedKey : Option VerifyingKey
  inserted : Token
  deriving DecidableEq

/-- The manager.  `tokens` is the number of tokens made so far. -/
structure Manager where
  myId : NodeId
  maxArcs : ℕ
  requireAuth : Bool
  nics : KeyedMap Dev NicState
  disabling : Finset Dev
  arcs : KeyedMap Mac ArcEntry
  sequenceGuard : SequenceGuard VerifyingKey
  tokens : Token
  cancelled : Finset Token

/-! ## What leaves the actor -/

inductive Event where
  | arcAdded (arc : Arc)
  | arcRemoved (arc : Arc)
  | arcCostChanged (arc : Arc)
  deriving DecidableEq

/-- The arc an event is about. -/
def Event.arc : Event → Arc
  | .arcAdded arc => arc
  | .arcRemoved arc => arc
  | .arcCostChanged arc => arc

inductive IpRouteOperation where
  | addAddress (dev : Dev) (addr : NicAddr)
  | removeAddress (dev : Dev) (addr : NicAddr)
  | addNeighbor (dev : Dev) (myAddr neighborAddr : NicAddr)
  | removeNeighbor (dev : Dev) (myAddr neighborAddr : NicAddr)
  deriving DecidableEq, Repr

/-- The arguments of `request_arc` and `remove_arc`. -/
structure NeighborhoodArcArgs where
  yourId : NodeId
  yourMac : Mac
  yourNicAddr : NicAddr
  myId : NodeId
  myMac : Mac
  myNicAddr : NicAddr
  deriving DecidableEq

inductive Output where
  | ip (op : IpRouteOperation)
  | event (e : Event)
  | requestArc (dev : Dev) (args : NeighborhoodArcArgs)
  | removeArc (dev : Dev) (args : NeighborhoodArcArgs)
  deriving DecidableEq

inductive MonitorOutcome where
  | nopFailed
  | noRtt
  | firstSample (rtt : UInt64)
  | sample (smoothed : UInt64)
  deriving DecidableEq

/-- The MAC and the address of one of our interfaces. -/
structure NicRef where
  mac : Mac
  nicAddr : NicAddr
  deriving DecidableEq, Repr

/-- `ArcMonitorContext`, with the insertion the task was spawned for. -/
structure ArcMonitorContext where
  key : Mac
  arc : Arc
  callerNic : NicRef
  inserted : Token
  deriving DecidableEq

/-- A task.  `reporting` has passed the check of its token and is about to send; it goes on as a
monitor if there is something to go on with. -/
inductive ArcTask where
  | negotiation (mac : Mac) (canI : Bool) (inserted : Token)
  | monitor (ctx : ArcMonitorContext) (cancel : Token) (smoothed : Option UInt64)
  | confirmation (ctx : ArcMonitorContext) (cancel : Token)
  | reporting (ctx : ArcMonitorContext) (outcome : MonitorOutcome)
      (next : Option (Token × Option UInt64))
  deriving DecidableEq

/-- A state, with what has been output and spawned on the way to it. -/
structure Ran where
  state : Manager
  outputs : List Output
  tasks : List ArcTask

namespace Ran

def pure (s : Manager) : Ran := ⟨s, [], []⟩

/-- First one, then the other. -/
def andThen (r : Ran) (f : Manager → Ran) : Ran :=
  ⟨(f r.state).state, r.outputs ++ (f r.state).outputs, r.tasks ++ (f r.state).tasks⟩

/-- Outputs after the rest. -/
def output (r : Ran) (outs : List Output) : Ran := { r with outputs := r.outputs ++ outs }

/-- One step for each element of a list. -/
def forEach {α : Type} (l : List α) (f : α → Manager → Ran) (s : Manager) : Ran :=
  l.foldl (fun r a => r.andThen (f a)) (pure s)

end Ran

/-! ## Commands -/

structure LinkInfo where
  name : Dev
  isUp : Bool
  deriving DecidableEq, Repr

inductive NeighborhoodError where
  | unknownInterface (dev : Dev)
  | interfaceDown (dev : Dev)
  | alreadyMonitored (dev : Dev)
  | netlink
  deriving DecidableEq, Repr

structure LocalNic where
  dev : Dev
  mac : Mac
  deriving DecidableEq, Repr

/-- Who signed a call, and with which sequence. -/
abbrev Verified : Type := Option (VerifyingKey × UInt64)

/-- A command.  The last argument of a task's result is the insertion the task was spawned for,
which no handler reads. -/
inductive Command where
  | startMonitor (nic : LocalNic)
  | stopMonitor (dev : Dev)
  | syncInterfaces
  | hereIAm (receivedOnDev : Dev) (senderId : NodeId) (senderMac : Mac) (senderNicAddr : NicAddr)
      (verified : Verified)
  | requestArc (receivedOnDev : Dev) (destId : NodeId) (destMac : Mac) (destNicAddr : NicAddr)
      (senderId : NodeId) (senderMac : Mac) (senderNicAddr : NicAddr) (verified : Verified)
  | canYouExport (callerId : NodeId) (callerMac : Mac) (callerNicAddr : NicAddr)
      (peerCanExport : Bool) (verified : Verified)
  | removeArc (receivedOnDev : Dev) (destId : NodeId) (destMac : Mac) (destNicAddr : NicAddr)
      (senderId : NodeId) (senderMac : Mac) (senderNicAddr : NicAddr) (verified : Verified)
  | nop (callerId : NodeId) (callerMac : Mac) (callerNicAddr : NicAddr) (verified : Verified)
  | monitorResult (key : Mac) (outcome : MonitorOutcome) (inserted : Token)
  | requestArcNegotiated (mac : Mac) (canI canYou : Bool) (inserted : Token)
  deriving DecidableEq

/-- What a command is answered with. -/
inductive Reply where
  | empty
  | boolean (b : Bool)
  | rejected (message : String)
  | started (result : Except NeighborhoodError Unit)
  | stopped
  | synced (devs : List Dev)
  | nothing

/-- What the manager does not decide itself. -/
structure Input where
  now : ℕ
  arcOrder : HashOrder (Mac × ArcEntry)
  nicOrder : HashOrder (Dev × NicState)
  signerOrder : HashOrder (VerifyingKey × UInt64 × UInt64)
  links : Option (List LinkInfo)
  newLinklocalAddress : NicAddr
  addAddress : Except NeighborhoodError Unit

namespace Manager

/-- `PENDING_ARC_MULTIPLIER`. -/
def pendingArcMultiplier : ℕ := 4

/-- `PENDING_ARC_TTL`, in nanoseconds. -/
def pendingArcTtl : ℕ := 180000000000

/-- `NO_RTT_FALLBACK_THRESHOLD`. -/
def noRttFallbackThreshold : ℕ := 3

/-- `NO_RTT_FALLBACK_COST_US`. -/
def noRttFallbackCostUs : UInt64 := 1000000

/-- `Manager::spawn`. -/
def spawn (myId : NodeId) (maxArcs : ℕ) (requireAuth : Bool) : Manager :=
  ⟨myId, maxArcs, requireAuth, KeyedMap.empty, ∅, KeyedMap.empty, SequenceGuard.new, 0, ∅⟩

/-- Stores an entry that is there already. -/
def setEntry (s : Manager) (mac : Mac) (entry : ArcEntry) : Manager :=
  { s with arcs := s.arcs.insert mac entry }

/-! ## Checks -/

/-- `authenticate`. -/
def authenticate (i : Input) (mac : Mac) (verified : Verified) (s : Manager) :
    Manager × Except String Unit :=
  match verified with
  | none =>
      if s.requireAuth then
        (s, .error "require_auth is enabled and this call carried no valid Auth")
      else if (s.arcs.get? mac).any (·.verifiedKey.isSome) then
        (s, .error ("this arc's identity has a pinned signer key; " ++
          "an unauthenticated message cannot act on it"))
      else (s, .ok ())
  | some (key, sequence) =>
      match s.sequenceGuard.observe i.signerOrder key sequence with
      | (g, .error e) =>
          ({ s with sequenceGuard := g }, .error ("auth replay rejected: " ++ e.message))
      | (g, .ok ()) =>
          let s' := { s with sequenceGuard := g }
          match s.arcs.get? mac with
          | some entry =>
              match entry.verifiedKey with
              | some pinned =>
                  if pinned ≠ key then
                    (s', .error "auth: signer key does not match this arc's previously verified key")
                  else (s', .ok ())
              | none => (s'.setEntry mac { entry with verifiedKey := some key }, .ok ())
          | none => (s', .ok ())

/-- `peer_nic_addr_acceptable`. -/
def peerNicAddrAcceptable (s : Manager) (itsMac : Mac) (itsNicAddr : NicAddr) : Bool :=
  isLinkLocal itsNicAddr &&
    !s.nics.values.any (fun nic => nic.localAddress = itsNicAddr) &&
    !s.arcs.values.any (fun e =>
      e.arc.neighbourNicAddr = itsNicAddr && e.arc.neighbourMac ≠ itsMac)

/-- `find_collision`. -/
def findCollision (s : Manager) (itsMac : Mac) (itsNicAddr : NicAddr) (itsId : NodeId)
    (myDev : Dev) : Bool :=
  s.arcs.values.any fun e =>
    (e.arc.neighbourMac = itsMac && e.arc.neighbourId ≠ itsId) ||
    (e.arc.neighbourMac = itsMac && e.arc.neighbourNicAddr ≠ itsNicAddr) ||
    (e.arc.neighbourMac = itsMac && e.arc.myDev ≠ myDev) ||
    (e.arc.neighbourId = itsId && e.arc.myDev = myDev && e.arc.neighbourMac ≠ itsMac)

/-- `exported_count`. -/
def exportedCount (s : Manager) : ℕ :=
  s.arcs.values.countP fun e => e.arc.state = .established

/-- `pending_count`. -/
def pendingCount (s : Manager) : ℕ :=
  s.arcs.values.countP fun e => e.arc.state ≠ .established

/-- `pending_arc_cap`, with a saturating multiplication. -/
def pendingArcCap (s : Manager) : ℕ := min (s.maxArcs * pendingArcMultiplier) (2 ^ 64 - 1)

/-! ## Removing and exporting -/

/-- The arguments of a call about `arc` over `nic`. -/
def arcArgs (s : Manager) (nic : NicState) (id : NodeId) (mac : Mac) (addr : NicAddr) :
    NeighborhoodArcArgs :=
  ⟨id, mac, addr, s.myId, nic.mac, nic.localAddress⟩

/-- What `remove_my_arc` outputs for an entry on `nic`. -/
def removalOutputs (s : Manager) (entry : ArcEntry) (isStillUsable : Bool) : List Output :=
  let arc := entry.arc
  (match s.nics.get? arc.myDev with
    | some nic =>
        .ip (.removeNeighbor arc.myDev nic.localAddress arc.neighbourNicAddr) ::
          (if isStillUsable then
            [.removeArc arc.myDev
              (s.arcArgs nic arc.neighbourId arc.neighbourMac arc.neighbourNicAddr)]
          else [])
    | none => []) ++
  (if arc.cost.isSome then [.event (.arcRemoved { arc with state := .removed })] else [])

/-- `remove_my_arc`. -/
def removeMyArc (mac : Mac) (isStillUsable : Bool) (s : Manager) : Ran :=
  match s.arcs.get? mac with
  | none => .pure s
  | some entry =>
      ⟨{ s with
          arcs := s.arcs.erase mac
          cancelled := insert entry.monitorCancel s.cancelled },
        s.removalOutputs entry isStillUsable, []⟩

/-- The Discovered arcs past their time. -/
def stalePending (i : Input) (s : Manager) : List Mac :=
  ((i.arcOrder.arrange s.arcs.entries).filter fun e =>
    e.2.arc.state = .discovered && pendingArcTtl ≤ i.now - e.2.createdAt).map Prod.fst

/-- `reap_stale_pending`. -/
def reapStalePending (i : Input) (s : Manager) : Ran :=
  Ran.forEach (s.stalePending i) (fun mac => removeMyArc mac false) s

/-- `export_arc`. -/
def exportArc (mac : Mac) (s : Manager) : Ran :=
  match s.arcs.get? mac with
  | none => .pure s
  | some entry =>
      if entry.arc.state = .established then .pure s
      else
        match s.nics.get? entry.arc.myDev with
        | none => .pure s
        | some nic =>
            let cancel := s.tokens
            let arc := { entry.arc with state := .established }
            let ctx : ArcMonitorContext :=
              ⟨mac, arc, ⟨nic.mac, nic.localAddress⟩, entry.inserted⟩
            ⟨{ s.setEntry mac { entry with arc, monitorCancel := cancel } with
                tokens := s.tokens + 1
                cancelled := insert entry.monitorCancel s.cancelled },
              [], [.monitor ctx cancel none, .confirmation ctx cancel]⟩

/-! ## Interfaces -/

/-- `start_monitor`. -/
def startMonitor (i : Input) (nic : LocalNic) (s : Manager) :
    Ran × Except NeighborhoodError Unit :=
  if s.nics.contains nic.dev then (.pure s, .error (.alreadyMonitored nic.dev))
  else
    match i.links with
    | none => (.pure s, .error .netlink)
    | some links =>
        match links.find? (·.name = nic.dev) with
        | none => (.pure s, .error (.unknownInterface nic.dev))
        | some link =>
            if ¬link.isUp then (.pure s, .error (.interfaceDown nic.dev))
            else
              let added := Output.ip (.addAddress nic.dev i.newLinklocalAddress)
              match i.addAddress with
              | .error e => (⟨s, [added], []⟩, .error e)
              | .ok () =>
                  (⟨{ s with
                      nics := s.nics.insert nic.dev ⟨nic.mac, i.newLinklocalAddress, s.tokens⟩
                      tokens := s.tokens + 1 }, [added], []⟩, .ok ())

/-- The end of `teardown_nic`: the interface goes and is no longer being disabled. -/
def dropNic (dev : Dev) (s : Manager) : Ran :=
  match s.nics.get? dev with
  | none => .pure { s with disabling := s.disabling.erase dev }
  | some nic =>
      ⟨{ s with
          nics := s.nics.erase dev
          disabling := s.disabling.erase dev
          cancelled := insert nic.radarCancel s.cancelled },
        [.ip (.removeAddress dev nic.localAddress)], []⟩

/-- The arcs on an interface. -/
def arcsOn (i : Input) (dev : Dev) (s : Manager) : List Mac :=
  ((i.arcOrder.arrange s.arcs.entries).filter fun e => e.2.arc.myDev = dev).map Prod.fst

/-- `teardown_nic`. -/
def teardownNic (i : Input) (dev : Dev) (notifyPeers : Bool) (s : Manager) : Ran :=
  if ¬s.nics.contains dev then .pure s
  else
    (Ran.forEach (s.arcsOn i dev) (fun mac => removeMyArc mac notifyPeers)
      { s with disabling := insert dev s.disabling }).andThen (dropNic dev)

/-- The monitored interfaces that are no longer up. -/
def staleNics (i : Input) (links : List LinkInfo) (s : Manager) : List Dev :=
  ((i.nicOrder.arrange s.nics.entries).map Prod.fst).filter fun dev =>
    ¬(links.filter (·.isUp)).any (·.name = dev)

/-- `sync_interfaces`. -/
def syncInterfaces (i : Input) (s : Manager) : Ran × List Dev :=
  match i.links with
  | none => (.pure s, [])
  | some links =>
      let stale := s.staleNics i links
      (Ran.forEach stale (fun dev => teardownNic i dev true) s, stale)

/-- The end of `run`: every interface is torn down and nobody is told. -/
def shutdown (i : Input) (s : Manager) : Ran :=
  (Ran.forEach ((i.nicOrder.arrange s.nics.entries).map Prod.fst)
    (fun dev => teardownNic i dev false) s).andThen fun s =>
      .pure { s with cancelled :=
        s.cancelled ∪ (s.arcs.values.map (·.monitorCancel)).toFinset }

/-! ## Inbound calls -/

/-- A new entry with the route to its neighbour. -/
def insertArc (i : Input) (dev : Dev) (nic : NicState) (id : NodeId) (mac : Mac) (addr : NicAddr)
    (verified : Verified) (s : Manager) : Ran :=
  ⟨{ s with
      arcs := s.arcs.insert mac
        ⟨.new id mac addr dev, s.tokens, i.now, 0, verified.map Prod.fst, s.tokens⟩
      tokens := s.tokens + 1 },
    [.ip (.addNeighbor dev nic.localAddress addr)], []⟩

/-- `handle_here_i_am`. -/
def handleHereIAm (i : Input) (receivedOnDev : Dev) (senderId : NodeId) (senderMac : Mac)
    (senderNicAddr : NicAddr) (verified : Verified) (s : Manager) : Ran :=
  if senderId = s.myId then .pure s
  else
    match s.nics.get? receivedOnDev with
    | none => .pure s
    | some nic =>
        if receivedOnDev ∈ s.disabling then .pure s
        else
          (s.reapStalePending i).andThen fun s =>
            if s.findCollision senderMac senderNicAddr senderId receivedOnDev then .pure s
            else if ¬s.peerNicAddrAcceptable senderMac senderNicAddr then .pure s
            else if s.arcs.contains senderMac then .pure s
            else if s.pendingArcCap ≤ s.pendingCount then .pure s
            else
              match s.authenticate i senderMac verified with
              | (s, .error _) => .pure s
              | (s, .ok ()) =>
                  (s.insertArc i receivedOnDev nic senderId senderMac senderNicAddr
                    verified).output
                      [.requestArc receivedOnDev
                        (s.arcArgs nic senderId senderMac senderNicAddr)]

/-- The end of `handle_request_arc`: the arc is requested and its negotiation goes out. -/
def negotiateArc (mac : Mac) (s : Manager) : Ran :=
  match s.arcs.get? mac with
  | none => .pure s
  | some entry =>
      let s' := s.setEntry mac { entry with arc := { entry.arc with state := .requested } }
      ⟨s', [], [.negotiation mac (s'.exportedCount < s'.maxArcs) entry.inserted]⟩

/-- `handle_request_arc`. -/
def handleRequestArc (i : Input) (receivedOnDev : Dev) (destId : NodeId) (destMac : Mac)
    (destNicAddr : NicAddr) (senderId : NodeId) (senderMac : Mac) (senderNicAddr : NicAddr)
    (verified : Verified) (s : Manager) : Ran :=
  if senderId = s.myId then .pure s
  else
    match s.nics.get? receivedOnDev with
    | none => .pure s
    | some nic =>
        if receivedOnDev ∈ s.disabling then .pure s
        else if destId ≠ s.myId ∨ destMac ≠ nic.mac ∨ destNicAddr ≠ nic.localAddress then .pure s
        else
          (s.reapStalePending i).andThen fun s =>
            if s.findCollision senderMac senderNicAddr senderId receivedOnDev then .pure s
            else if ¬s.peerNicAddrAcceptable senderMac senderNicAddr then .pure s
            else
              match s.authenticate i senderMac verified with
              | (s, .error _) => .pure s
              | (s, .ok ()) =>
                  if (s.arcs.get? senderMac).any (·.arc.state = .established) then .pure s
                  else if s.arcs.contains senderMac then s.negotiateArc senderMac
                  else if s.pendingArcCap ≤ s.pendingCount then .pure s
                  else
                    (s.insertArc i receivedOnDev nic senderId senderMac senderNicAddr
                      verified).andThen (negotiateArc senderMac)

/-- `handle_request_arc_negotiated`. -/
def handleRequestArcNegotiated (mac : Mac) (canI canYou : Bool) (s : Manager) : Ran :=
  if canI && canYou then s.exportArc mac
  else
    match s.arcs.get? mac with
    | none => .pure s
    | some entry =>
        if entry.arc.state ≠ .established then
          .pure (s.setEntry mac { entry with arc := { entry.arc with state := .discovered } })
        else .pure s

/-- `handle_can_you_export`. -/
def handleCanYouExport (i : Input) (callerId : NodeId) (callerMac : Mac)
    (callerNicAddr : NicAddr) (peerCanExport : Bool) (verified : Verified) (s : Manager) : Ran × Reply :=
  match s.arcs.get? callerMac with
  | none => (.pure s, .rejected "can_you_export: no known arc for this caller")
  | some entry =>
      if entry.arc.neighbourId ≠ callerId ∨ entry.arc.neighbourNicAddr ≠ callerNicAddr then
        (.pure s, .rejected "can_you_export: caller identity does not match the known arc")
      else
        match s.authenticate i callerMac verified with
        | (s, .error message) => (.pure s, .rejected message)
        | (s, .ok ()) =>
            if (s.arcs.get? callerMac).any (·.arc.state = .established) then
              (.pure s, .boolean true)
            else
              let canI : Bool := s.exportedCount < s.maxArcs
              (if canI && peerCanExport then s.exportArc callerMac else .pure s, .boolean canI)

/-- `handle_nop`. -/
def handleNop (i : Input) (callerId : NodeId) (callerMac : Mac) (callerNicAddr : NicAddr)
    (verified : Verified) (s : Manager) : Ran × Reply :=
  match s.arcs.get? callerMac with
  | none => (.pure s, .rejected "nop: no known arc for this caller")
  | some entry =>
      if entry.arc.neighbourId ≠ callerId ∨ entry.arc.neighbourNicAddr ≠ callerNicAddr then
        (.pure s, .rejected "nop: caller identity does not match the known arc")
      else if entry.arc.state ≠ .established then
        (.pure s, .rejected "nop: caller's arc is not (yet) established here")
      else
        match s.authenticate i callerMac verified with
        | (s, .error message) => (.pure s, .rejected message)
        | (s, .ok ()) => (.pure s, .empty)

/-- `handle_remove_arc`. -/
def handleRemoveArc (i : Input) (receivedOnDev : Dev) (destId : NodeId) (destMac : Mac)
    (destNicAddr : NicAddr) (senderId : NodeId) (senderMac : Mac) (senderNicAddr : NicAddr)
    (verified : Verified) (s : Manager) : Ran :=
  if senderId = s.myId then .pure s
  else
    match s.nics.get? receivedOnDev with
    | none => .pure s
    | some nic =>
        if destId ≠ s.myId ∨ destMac ≠ nic.mac ∨ destNicAddr ≠ nic.localAddress then .pure s
        else if s.findCollision senderMac senderNicAddr senderId receivedOnDev then .pure s
        else if ¬(s.arcs.get? senderMac).any (·.arc.myDev = receivedOnDev) then .pure s
        else
          match s.authenticate i senderMac verified with
          | (s, .error _) => .pure s
          | (s, .ok ()) => s.removeMyArc senderMac false

/-! ## Results of the monitors -/

/-- A first cost, with the event that makes the arc known. -/
def announce (mac : Mac) (entry : ArcEntry) (cost : UInt64) (s : Manager) : Ran :=
  let arc := { entry.arc with cost := some (.finite cost) }
  ⟨s.setEntry mac { entry with arc }, [.event (.arcAdded arc)], []⟩

/-- Another cost, if it passes the gate. -/
def republish (mac : Mac) (entry : ArcEntry) (cost : UInt64) (s : Manager) : Ran :=
  match entry.arc.cost with
  | some (.finite published) =>
      if exceedsHysteresis published cost then
        let arc := { entry.arc with cost := some (.finite cost) }
        ⟨s.setEntry mac { entry with arc }, [.event (.arcCostChanged arc)], []⟩
      else .pure s
  | _ => .pure s

/-- `handle_monitor_result`. -/
def handleMonitorResult (key : Mac) (outcome : MonitorOutcome) (s : Manager) : Ran :=
  match outcome with
  | .nopFailed => s.removeMyArc key false
  | .noRtt =>
      match s.arcs.get? key with
      | none => .pure s
      | some entry =>
          if entry.arc.cost.isSome then .pure s
          else
            let counted := { entry with consecutiveNoRtt := entry.consecutiveNoRtt + 1 }
            if noRttFallbackThreshold ≤ counted.consecutiveNoRtt then
              s.announce key counted noRttFallbackCostUs
            else .pure (s.setEntry key counted)
  | .firstSample rtt =>
      match s.arcs.get? key with
      | none => .pure s
      | some entry =>
          if entry.arc.cost.isSome then s.republish key entry rtt else s.announce key entry rtt
  | .sample smoothed =>
      match s.arcs.get? key with
      | none => .pure s
      | some entry => s.republish key entry smoothed

/-- `handle_command`. -/
def handle (i : Input) (s : Manager) : Command → Ran × Reply
  | .startMonitor nic => ((s.startMonitor i nic).1, .started (s.startMonitor i nic).2)
  | .stopMonitor dev => (s.teardownNic i dev true, .stopped)
  | .syncInterfaces => ((s.syncInterfaces i).1, .synced (s.syncInterfaces i).2)
  | .hereIAm dev id mac addr verified => (s.handleHereIAm i dev id mac addr verified, .empty)
  | .requestArc dev destId destMac destAddr id mac addr verified =>
      (s.handleRequestArc i dev destId destMac destAddr id mac addr verified, .empty)
  | .canYouExport id mac addr peerCanExport verified =>
      s.handleCanYouExport i id mac addr peerCanExport verified
  | .removeArc dev destId destMac destAddr id mac addr verified =>
      (s.handleRemoveArc i dev destId destMac destAddr id mac addr verified, .empty)
  | .nop id mac addr verified => s.handleNop i id mac addr verified
  | .monitorResult key outcome _ => (s.handleMonitorResult key outcome, .nothing)
  | .requestArcNegotiated mac canI canYou _ =>
      (s.handleRequestArcNegotiated mac canI canYou, .nothing)

end Manager

end Netsukuku.Neighborhood
