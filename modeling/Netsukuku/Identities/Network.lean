import Mathlib
import Netsukuku.Identities.Actor

/-!
# Identity managers joined by arcs

A call a task makes over an arc is served by the node at the other end.  Its handler asks the actor
there what it needs, queues a command where it has one to give, and answers.

* `Serving`, `serve` — what is left of a handler, and the handlers of the three methods.
* `Network.Move` — one step of the network in which nothing fails.
* `Network.Fault` — a call that fails, or is given up by its caller, and a deadline that passes.
* `Network.Reached` — the networks reached when every node starts from `Handle::spawn`.
-/

namespace Netsukuku.Identities

/-! ## Handlers -/

/-- What is left of a handler: the question it has for its actor, the command it queues, or its
answer. -/
inductive Serving where
  | mainId (next : IdentityId → Serving)
  | lookup (migrationId : MigrationId) (oldId : IdentityId) (next : Option ℕ → Serving)
  | wait (migrationId : MigrationId) (oldId : IdentityId) (channel : ℕ) (next : Bool → Serving)
  | fetch (migrationId : MigrationId) (oldId : IdentityId) (arc : ArcId)
      (next : Except Error DuplicationData → Serving)
  | queue (cmd : Cmd) (next : Serving)
  | reply (result : CallResult)

/-- `unmatched`. -/
def unmatched (args : MatchDuplicationArgs) (myOldId peerOldId peerNewId : IdentityId)
    (arc : ArcId) : Serving :=
  .queue (.neighbourMigrated myOldId peerOldId peerNewId args.oldIdNewMac args.oldIdNewLinklocal arc)
    (.reply (.ok .empty))

/-- `match_duplication`, its ids decoded. -/
def matchDuplication (args : MatchDuplicationArgs) (myOldId peerOldId peerNewId : IdentityId)
    (arc : ArcId) : Serving :=
  .lookup args.migrationId myOldId fun pending =>
    match pending with
    | none => unmatched args myOldId peerOldId peerNewId arc
    | some channel =>
        .wait args.migrationId myOldId channel fun readyInTime =>
          if readyInTime then
            .fetch args.migrationId myOldId arc fun fetched =>
              match fetched with
              | .ok data => .reply (.ok (.duplicationData data))
              | .error _ => unmatched args myOldId peerOldId peerNewId arc
          else unmatched args myOldId peerOldId peerNewId arc

/-- `IdentityRpcHandler::handle`, for a call from `arc` if `arc_for_caller` knows it.  A remote
error reaches the caller as a failed call. -/
def serve (arc : Option ArcId) : MethodCall → Serving
  | .getPeerMainId => .mainId fun id => .reply (.ok (.identityId id))
  | .matchDuplication args =>
      match arc, args.peerId, args.oldId, args.newId with
      | some arc, some myOldId, some peerOldId, some peerNewId =>
          matchDuplication args myOldId peerOldId peerNewId arc
      | _, _, _, _ => .reply (.error .rpc)
  | .notifyIdentityArcRemoved peerId myId =>
      match arc, myId, peerId with
      | some arc, some myId, some peerId =>
          .queue (.notifyIdentityArcRemoved myId peerId arc) (.reply (.ok .empty))
      | _, _, _ => .reply (.error .rpc)

/-! ## The network -/

variable {ν : Type} [DecidableEq ν]

/-- Which node an arc leads to, and which of its arcs a call over it arrives on. -/
structure Links (ν : Type) where
  peer : ν → ArcId → Option (ν × ArcId)
  symm : ∀ {n m : ν} {arc arc' : ArcId}, peer n arc = some (m, arc') → peer m arc' = some (n, arc)

/-- A call under way: who waits for it and how it goes on, who serves it and what is left to do. -/
structure Call (ν : Type) where
  caller : ν
  resume : CallResult → Process
  server : ν
  serving : Serving

structure Network (ν : Type) where
  state : ν → State
  tasks : Multiset (ν × Process)
  inbox : Multiset (ν × Cmd)
  calls : Multiset (Call ν)

/-- What the callers of a handle and the cleanup timer may ask for; the other commands come from
tasks and peers. -/
def Local : Cmd → Prop
  | .addArc _ _ | .removeArc _ | .prepareMigration _ _ | .migrate _ _ _ | .cleanupMigration _ _
  | .removeIdentity _ | .abortMigration _ _ | .setNaddr _ _ => True
  | _ => False

namespace Network

/-- A command executed by node `n`, taken from what the network is otherwise. -/
def execute (net : Network ν) (n : ν) (d : Draw) (cmd : Cmd) : Network ν :=
  { net with
    state := Function.update net.state n ((net.state n).handle d cmd).state
    tasks := net.tasks + Multiset.ofList (((net.state n).handle d cmd).spawned.map (Prod.mk n)) }

variable (links : Links ν)

/-- One step in which nothing fails. -/
inductive Move : Network ν → Network ν → Prop
  | execute {net : Network ν} {n : ν} {cmd : Cmd} {q : Multiset (ν × Cmd)} (d : Draw)
      (hq : net.inbox = (n, cmd) ::ₘ q) (hd : d.Allowed (net.state n)) :
      Move net ({ net with inbox := q }.execute n d cmd)
  | send {net : Network ν} {n : ν} {cmd : Cmd} {ts : Multiset (ν × Process)}
      (ht : net.tasks = (n, .send cmd) ::ₘ ts) :
      Move net { net with tasks := ts, inbox := (n, cmd) ::ₘ net.inbox }
  | finish {net : Network ν} {n : ν} {ts : Multiset (ν × Process)}
      (ht : net.tasks = (n, .done) ::ₘ ts) : Move net { net with tasks := ts }
  | dial {net : Network ν} {n m : ν} {arc arc' : ArcId} {method : MethodCall}
      {resume : CallResult → Process} {ts : Multiset (ν × Process)}
      (ht : net.tasks = (n, .call arc method resume) ::ₘ ts)
      (hlink : links.peer n arc = some (m, arc')) :
      Move net { net with
        tasks := ts, calls := ⟨n, resume, m, serve (some arc') method⟩ ::ₘ net.calls }
  | mainId {net : Network ν} {n m : ν} {resume : CallResult → Process}
      {next : IdentityId → Serving} {cs : Multiset (Call ν)}
      (hc : net.calls = ⟨n, resume, m, .mainId next⟩ ::ₘ cs) :
      Move net { net with
        calls := ⟨n, resume, m, next (net.state m).registry.mainId⟩ ::ₘ cs }
  | lookup {net : Network ν} {n m : ν} {resume : CallResult → Process}
      {migrationId : MigrationId} {oldId : IdentityId} {next : Option ℕ → Serving}
      {cs : Multiset (Call ν)} (hc : net.calls = ⟨n, resume, m, .lookup migrationId oldId next⟩ ::ₘ cs) :
      Move net { net with
        calls := ⟨n, resume, m, next (((net.state m).pendingMigrations.get?
          (migrationId, oldId)).map (·.channel))⟩ ::ₘ cs }
  | ready {net : Network ν} {n m : ν} {resume : CallResult → Process}
      {migrationId : MigrationId} {oldId : IdentityId} {channel : ℕ} {next : Bool → Serving}
      {pending : PendingMigration} {cs : Multiset (Call ν)}
      (hc : net.calls = ⟨n, resume, m, .wait migrationId oldId channel next⟩ ::ₘ cs)
      (hp : (net.state m).pendingMigrations.get? (migrationId, oldId) = some pending)
      (hch : pending.channel = channel) (hready : pending.ready = true) :
      Move net { net with calls := ⟨n, resume, m, next true⟩ ::ₘ cs }
  | closed {net : Network ν} {n m : ν} {resume : CallResult → Process}
      {migrationId : MigrationId} {oldId : IdentityId} {channel : ℕ} {next : Bool → Serving}
      {cs : Multiset (Call ν)}
      (hc : net.calls = ⟨n, resume, m, .wait migrationId oldId channel next⟩ ::ₘ cs)
      (hp : ∀ pending, (net.state m).pendingMigrations.get? (migrationId, oldId) = some pending →
        pending.channel ≠ channel) :
      Move net { net with calls := ⟨n, resume, m, next false⟩ ::ₘ cs }
  | fetch {net : Network ν} {n m : ν} {resume : CallResult → Process}
      {migrationId : MigrationId} {oldId : IdentityId} {arc : ArcId}
      {next : Except Error DuplicationData → Serving} {cs : Multiset (Call ν)}
      (hc : net.calls = ⟨n, resume, m, .fetch migrationId oldId arc next⟩ ::ₘ cs) :
      Move net { net with
        calls := ⟨n, resume, m, next ((net.state m).fetchDuplicationData migrationId oldId arc)⟩
          ::ₘ cs }
  | queue {net : Network ν} {n m : ν} {resume : CallResult → Process} {cmd : Cmd}
      {next : Serving} {cs : Multiset (Call ν)}
      (hc : net.calls = ⟨n, resume, m, .queue cmd next⟩ ::ₘ cs) :
      Move net { net with
        inbox := (m, cmd) ::ₘ net.inbox, calls := ⟨n, resume, m, next⟩ ::ₘ cs }
  | reply {net : Network ν} {n m : ν} {resume : CallResult → Process} {result : CallResult}
      {cs : Multiset (Call ν)} (hc : net.calls = ⟨n, resume, m, .reply result⟩ ::ₘ cs) :
      Move net { net with tasks := (n, resume result) ::ₘ net.tasks, calls := cs }

/-- What may go wrong: a call that does not get through, a caller that stops waiting while the
handler goes on, a migration that is not ready before its deadline. -/
inductive Fault : Network ν → Network ν → Prop
  | failed {net : Network ν} {n : ν} {arc : ArcId} {method : MethodCall}
      {resume : CallResult → Process} {ts : Multiset (ν × Process)}
      (ht : net.tasks = (n, .call arc method resume) ::ₘ ts) :
      Fault net { net with tasks := (n, resume (.error .rpc)) ::ₘ ts }
  | abandoned {net : Network ν} {n m : ν} {resume : CallResult → Process} {serving : Serving}
      {cs : Multiset (Call ν)} (hc : net.calls = ⟨n, resume, m, serving⟩ ::ₘ cs) :
      Fault net { net with
        tasks := (n, resume (.error .rpc)) ::ₘ net.tasks
        calls := ⟨n, fun _ => .done, m, serving⟩ ::ₘ cs }
  | deadline {net : Network ν} {n m : ν} {resume : CallResult → Process}
      {migrationId : MigrationId} {oldId : IdentityId} {channel : ℕ} {next : Bool → Serving}
      {cs : Multiset (Call ν)}
      (hc : net.calls = ⟨n, resume, m, .wait migrationId oldId channel next⟩ ::ₘ cs) :
      Fault net { net with calls := ⟨n, resume, m, next false⟩ ::ₘ cs }

/-- The networks reached when every node starts from `Handle::spawn`. -/
inductive Reached : Network ν → Prop
  | spawn (mainId : ν → IdentityId) (initialNaddr : ν → Option Naddr) :
      Reached ⟨fun n => State.spawn (mainId n) (initialNaddr n), 0, 0, 0⟩
  | command {net : Network ν} (run : Reached net) (n : ν) (d : Draw) (cmd : Cmd)
      (hlocal : Local cmd) (hd : d.Allowed (net.state n)) : Reached (net.execute n d cmd)
  | move {net net' : Network ν} (run : Reached net) (hmove : Move links net net') : Reached net'
  | fault {net net' : Network ν} (run : Reached net) (hfault : Fault net net') : Reached net'

end Network

end Netsukuku.Identities
