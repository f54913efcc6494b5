import Mathlib
import Netsukuku.Core.KeyedMap
import Netsukuku.Rpc.Envelope

/-!
# The client of a connection

All calls to a neighbour share one connection, which an actor owns.  A call draws a correlation id,
sends the actor a command and waits for the answer; the actor writes the request and keeps the call
in its table until a response with that id arrives.  A caller may give up waiting, or be dropped.

* `Client` — the actor, its queue and its table, with the callers and what has been sent to each.
* `Client.Step` — one step of a caller or of the actor.  What the peer sends, whether a write
  succeeds, and when a caller gives up is left open; `D` says which drops of a waiting call are
  considered.
* `Client.Run` — the clients reached from a fresh connection.
-/

namespace Netsukuku.Rpc

/-- `RpcError`, as far as a client can return it. -/
inductive RpcError where
  | io
  | encode
  | malformed (message : String)
  | timeout
  | connectionClosed
  | remote (error : RemoteError)
  deriving DecidableEq

/-- What the codec and the socket fail with when a frame is written. -/
inductive WriteError where
  | io
  | encode
  deriving DecidableEq

def WriteError.toRpcError : WriteError → RpcError
  | .io => .io
  | .encode => .encode

/-- One call or notification, by its number. -/
abbrev Ticket : Type := ℕ

/-- `ClientCmd`; the sender of the reply is the ticket it replies to. -/
inductive ClientCmd (M P : Type) where
  | call (envelope : Envelope M P) (reply : Ticket)
  | notify (envelope : Envelope M P) (reply : Ticket)
  | forget (correlationId : UInt64)

/-- The ticket a command holds the sender of. -/
def ClientCmd.reply {M P : Type} : ClientCmd M P → Option Ticket
  | .call _ t => some t
  | .notify _ t => some t
  | .forget _ => none

/-- What has become of the sender of a ticket: it is still there, or it has sent something, or it
was dropped. -/
inductive Slot (P : Type) where
  | empty
  | response (response : Response P)
  | written
  | failed (error : RpcError)
  | closed

/-- What a caller that finds this in its channel returns; a notification returns no payload. -/
def Slot.result {P : Type} : Slot P → Option (Except RpcError (Option P))
  | .empty => none
  | .response r =>
      match r.outcome with
      | some (.payload p) => some (.ok (some p))
      | some (.error e) => some (.error (.remote e))
      | none => some (.error (.malformed "Response.outcome unset"))
  | .written => some (.ok none)
  | .failed e => some (.error e)
  | .closed => some (.error .connectionClosed)

inductive Phase (P : Type) where
  | started
  | waiting
  | resolved (result : Except RpcError (Option P))
  | dropped

/-- A use of `call_authenticated`, or of `notify_authenticated` if no reply is wanted. -/
structure Caller (M P : Type) where
  envelope : Envelope M P
  waitReply : Bool
  phase : Phase P

/-- The command a caller sends. -/
def Caller.cmd {M P : Type} (c : Caller M P) (t : Ticket) : ClientCmd M P :=
  if c.waitReply then .call c.envelope t else .notify c.envelope t

/-- The correlation id `run_actor` reads off a request. -/
def Envelope.correlationId {M P : Type} (e : Envelope M P) : UInt64 :=
  (e.asRequest.map Request.correlationId).getD 0

/-- Where the actor is. -/
inductive ActorPhase (M P : Type) where
  | idle
  | writing (cmd : ClientCmd M P)
  | ended

/-- The sender the actor holds while it writes. -/
def ActorPhase.reply {M P : Type} : ActorPhase M P → Option Ticket
  | .writing cmd => cmd.reply
  | _ => none

/-- The client.  `received` are the frames read so far, `resolutions` the results returned so
far. -/
structure Client (M P : Type) where
  issued : ℕ
  nextId : UInt64
  callers : Ticket → Option (Caller M P)
  queue : List (ClientCmd M P)
  actor : ActorPhase M P
  pending : KeyedMap UInt64 Ticket
  slots : Ticket → Slot P
  received : List (Envelope M P)
  resolutions : List (Ticket × Except RpcError (Option P))

/-- How a write ends. -/
inductive Written where
  | ok
  | failed (error : WriteError)
  | timedOut

/-- What `stream.next()` yields. -/
inductive Frame (M P : Type) where
  | eof
  | error
  | envelope (envelope : Envelope M P)

namespace Client

variable {M P : Type}

/-- `from_stream`. -/
def fromStream : Client M P where
  issued := 0
  nextId := 1
  callers := fun _ => none
  queue := []
  actor := .idle
  pending := KeyedMap.empty
  slots := fun _ => .empty
  received := []
  resolutions := []

def setCaller (t : Ticket) (c : Caller M P) (s : Client M P) : Client M P :=
  { s with callers := Function.update s.callers t (some c) }

/-- Something is sent to a ticket, or its sender is dropped. -/
def put (t : Ticket) (v : Slot P) (s : Client M P) : Client M P :=
  { s with slots := Function.update s.slots t v }

/-- A caller returns. -/
def resolve (t : Ticket) (c : Caller M P) (result : Except RpcError (Option P)) (s : Client M P) :
    Client M P :=
  { s.setCaller t { c with phase := .resolved result } with
    resolutions := s.resolutions ++ [(t, result)] }

/-! ## The callers -/

/-- `next_correlation_id`, and the request with it. -/
def start (caller : CallerContext) (unicastId : TypedValue) (waitReply : Bool) (call : M)
    (auth : Option Auth) (s : Client M P) : Client M P :=
  { s.setCaller s.issued ⟨.request s.nextId caller unicastId waitReply call auth, waitReply,
      .started⟩ with
    issued := s.issued + 1
    nextId := s.nextId + 1 }

/-- The command is sent to the actor; it cannot be if the actor is gone. -/
def submit (t : Ticket) (c : Caller M P) (s : Client M P) : Client M P :=
  match s.actor with
  | .ended => s.resolve t c (.error .connectionClosed)
  | _ => { s.setCaller t { c with phase := .waiting } with queue := s.queue ++ [c.cmd t] }

/-- The time of a waiting caller is up.  A call asks the actor to forget it. -/
def timeOut (t : Ticket) (c : Caller M P) (s : Client M P) : Client M P :=
  let s := s.resolve t c (.error .timeout)
  if c.waitReply then
    match s.actor with
    | .ended => s
    | _ => { s with queue := s.queue ++ [.forget c.envelope.correlationId] }
  else s

/-! ## The actor -/

/-- The actor is gone: whoever is in its table is told so (`fail_pending`), and the senders left in
its queue are dropped. -/
def close (s : Client M P) : Client M P :=
  { s with
    actor := .ended
    pending := KeyedMap.empty
    queue := []
    slots := fun t =>
      if t ∈ s.pending.values then .failed .connectionClosed
      else if t ∈ s.queue.filterMap ClientCmd.reply then .closed
      else s.slots t }

/-- An entry is taken out of the table, and `v` is left to the ticket. -/
def takeOut (id : UInt64) (v : Slot P) (s : Client M P) : Client M P :=
  match s.pending.get? id with
  | some t => { s.put t v with pending := s.pending.erase id }
  | none => s

/-- The command at the head of the queue is taken. -/
def take (cmd : ClientCmd M P) (rest : List (ClientCmd M P)) (s : Client M P) : Client M P :=
  match cmd with
  | .forget id => { s with queue := rest }.takeOut id .closed
  | cmd => { s with queue := rest, actor := .writing cmd }

/-- The write of a command has ended. -/
def wrote (cmd : ClientCmd M P) (w : Written) (s : Client M P) : Client M P :=
  match cmd, w with
  | .call envelope t, .ok =>
      -- storing drops the sender that was there under the same id
      let s := s.takeOut envelope.correlationId .closed
      { s with actor := .idle, pending := s.pending.insert envelope.correlationId t }
  | .notify _ t, .ok => { s.put t .written with actor := .idle }
  | .call _ t, .failed e => { s.put t (.failed e.toRpcError) with actor := .idle }
  | .notify _ t, .failed e => { s.put t (.failed e.toRpcError) with actor := .idle }
  | .call _ t, .timedOut => (s.put t (.failed .timeout)).close
  | .notify _ t, .timedOut => (s.put t (.failed .timeout)).close
  | .forget _, _ => { s with actor := .idle }

/-- A frame is read. -/
def readFrame (frame : Frame M P) (s : Client M P) : Client M P :=
  match frame with
  | .eof => s.close
  | .error => s.close
  | .envelope e =>
      let s := { s with received := s.received ++ [e] }
      if e.checkVersion then
        match e.body with
        | some (.response r) => s.takeOut r.correlationId (.response r)
        | _ => s
      else s

/-- The client was dropped: nobody sends commands any more. -/
def hangUp (s : Client M P) : Client M P :=
  { s with
    actor := .ended
    pending := KeyedMap.empty
    slots := fun t => if t ∈ s.pending.values then .closed else s.slots t }

/-! ## Runs -/

variable (D : Client M P → Ticket → Prop)

/-- One step.  Fewer than `2 ^ 64` calls and notifications are made. -/
inductive Step : Client M P → Client M P → Prop
  | start (s : Client M P) (caller : CallerContext) (unicastId : TypedValue) (waitReply : Bool)
      (call : M) (auth : Option Auth) (hcount : s.issued + 1 < 2 ^ 64) :
      Step s (s.start caller unicastId waitReply call auth)
  | submit {s : Client M P} {t : Ticket} {c : Caller M P} (hget : s.callers t = some c)
      (hphase : c.phase = .started) : Step s (s.submit t c)
  | answered {s : Client M P} {t : Ticket} {c : Caller M P}
      {result : Except RpcError (Option P)} (hget : s.callers t = some c)
      (hphase : c.phase = .waiting) (hslot : (s.slots t).result = some result) :
      Step s (s.resolve t c result)
  | timeOut {s : Client M P} {t : Ticket} {c : Caller M P} (hget : s.callers t = some c)
      (hphase : c.phase = .waiting) : Step s (s.timeOut t c)
  | drop {s : Client M P} {t : Ticket} {c : Caller M P} (hget : s.callers t = some c)
      (hphase : c.phase = .waiting) (hD : D s t) :
      Step s (s.setCaller t { c with phase := .dropped })
  | take {s : Client M P} {cmd : ClientCmd M P} {rest : List (ClientCmd M P)}
      (hactor : s.actor = .idle) (hqueue : s.queue = cmd :: rest) : Step s (s.take cmd rest)
  | wrote {s : Client M P} {cmd : ClientCmd M P} (w : Written) (hactor : s.actor = .writing cmd) :
      Step s (s.wrote cmd w)
  | readFrame {s : Client M P} (frame : Frame M P) (hactor : s.actor = .idle) :
      Step s (s.readFrame frame)
  | hangUp {s : Client M P} (hactor : s.actor = .idle) (hqueue : s.queue = [])
      (hcallers : ∀ t c, s.callers t = some c → c.phase ≠ .started ∧ c.phase ≠ .waiting) :
      Step s s.hangUp

/-- The clients reached from a fresh connection. -/
inductive Run : Client M P → Prop
  | fromStream : Run fromStream
  | step {s s' : Client M P} (run : Run s) (hstep : Step D s s') : Run s'

end Client

end Netsukuku.Rpc
