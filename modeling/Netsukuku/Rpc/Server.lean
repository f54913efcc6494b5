import Mathlib
import Netsukuku.Rpc.Envelope

/-!
# The server of a connection

A server reads requests from a connection and lets a task handle each.  A task whose request wants
a reply puts it into a queue, which one writer empties into the connection.

* `Server.Own` — what the server does by itself: handlers return, replies are queued and written.
* `Server.Step` — that, or something from outside: a frame, the end of the stream, a cancellation.
* `Server.Accounted` — every wanted reply is in one place as long as the connection lasts.
* `Server.replies_of_run` — no request is answered twice, and none that wants no reply.
* `Server.answered_of_run` — when the server has nothing left to do, each is answered.

The `n`-th frame read has the serial number `n`.
-/

namespace Netsukuku.Rpc

/-- What a server is set up with: its limits, and the length of an encoded envelope. -/
structure ServerConfig (M P : Type) where
  encodedLen : Envelope M P → ℕ
  maxFrameLength : ℕ
  maxInflight : ℕ
  replyQueue : ℕ

/-- A task of the connection. -/
inductive ServerTask (M P : Type) where
  | handling (serial : ℕ) (version : ProtocolVersion) (request : Request M) (auth : Option Auth)
  | replying (serial : ℕ) (envelope : Envelope M P)
  | done

/-- Where the loop is: in its `select`, about to queue the rejection of a version, or past its
end. -/
inductive ServerLoop (M P : Type) where
  | serving
  | rejecting (serial : ℕ) (envelope : Envelope M P)
  | draining

/-- One connection.  The reply that is being written is still the first of the queue. -/
structure Server (M P : Type) where
  read : List (Envelope M P)
  loop : ServerLoop M P
  inflight : Multiset (ServerTask M P)
  queue : List (ℕ × Envelope M P)
  written : List (ℕ × Envelope M P)
  writerAlive : Bool
  aborted : Bool

variable {M P : Type}

/-- `dispatch`, for a handler that returns `result`. -/
def dispatch (request : Request M) (result : Except RemoteError P) : Except RemoteError P :=
  match request.caller with
  | none => .error (Envelope.malformed "Request.caller unset")
  | some _ =>
      match request.call with
      | none => .error (Envelope.malformed "Request.call unset")
      | some _ => result

/-- The reply to a request. -/
def response (version : ProtocolVersion) (id : UInt64) : Except RemoteError P → Envelope M P
  | .ok payload => .responseOk version id payload
  | .error error => .responseErr version id error

lemma replies_response (version : ProtocolVersion) (id : UInt64) (outcome : Except RemoteError P) :
    (response version id outcome : Envelope M P).Replies id := by
  cases outcome with
  | ok payload => exact Envelope.replies_responseOk _ _ _
  | error error => exact Envelope.replies_responseErr _ _ _

namespace Server

/-- A connection just accepted. -/
def accepted : Server M P := ⟨[], .serving, 0, [], [], true, false⟩

/-- What comes of a request that was handled. -/
def replyTo (serial : ℕ) (version : ProtocolVersion) (request : Request M)
    (result : Except RemoteError P) : ServerTask M P :=
  if request.waitReply then
    .replying serial (response version request.correlationId (dispatch request result))
  else .done

/-- A frame is read. -/
def readFrame (e : Envelope M P) (s : Server M P) : Server M P :=
  let serial := s.read.length
  let s := { s with read := s.read ++ [e] }
  match e.version.filter fun _ => e.checkVersion with
  | none =>
      match e.replyWanted with
      | some id =>
          { s with loop := .rejecting serial (.responseErr .current id
              (Envelope.malformed "incompatible or missing protocol version")) }
      | none => s
  | some version =>
      match e.body with
      | some (.request request) =>
          { s with inflight := .handling serial version request e.auth ::ₘ s.inflight }
      | _ => s

/-! ## Steps -/

variable (cfg : ServerConfig M P)

/-- There is room in the queue. -/
def Room (s : Server M P) : Prop := s.queue.length < max cfg.replyQueue 1

/-- A step the server takes by itself. -/
inductive Own : Server M P → Server M P → Prop
  | handled {s : Server M P} {serial : ℕ} {version : ProtocolVersion} {request : Request M}
      {auth : Option Auth} {rest : Multiset (ServerTask M P)} (result : Except RemoteError P)
      (htask : s.inflight = .handling serial version request auth ::ₘ rest) :
      Own s { s with inflight := replyTo serial version request result ::ₘ rest }
  | queued {s : Server M P} {serial : ℕ} {e : Envelope M P} {rest : Multiset (ServerTask M P)}
      (htask : s.inflight = .replying serial e ::ₘ rest) (halive : s.writerAlive = true)
      (hroom : Room cfg s) :
      Own s { s with inflight := .done ::ₘ rest, queue := s.queue ++ [(serial, e)] }
  | lost {s : Server M P} {serial : ℕ} {e : Envelope M P} {rest : Multiset (ServerTask M P)}
      (htask : s.inflight = .replying serial e ::ₘ rest) (hdead : s.writerAlive = false) :
      Own s { s with inflight := .done ::ₘ rest }
  | joined {s : Server M P} {rest : Multiset (ServerTask M P)}
      (htask : s.inflight = .done ::ₘ rest) : Own s { s with inflight := rest }
  | rejected {s : Server M P} {serial : ℕ} {e : Envelope M P}
      (hloop : s.loop = .rejecting serial e) (halive : s.writerAlive = true)
      (hroom : Room cfg s) :
      Own s { s with loop := .serving, queue := s.queue ++ [(serial, e)] }
  | broken {s : Server M P} {serial : ℕ} {e : Envelope M P}
      (hloop : s.loop = .rejecting serial e) (hdead : s.writerAlive = false) :
      Own s { s with loop := .draining }
  | wrote {s : Server M P} {serial : ℕ} {e : Envelope M P} {rest : List (ℕ × Envelope M P)}
      (hqueue : s.queue = (serial, e) :: rest) (halive : s.writerAlive = true)
      (hfits : cfg.encodedLen (e.fitFrame cfg.encodedLen cfg.maxFrameLength)
        ≤ cfg.maxFrameLength) :
      Own s { s with
        queue := rest
        written := s.written ++ [(serial, e.fitFrame cfg.encodedLen cfg.maxFrameLength)] }
  | writeFailed {s : Server M P} {serial : ℕ} {e : Envelope M P} {rest : List (ℕ × Envelope M P)}
      (hqueue : s.queue = (serial, e) :: rest) (halive : s.writerAlive = true) :
      Own s { s with queue := [], writerAlive := false }
  -- a task that was aborted ends where it next waits
  | vanished {s : Server M P} {task : ServerTask M P} {rest : Multiset (ServerTask M P)}
      (htask : s.inflight = task ::ₘ rest) (haborted : s.aborted = true) :
      Own s { s with inflight := rest }

/-- A step from outside, or the end of a connection that has nothing left to do. -/
inductive Outer : Server M P → Server M P → Prop
  | frame {s : Server M P} (e : Envelope M P) (hloop : s.loop = .serving)
      (hroom : s.inflight.card < max cfg.maxInflight 1) : Outer s (s.readFrame e)
  | readEnded {s : Server M P} (hloop : s.loop = .serving) : Outer s { s with loop := .draining }
  | cancelled {s : Server M P} (hloop : s.loop = .serving) :
      Outer s { s with loop := .draining, aborted := true }
  | writerGone {s : Server M P} (hloop : s.loop = .serving) (hdead : s.writerAlive = false) :
      Outer s { s with loop := .draining, aborted := true }
  | closed {s : Server M P} (hloop : s.loop = .draining)
      (hinflight : ∀ task ∈ s.inflight, task = .done) (hqueue : s.queue = []) :
      Outer s { s with writerAlive := false }

def Step (s s' : Server M P) : Prop := Own cfg s s' ∨ Outer cfg s s'

/-- The connections reached from one just accepted. -/
def Run (s : Server M P) : Prop := Relation.ReflTransGen (Step cfg) accepted s

/-- The connection has not ended: replies can still reach the peer. -/
def Lasts (s : Server M P) : Prop := s.writerAlive = true ∧ s.aborted = false

/-! ## Where the replies are -/

/-- The request a task owes a reply to. -/
def taskOwes : ServerTask M P → Multiset ℕ
  | .handling serial _ request _ => if request.waitReply then {serial} else 0
  | .replying serial _ => {serial}
  | .done => 0

/-- The request the loop owes a reply to. -/
def loopOwes : ServerLoop M P → Multiset ℕ
  | .rejecting serial _ => {serial}
  | _ => 0

@[simp] lemma taskOwes_replying (serial : ℕ) (e : Envelope M P) :
    taskOwes (.replying serial e) = {serial} := rfl

@[simp] lemma taskOwes_done : taskOwes (.done : ServerTask M P) = 0 := rfl

@[simp] lemma loopOwes_rejecting (serial : ℕ) (e : Envelope M P) :
    loopOwes (.rejecting serial e) = {serial} := rfl

@[simp] lemma loopOwes_serving : loopOwes (.serving : ServerLoop M P) = 0 := rfl

@[simp] lemma loopOwes_draining : loopOwes (.draining : ServerLoop M P) = 0 := rfl

/-- The requests whose reply is somewhere between the task and the connection. -/
def owed (s : Server M P) : Multiset ℕ :=
  s.inflight.bind taskOwes + loopOwes s.loop + ↑(s.queue.map Prod.fst) + ↑(s.written.map Prod.fst)

/-- The frame `serial` was a request that wants a reply, and `e` is one. -/
def Replies (read : List (Envelope M P)) (serial : ℕ) (e : Envelope M P) : Prop :=
  ∃ asked id, read[serial]? = some asked ∧ asked.replyWanted = some id ∧ e.Replies id

def TaskTold (read : List (Envelope M P)) : ServerTask M P → Prop
  | .handling serial _ request _ =>
      ∃ asked, read[serial]? = some asked ∧ asked.body = some (.request request)
  | .replying serial e => Replies read serial e
  | .done => True

def LoopTold (read : List (Envelope M P)) : ServerLoop M P → Prop
  | .rejecting serial e => Replies read serial e
  | _ => True

/-- Every reply is on its way once, and every wanted reply is on its way as long as the connection
lasts. -/
structure Accounted (s : Server M P) : Prop where
  nodup : s.owed.Nodup
  bound : ∀ serial ∈ s.owed, serial < s.read.length
  tasks : ∀ task ∈ s.inflight, TaskTold s.read task
  loop : LoopTold s.read s.loop
  queue : ∀ entry ∈ s.queue, Replies s.read entry.1 entry.2
  written : ∀ entry ∈ s.written, Replies s.read entry.1 entry.2
  complete : s.Lasts → ∀ serial asked id, s.read[serial]? = some asked →
    asked.replyWanted = some id → serial ∈ s.owed

lemma accounted_accepted : Accounted (accepted : Server M P) where
  nodup := Multiset.nodup_zero
  bound _ hmem := absurd hmem (Multiset.notMem_zero _)
  tasks _ hmem := absurd hmem (Multiset.notMem_zero _)
  loop := trivial
  queue _ hmem := absurd hmem List.not_mem_nil
  written _ hmem := absurd hmem List.not_mem_nil
  complete _ serial asked id hget _ := by simp [accepted] at hget

variable {cfg} {s s' : Server M P} {read : List (Envelope M P)} {serial : ℕ} {e : Envelope M P}

lemma getElem?_append_singleton {asked : Envelope M P} (h : read[serial]? = some asked) :
    (read ++ [e])[serial]? = some asked :=
  (List.getElem?_append_left (List.getElem?_eq_some_iff.mp h).1).trans h

lemma Replies.mono {answer : Envelope M P} (h : Replies read serial answer) (e : Envelope M P) :
    Replies (read ++ [e]) serial answer := by
  obtain ⟨asked, id, hget, hrest⟩ := h
  exact ⟨asked, id, getElem?_append_singleton hget, hrest⟩

lemma TaskTold.mono {task : ServerTask M P} (h : TaskTold read task) (e : Envelope M P) :
    TaskTold (read ++ [e]) task := by
  cases task with
  | handling =>
      obtain ⟨asked, hget, hbody⟩ := h
      exact ⟨asked, getElem?_append_singleton hget, hbody⟩
  | replying => exact Replies.mono h e
  | done => trivial

lemma LoopTold.mono {loop : ServerLoop M P} (h : LoopTold read loop) (e : Envelope M P) :
    LoopTold (read ++ [e]) loop := by
  cases loop with
  | rejecting => exact Replies.mono h e
  | _ => trivial

/-- A step that reads nothing and makes no new reply wanted. -/
lemma Accounted.move (h : Accounted s) (hread : s'.read = s.read) (howed : s'.owed ≤ s.owed)
    (hkept : s'.Lasts → s'.owed = s.owed ∧ s.Lasts)
    (htasks : ∀ task ∈ s'.inflight, task ∈ s.inflight ∨ TaskTold s.read task)
    (hloop : LoopTold s.read s'.loop)
    (hqueue : ∀ entry ∈ s'.queue, Replies s.read entry.1 entry.2)
    (hwritten : ∀ entry ∈ s'.written, Replies s.read entry.1 entry.2) : Accounted s' where
  nodup := Multiset.nodup_of_le howed h.nodup
  bound serial hmem := by
    rw [hread]
    exact h.bound serial (Multiset.mem_of_le howed hmem)
  tasks task hmem := by
    rw [hread]
    exact (htasks task hmem).elim (h.tasks task) id
  loop := hread ▸ hloop
  queue := hread ▸ hqueue
  written := hread ▸ hwritten
  complete hlasts serial asked id hget hwanted := by
    obtain ⟨heq, hlasted⟩ := hkept hlasts
    rw [heq]
    exact h.complete hlasted serial asked id (hread ▸ hget) hwanted

lemma replyWanted_of_body {asked : Envelope M P} {request : Request M}
    (hbody : asked.body = some (.request request)) (hwait : request.waitReply = true) :
    asked.replyWanted = some request.correlationId := by
  unfold Envelope.replyWanted
  rw [hbody]
  exact if_pos hwait

lemma taskOwes_replyTo (serial : ℕ) (version : ProtocolVersion) (request : Request M)
    (auth : Option Auth) (result : Except RemoteError P) :
    taskOwes (replyTo serial version request result)
      = taskOwes (.handling serial version request auth : ServerTask M P) := by
  unfold replyTo taskOwes
  by_cases hwait : request.waitReply = true
  · simp [hwait]
  · simp [hwait]

lemma taskTold_replyTo {version : ProtocolVersion} {request : Request M} {auth : Option Auth}
    (h : TaskTold read (.handling serial version request auth : ServerTask M P))
    (result : Except RemoteError P) : TaskTold read (replyTo serial version request result) := by
  obtain ⟨asked, hget, hbody⟩ := h
  unfold replyTo
  split
  · next hwait =>
      exact ⟨asked, request.correlationId, hget, replyWanted_of_body hbody hwait,
        replies_response _ _ _⟩
  · trivial

/-- A reply that has been queued, in the multiset of all. -/
lemma coe_map_append (l : List (ℕ × Envelope M P)) (entry : ℕ × Envelope M P) :
    (↑((l ++ [entry]).map Prod.fst) : Multiset ℕ) = {entry.1} + ↑(l.map Prod.fst) := by
  rw [List.map_append]
  exact Multiset.coe_eq_coe.mpr (List.perm_append_singleton _ _)

lemma coe_map_cons (l : List (ℕ × Envelope M P)) (entry : ℕ × Envelope M P) :
    (↑((entry :: l).map Prod.fst) : Multiset ℕ) = {entry.1} + ↑(l.map Prod.fst) := rfl

/-- **What the server does by itself keeps the account.** -/
lemma Accounted.own (h : Accounted s) (hown : Own cfg s s') : Accounted s' := by
  have hrest : ∀ {task new : ServerTask M P} {rest : Multiset (ServerTask M P)},
      s.inflight = task ::ₘ rest → TaskTold s.read new →
      ∀ t ∈ new ::ₘ rest, t ∈ s.inflight ∨ TaskTold s.read t := by
    intro task new rest htask hnew t hmem
    rcases Multiset.mem_cons.mp hmem with rfl | hmem
    · exact .inr hnew
    · exact .inl (htask ▸ Multiset.mem_cons_of_mem hmem)
  cases hown with
  | @handled serial version request auth rest result htask =>
      have howed : owed { s with inflight := replyTo serial version request result ::ₘ rest }
          = s.owed := by
        unfold owed
        rw [htask, Multiset.cons_bind, Multiset.cons_bind, taskOwes_replyTo serial _ _ auth]
      have htold := h.tasks (.handling serial version request auth) (by simp [htask])
      exact h.move rfl (le_of_eq howed) (fun hlasts => ⟨howed, hlasts⟩)
        (hrest htask (taskTold_replyTo htold result)) h.loop h.queue h.written
  | @queued serial e rest htask halive hroom =>
      have howed : owed { s with inflight := .done ::ₘ rest, queue := s.queue ++ [(serial, e)] }
          = s.owed := by
        unfold owed
        rw [htask, Multiset.cons_bind, Multiset.cons_bind, coe_map_append]
        simp only [taskOwes_done, taskOwes_replying]
        abel
      have htold : Replies s.read serial e := h.tasks (.replying serial e) (by simp [htask])
      exact h.move rfl (le_of_eq howed) (fun hlasts => ⟨howed, hlasts⟩) (hrest htask trivial)
        h.loop (List.forall_mem_append.mpr ⟨h.queue, List.forall_mem_singleton.mpr htold⟩) h.written
  | @lost serial e rest htask hdead =>
      refine h.move rfl ?_ (fun hlasts => ?_) (hrest htask trivial) h.loop h.queue h.written
      · unfold owed
        rw [htask, Multiset.cons_bind, Multiset.cons_bind]
        gcongr
        exact Multiset.zero_le _
      · have halive : s.writerAlive = true := hlasts.1
        rw [hdead] at halive
        cases halive
  | @joined rest htask =>
      have howed : owed { s with inflight := rest } = s.owed := by
        unfold owed
        rw [htask, Multiset.cons_bind, taskOwes_done, zero_add]
      exact h.move rfl (le_of_eq howed) (fun hlasts => ⟨howed, hlasts⟩)
        (fun task hmem => .inl (htask ▸ Multiset.mem_cons_of_mem hmem)) h.loop h.queue h.written
  | @rejected serial e hloop halive hroom =>
      have howed : owed { s with loop := .serving, queue := s.queue ++ [(serial, e)] }
          = s.owed := by
        unfold owed
        rw [hloop, coe_map_append]
        simp only [loopOwes_serving, loopOwes_rejecting]
        abel
      have htold : Replies s.read serial e := by
        have := h.loop
        rwa [hloop] at this
      exact h.move rfl (le_of_eq howed) (fun hlasts => ⟨howed, hlasts⟩)
        (fun task hmem => .inl hmem) trivial
        (List.forall_mem_append.mpr ⟨h.queue, List.forall_mem_singleton.mpr htold⟩) h.written
  | @broken serial e hloop hdead =>
      refine h.move rfl ?_ (fun hlasts => ?_) (fun task hmem => .inl hmem) trivial h.queue h.written
      · unfold owed
        rw [hloop]
        gcongr
        exact Multiset.zero_le _
      · have halive : s.writerAlive = true := hlasts.1
        rw [hdead] at halive
        cases halive
  | @wrote serial e rest hqueue halive hfits =>
      have howed : owed { s with
          queue := rest
          written := s.written ++ [(serial, e.fitFrame cfg.encodedLen cfg.maxFrameLength)] }
          = s.owed := by
        unfold owed
        rw [hqueue, coe_map_append, coe_map_cons]
        abel
      obtain ⟨asked, id, hget, hwanted, hreplies⟩ := h.queue (serial, e) (by simp [hqueue])
      have htold : Replies s.read serial (e.fitFrame cfg.encodedLen cfg.maxFrameLength) :=
        ⟨asked, id, hget, hwanted, hreplies.fitFrame _ _⟩
      exact h.move rfl (le_of_eq howed) (fun hlasts => ⟨howed, hlasts⟩)
        (fun task hmem => .inl hmem) h.loop
        (fun entry hmem => h.queue entry (hqueue ▸ List.mem_cons_of_mem _ hmem))
        (List.forall_mem_append.mpr ⟨h.written, List.forall_mem_singleton.mpr htold⟩)
  | @writeFailed serial e rest hqueue halive =>
      refine h.move rfl ?_ (fun hlasts => by cases hlasts.1) (fun task hmem => .inl hmem) h.loop
        (fun _ hmem => absurd hmem List.not_mem_nil) h.written
      unfold owed
      gcongr
      exact Multiset.zero_le _
  | @vanished task rest htask haborted =>
      refine h.move rfl ?_ (fun hlasts => ?_)
        (fun t hmem => .inl (htask ▸ Multiset.mem_cons_of_mem hmem)) h.loop h.queue h.written
      · unfold owed
        rw [htask, Multiset.cons_bind]
        gcongr
        exact Multiset.le_add_left _ _
      · have hkept : s.aborted = false := hlasts.2
        rw [haborted] at hkept
        cases hkept

/-- The frame just read is the last. -/
lemma getElem?_last (read : List (Envelope M P)) (e : Envelope M P) :
    (read ++ [e])[read.length]? = some e := by
  simp

/-- The serial number of the frame just read is a new one. -/
lemma Accounted.notMem_owed (h : Accounted s) : s.read.length ∉ s.owed :=
  fun hmem => (h.bound _ hmem).ne rfl

lemma Accounted.lt_of_mem (h : Accounted s) (e : Envelope M P) :
    ∀ serial ∈ s.owed, serial < (s.read ++ [e]).length := by
  intro serial hmem
  have hlt := h.bound serial hmem
  simp only [List.length_append, List.length_singleton]
  omega

/-- Every wanted reply is on its way if that to the frame just read is. -/
lemma Accounted.complete_append (h : Accounted s) {owed' : Multiset ℕ} (hle : s.owed ≤ owed')
    (hwants : ∀ id, e.replyWanted = some id → s.read.length ∈ owed') (hlasts : s.Lasts) :
    ∀ serial asked id, (s.read ++ [e])[serial]? = some asked → asked.replyWanted = some id →
      serial ∈ owed' := by
  intro serial asked id hget hwanted
  rcases Nat.lt_or_ge serial s.read.length with hlt | hge
  · rw [List.getElem?_append_left hlt] at hget
    exact Multiset.mem_of_le hle (h.complete hlasts serial asked id hget hwanted)
  · have hserial : serial < (s.read ++ [e]).length := (List.getElem?_eq_some_iff.mp hget).1
    have hlast : serial = s.read.length := by
      simp only [List.length_append, List.length_singleton] at hserial
      omega
    subst hlast
    obtain rfl := Option.some.inj ((getElem?_last s.read e).symm.trans hget)
    exact hwants id hwanted

/-- A frame that wants no reply is read. -/
lemma Accounted.read_silent (h : Accounted s) (hno : ∀ id, e.replyWanted ≠ some id) :
    Accounted { s with read := s.read ++ [e] } where
  nodup := h.nodup
  bound := h.lt_of_mem e
  tasks task hmem := (h.tasks task hmem).mono e
  loop := h.loop.mono e
  queue entry hmem := (h.queue entry hmem).mono e
  written entry hmem := (h.written entry hmem).mono e
  complete := h.complete_append (le_refl _) fun id hwanted => absurd hwanted (hno id)

/-- A frame whose version does not fit is to be answered by the loop. -/
lemma Accounted.read_rejecting (h : Accounted s) (hloop : s.loop = .serving) {id : UInt64}
    (hwanted : e.replyWanted = some id) {answer : Envelope M P} (hreplies : answer.Replies id) :
    Accounted { s with read := s.read ++ [e], loop := .rejecting s.read.length answer } := by
  have howed : owed { s with read := s.read ++ [e], loop := .rejecting s.read.length answer }
      = s.read.length ::ₘ s.owed := by
    unfold owed
    rw [hloop, loopOwes_serving, loopOwes_rejecting, ← Multiset.singleton_add]
    abel
  constructor
  case nodup =>
    rw [howed]
    exact Multiset.nodup_cons.mpr ⟨h.notMem_owed, h.nodup⟩
  case bound =>
    rw [howed]
    intro serial hmem
    rcases Multiset.mem_cons.mp hmem with rfl | hmem
    · simp
    · exact h.lt_of_mem e serial hmem
  case tasks => exact fun task hmem => (h.tasks task hmem).mono e
  case loop => exact ⟨e, id, getElem?_last _ _, hwanted, hreplies⟩
  case queue => exact fun entry hmem => (h.queue entry hmem).mono e
  case written => exact fun entry hmem => (h.written entry hmem).mono e
  case complete =>
    rw [howed]
    exact h.complete_append (Multiset.le_cons_self _ _) fun _ _ => Multiset.mem_cons_self _ _

/-- A request is handed to a task. -/
lemma Accounted.read_handling (h : Accounted s) {version : ProtocolVersion} {request : Request M}
    (hbody : e.body = some (.request request)) :
    Accounted { s with
      read := s.read ++ [e]
      inflight := .handling s.read.length version request e.auth ::ₘ s.inflight } := by
  have howed : owed { s with
      read := s.read ++ [e]
      inflight := .handling s.read.length version request e.auth ::ₘ s.inflight }
      = taskOwes (.handling s.read.length version request e.auth : ServerTask M P) + s.owed := by
    unfold owed
    rw [Multiset.cons_bind]
    abel
  constructor
  case nodup =>
    rw [howed]
    cases hwait : request.waitReply with
    | true => simpa [taskOwes, hwait] using ⟨h.notMem_owed, h.nodup⟩
    | false => simpa [taskOwes, hwait] using h.nodup
  case bound =>
    rw [howed]
    intro serial hmem
    rcases Multiset.mem_add.mp hmem with hmem | hmem
    · have hself : serial = s.read.length := by
        cases hwait : request.waitReply with
        | true => simpa [taskOwes, hwait] using hmem
        | false => simp [taskOwes, hwait] at hmem
      rw [hself]
      simp
    · exact h.lt_of_mem e serial hmem
  case tasks =>
    intro task hmem
    rcases Multiset.mem_cons.mp hmem with rfl | hmem
    · exact ⟨e, getElem?_last _ _, hbody⟩
    · exact (h.tasks task hmem).mono e
  case loop => exact h.loop.mono e
  case queue => exact fun entry hmem => (h.queue entry hmem).mono e
  case written => exact fun entry hmem => (h.written entry hmem).mono e
  case complete =>
    rw [howed]
    refine h.complete_append (Multiset.le_add_left _ _) fun id hwanted => ?_
    have hwait : request.waitReply = true := by
      by_contra hno
      simp [Envelope.replyWanted, hbody, hno] at hwanted
    refine Multiset.mem_add.mpr (.inl ?_)
    simp [taskOwes, hwait]

/-- **A frame keeps the account.** -/
lemma Accounted.readFrame (h : Accounted s) (e : Envelope M P) (hloop : s.loop = .serving) :
    Accounted (s.readFrame e) := by
  unfold Server.readFrame
  dsimp only
  split
  · split
    · next id hwanted =>
        exact h.read_rejecting hloop hwanted (Envelope.replies_responseErr _ _ _)
    · next hwanted => exact h.read_silent (by simp [hwanted])
  · split
    · next request hbody => exact h.read_handling hbody
    · next hno =>
        refine h.read_silent fun id hwanted => ?_
        obtain ⟨r, hr, -, -⟩ := Envelope.replyWanted_eq_some hwanted
        unfold Envelope.asRequest at hr
        split at hr
        · next r' hbody => exact hno r' hbody
        · cases hr

lemma Accounted.step (h : Accounted s) (hstep : Step cfg s s') : Accounted s' := by
  rcases hstep with hown | houter
  · exact h.own hown
  have habort : Accounted { s with loop := .draining, aborted := true } := by
    refine h.move rfl ?_ (fun hlasts => by cases hlasts.2) (fun _ hmem => .inl hmem) trivial
      h.queue h.written
    unfold owed
    gcongr
    exact Multiset.zero_le _
  cases houter with
  | frame e hloop _ => exact h.readFrame e hloop
  | readEnded hloop =>
      have howed : owed { s with loop := .draining } = s.owed := by
        unfold owed
        rw [hloop]
        rfl
      exact h.move rfl (le_of_eq howed) (fun hlasts => ⟨howed, hlasts⟩) (fun _ hmem => .inl hmem)
        trivial h.queue h.written
  | cancelled _ => exact habort
  | writerGone _ _ => exact habort
  | closed _ _ _ =>
      exact h.move rfl (le_refl _) (fun hlasts => by cases hlasts.1) (fun _ hmem => .inl hmem)
        h.loop h.queue h.written

lemma Run.accounted (run : Run cfg s) : Accounted s := by
  induction run with
  | refl => exact accounted_accepted
  | tail _ hstep ih => exact ih.step hstep

/-- **No request is answered twice**, and none that wants no reply; every reply carries the id of
its request. -/
theorem replies_of_run (run : Run cfg s) :
    (s.written.map Prod.fst).Nodup ∧
      ∀ serial e, (serial, e) ∈ s.written → Replies s.read serial e := by
  have h := run.accounted
  refine ⟨?_, fun serial e hmem => h.written (serial, e) hmem⟩
  exact Multiset.coe_nodup.mp (Multiset.nodup_of_le (Multiset.le_add_left _ _) h.nodup)

/-! ## What is left to do -/

/-- How many steps a task can still cause. -/
def taskWork : ServerTask M P → ℕ
  | .handling _ _ _ _ => 4
  | .replying _ _ => 3
  | .done => 1

def loopWork : ServerLoop M P → ℕ
  | .rejecting _ _ => 2
  | _ => 0

/-- How many steps the server can still take by itself, at most. -/
def work (s : Server M P) : ℕ :=
  (s.inflight.map taskWork).sum + loopWork s.loop + s.queue.length

/-- **Left to itself, the server comes to rest.** -/
lemma work_lt (hown : Own cfg s s') : s'.work < s.work := by
  cases hown with
  | @handled serial version request auth rest result htask =>
      have hlt : taskWork (replyTo serial version request result : ServerTask M P) < 4 := by
        cases hwait : request.waitReply with
        | true => simp [replyTo, hwait, taskWork]
        | false => simp [replyTo, hwait, taskWork]
      have hfour : taskWork (.handling serial version request auth : ServerTask M P) = 4 := rfl
      have hwork : s.work = 4 + (rest.map taskWork).sum + loopWork s.loop + s.queue.length := by
        rw [work, htask, Multiset.map_cons, Multiset.sum_cons, hfour]
      rw [hwork, work, Multiset.map_cons, Multiset.sum_cons]
      dsimp only
      omega
  | queued htask _ _ => simp [work, htask, taskWork]; omega
  | lost htask _ => simp [work, htask, taskWork]
  | joined htask => simp [work, htask, taskWork]
  | rejected hloop _ _ => simp [work, hloop, loopWork]; omega
  | broken hloop _ => simp [work, hloop, loopWork]
  | wrote hqueue _ _ => simp [work, hqueue]
  | writeFailed hqueue _ => simp [work, hqueue]
  | @vanished task rest htask _ =>
      have hpos : 0 < taskWork task := by cases task <;> simp [taskWork]
      rw [work, work, htask, Multiset.map_cons, Multiset.sum_cons]
      dsimp only
      omega

/-- A server that can do nothing by itself has nothing in its hands. -/
lemma idle_of_rest (halive : s.writerAlive = true) (hrest : ∀ s', ¬Own cfg s s') :
    s.inflight = 0 ∧ loopOwes s.loop = 0 ∧ s.queue = [] := by
  have hqueue : s.queue = [] := by
    cases hq : s.queue with
    | nil => rfl
    | cons entry rest => exact absurd (Own.writeFailed hq halive) (hrest _)
  have hroom : Room cfg s := by
    unfold Room
    rw [hqueue]
    exact lt_of_lt_of_le Nat.zero_lt_one (le_max_right _ _)
  refine ⟨?_, ?_, hqueue⟩
  · by_contra hne
    obtain ⟨task, hmem⟩ := Multiset.exists_mem_of_ne_zero hne
    obtain ⟨rest, htask⟩ := Multiset.exists_cons_of_mem hmem
    cases task with
    | handling serial version request auth =>
        exact hrest _ (.handled (.error (Envelope.malformed "")) htask)
    | replying serial e => exact hrest _ (.queued htask halive hroom)
    | done => exact hrest _ (.joined htask)
  · cases hloop : s.loop with
    | rejecting serial e => exact absurd (Own.rejected hloop halive hroom) (hrest _)
    | _ => rfl

/-- **Each request is answered.**  When the server has done what it can and the connection lasts,
every request read that wants a reply has been sent one. -/
theorem answered_of_run (run : Run cfg s) (hlasts : s.Lasts) (hrest : ∀ s', ¬Own cfg s s')
    {asked : Envelope M P} {id : UInt64} (hget : s.read[serial]? = some asked)
    (hwanted : asked.replyWanted = some id) : ∃ e, (serial, e) ∈ s.written := by
  obtain ⟨hinflight, hloop, hqueue⟩ := idle_of_rest hlasts.1 hrest
  have hmem := run.accounted.complete hlasts serial asked id hget hwanted
  unfold owed at hmem
  rw [hinflight, hloop, hqueue, Multiset.zero_bind] at hmem
  simpa using hmem

end Server

end Netsukuku.Rpc
