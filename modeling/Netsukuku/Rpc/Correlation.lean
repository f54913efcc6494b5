import Mathlib
import Netsukuku.Rpc.Pending
import Netsukuku.Rpc.Server

/-!
# Requests and their answers

What the two ends of a connection do together, over every run of a client and every run of a
server: the client hands each answer to the call it belongs to, and the server gives each request
one.

* `correlated_of_run` — the whole of it; the table of the client is right as long as no caller is
  dropped whose call is under way.
* `not_pending_waited` — otherwise an entry is left behind.
-/

namespace Netsukuku.Rpc

variable {M P : Type}

lemma Client.Run.mono {D D' : Client M P → Ticket → Prop} (hD : ∀ s t, D s t → D' s t)
    {s : Client M P} (run : Client.Run D s) : Client.Run D' s := by
  induction run with
  | fromStream => exact .fromStream
  | step _ hstep ih =>
      refine ih.step ?_
      cases hstep with
      | start caller unicastId waitReply call auth hcount => exact .start _ _ _ _ _ _ hcount
      | submit hget hphase => exact .submit hget hphase
      | answered hget hphase hslot => exact .answered hget hphase hslot
      | timeOut hget hphase => exact .timeOut hget hphase
      | drop hget hphase hdrop => exact .drop hget hphase (hD _ _ hdrop)
      | take hactor hqueue => exact .take hactor hqueue
      | wrote w hactor => exact .wrote w hactor
      | readFrame frame hactor => exact .readFrame frame hactor
      | hangUp hactor hqueue hcallers => exact .hangUp hactor hqueue hcallers

/-- **Each call gets its own answer, and each request one.**  A call returns at most once, and as
the peer's answer only what a response with its id carried; if callers are dropped only where it is
harmless, whatever the table holds while the queue is empty is waited for.  The server answers no
request twice, under the request's id; by itself it comes to rest, and then each request that wants
a reply has been answered unless the connection has ended. -/
theorem correlated_of_run {D : Client M P → Ticket → Prop} {cfg : ServerConfig M P}
    {s : Client M P} {v : Server M P} (run : Client.Run D s) (srun : Server.Run cfg v) :
    ((s.resolutions.map Prod.fst).Nodup ∧
      (∀ t p, (t, .ok (some p)) ∈ s.resolutions → Client.Answered s.received t (.payload p)) ∧
      ∀ t e, (t, .error (.remote e)) ∈ s.resolutions → Client.Answered s.received t (.error e)) ∧
    ((∀ s t, D s t → Client.Harmless s t) → s.queue = [] →
      ∀ id t, s.pending.get? id = some t → id = idOf t ∧ s.Waits t) ∧
    ((v.written.map Prod.fst).Nodup ∧
      ∀ serial e, (serial, e) ∈ v.written → Server.Replies v.read serial e) ∧
    (∀ v', Server.Own cfg v v' → v'.work < v.work) ∧
    (v.Lasts → (∀ v', ¬Server.Own cfg v v') → ∀ serial asked id, v.read[serial]? = some asked →
      asked.replyWanted = some id → ∃ e, (serial, e) ∈ v.written) := by
  refine ⟨Client.answers_of_run run, fun hD hqueue id t hget => ?_, Server.replies_of_run srun,
    fun v' hown => Server.work_lt hown, fun hlasts hrest serial asked id hget hwanted => ?_⟩
  · exact Client.waiting_of_run (run.mono hD) hqueue hget
  · exact Server.answered_of_run srun hlasts hrest hget hwanted

/-! ## Four calls -/

namespace CallsExample

def caller : CallerContext := ⟨none, none⟩

def unicastId : TypedValue := ⟨"NodeID", [7]⟩

/-- The request of the call with this id. -/
def asked (id : UInt64) : Envelope Unit ℕ := .request id caller unicastId true () none

/-- A call is made, and its request written. -/
def sent (t : Ticket) (s : Client Unit ℕ) : Client Unit ℕ :=
  (((s.start caller unicastId true () none).submit t ⟨asked (idOf t), true, .started⟩).take
    (.call (asked (idOf t)) t) []).wrote (.call (asked (idOf t)) t) .ok

/-- A call of which nothing came yet. -/
def waiting (t : Ticket) : Caller Unit ℕ := ⟨asked (idOf t), true, .waiting⟩

/-- Four calls are under way. -/
def under : Client Unit ℕ := sent 3 (sent 2 (sent 1 (sent 0 .fromStream)))

/-- The answers to the second and the third arrive, twice and with one to an unknown id; then the
second returns and the third is dropped. -/
def answered : Client Unit ℕ :=
  ((((((under.readFrame (.envelope (.responseOk .current 9 90))).readFrame
    (.envelope (.responseOk .current 3 30))).readFrame
    (.envelope (.responseOk .current 2 20))).readFrame
    (.envelope (.responseOk .current 2 21))).resolve 1 (waiting 1) (.ok (some 20))).setCaller 2
    { waiting 2 with phase := .dropped })

/-- The fourth gives up waiting and is forgotten. -/
def forgotten : Client Unit ℕ := (answered.timeOut 3 (waiting 3)).take (.forget 4) []

section Run

variable (D : Client Unit ℕ → Ticket → Prop)

lemma run_sent (t : Ticket) {s : Client Unit ℕ} (h : Client.Run D s)
    (hcount : s.issued + 1 < 2 ^ 64)
    (hget : (s.start caller unicastId true () none).callers t =
      some ⟨asked (idOf t), true, .started⟩)
    (hactor : ((s.start caller unicastId true () none).submit t
      ⟨asked (idOf t), true, .started⟩).actor = .idle)
    (hqueue : ((s.start caller unicastId true () none).submit t
      ⟨asked (idOf t), true, .started⟩).queue = [.call (asked (idOf t)) t]) :
    Client.Run D (sent t s) := by
  have hstart := h.step (.start s caller unicastId true () none hcount)
  have hsubmit := hstart.step (.submit hget rfl)
  have htake := hsubmit.step (.take hactor hqueue)
  exact htake.step (.wrote .ok rfl)

lemma run_under : Client.Run D under := by
  have h0 := run_sent D 0 .fromStream (by decide) rfl rfl rfl
  have h1 := run_sent D 1 h0 (by decide) rfl rfl rfl
  have h2 := run_sent D 2 h1 (by decide) rfl rfl rfl
  exact run_sent D 3 h2 (by decide) rfl rfl rfl

end Run

lemma run_forgotten : Client.Run Client.Harmless forgotten := by
  have hunknown := (run_under Client.Harmless).step
    (.readFrame (.envelope (.responseOk .current 9 90)) rfl)
  have hthird := hunknown.step (.readFrame (.envelope (.responseOk .current 3 30)) rfl)
  have hsecond := hthird.step (.readFrame (.envelope (.responseOk .current 2 20)) rfl)
  have hagain := hsecond.step (.readFrame (.envelope (.responseOk .current 2 21)) rfl)
  have hresolve := hagain.step (.answered (t := 1) (c := waiting 1) rfl rfl rfl)
  have hdrop : Client.Run Client.Harmless answered :=
    hresolve.step (.drop (t := 2) (c := waiting 2) rfl rfl (.inl nofun))
  have htime := hdrop.step (.timeOut (t := 3) (c := waiting 3) rfl rfl)
  exact htime.step (.take rfl rfl)

/-- A notification, and a request of another protocol version. -/
def told : Envelope Unit ℕ := .request 2 caller unicastId false () none

def foreign : Envelope Unit ℕ := { asked 3 with version := some ⟨2, 0⟩ }

/-- What the handler answers, and the refusal of the other version. -/
def reply : Envelope Unit ℕ := .responseOk .current 1 10

def refusal : Envelope Unit ℕ :=
  .responseErr .current 3 (Envelope.malformed "incompatible or missing protocol version")

/-- The server's limits. -/
def cfg : ServerConfig Unit ℕ := ⟨fun _ => 0, 8, 2, 1⟩

/-- A connection on which nothing has failed. -/
def serving (read : List (Envelope Unit ℕ)) (loop : ServerLoop Unit ℕ)
    (inflight : Multiset (ServerTask Unit ℕ)) (queue written : List (ℕ × Envelope Unit ℕ)) :
    Server Unit ℕ := ⟨read, loop, inflight, queue, written, true, false⟩

/-- The tasks of the request and of the notification. -/
def handling : ServerTask Unit ℕ :=
  .handling 0 .current ⟨1, some caller, some unicastId, true, some ()⟩ none

def noting : ServerTask Unit ℕ :=
  .handling 1 .current ⟨2, some caller, some unicastId, false, some ()⟩ none

/-- All three have been read; the refusal is written first, then the answer. -/
def served : Server Unit ℕ :=
  serving [asked 1, told, foreign] .serving 0 [] [(2, refusal), (0, reply)]

lemma run_served : Server.Run cfg served := by
  have hasked : Server.Step cfg .accepted (serving [asked 1] .serving {handling} [] []) :=
    .inr (.frame (asked 1) rfl (by decide))
  have htold : Server.Step cfg (serving [asked 1] .serving {handling} [] [])
      (serving [asked 1, told] .serving (noting ::ₘ {handling}) [] []) :=
    .inr (.frame told rfl (by decide))
  have hnoted : Server.Step cfg (serving [asked 1, told] .serving (noting ::ₘ {handling}) [] [])
      (serving [asked 1, told] .serving (.done ::ₘ {handling}) [] []) :=
    .inl (Server.Own.handled (.ok 0) (show _ = noting ::ₘ {handling} from rfl))
  have hjoined : Server.Step cfg (serving [asked 1, told] .serving (.done ::ₘ {handling}) [] [])
      (serving [asked 1, told] .serving {handling} [] []) :=
    .inl (.joined (show _ = ServerTask.done ::ₘ {handling} from rfl))
  have hhandled : Server.Step cfg (serving [asked 1, told] .serving {handling} [] [])
      (serving [asked 1, told] .serving {.replying 0 reply} [] []) :=
    .inl (Server.Own.handled (.ok 10) (show _ = handling ::ₘ 0 from rfl))
  have hforeign : Server.Step cfg (serving [asked 1, told] .serving {.replying 0 reply} [] [])
      (serving [asked 1, told, foreign] (.rejecting 2 refusal) {.replying 0 reply} [] []) :=
    .inr (.frame foreign rfl (by decide))
  have hrefused : Server.Step cfg
      (serving [asked 1, told, foreign] (.rejecting 2 refusal) {.replying 0 reply} [] [])
      (serving [asked 1, told, foreign] .serving {.replying 0 reply} [(2, refusal)] []) :=
    .inl (.rejected rfl rfl (show 0 < 1 by decide))
  have hfirst : Server.Step cfg
      (serving [asked 1, told, foreign] .serving {.replying 0 reply} [(2, refusal)] [])
      (serving [asked 1, told, foreign] .serving {.replying 0 reply} [] [(2, refusal)]) :=
    .inl (.wrote rfl rfl (by decide))
  have hqueued : Server.Step cfg
      (serving [asked 1, told, foreign] .serving {.replying 0 reply} [] [(2, refusal)])
      (serving [asked 1, told, foreign] .serving {.done} [(0, reply)] [(2, refusal)]) :=
    .inl (.queued (show _ = ServerTask.replying 0 reply ::ₘ 0 from rfl) rfl
      (show 0 < 1 by decide))
  have hdone : Server.Step cfg
      (serving [asked 1, told, foreign] .serving {.done} [(0, reply)] [(2, refusal)])
      (serving [asked 1, told, foreign] .serving 0 [(0, reply)] [(2, refusal)]) :=
    .inl (.joined (show _ = ServerTask.done ::ₘ 0 from rfl))
  have hsecond : Server.Step cfg
      (serving [asked 1, told, foreign] .serving 0 [(0, reply)] [(2, refusal)]) served :=
    .inl (.wrote rfl rfl (by decide))
  exact ((((((((((Relation.ReflTransGen.single hasked).tail htold).tail hnoted).tail hjoined).tail
    hhandled).tail hforeign).tail hrefused).tail hfirst).tail hqueued).tail hdone).tail hsecond

/-- Then nothing is left to do. -/
lemma served_rest (v : Server Unit ℕ) : ¬Server.Own cfg served v := by
  intro hown
  cases hown with
  | handled result htask => exact Multiset.zero_ne_cons htask
  | queued htask _ _ => exact Multiset.zero_ne_cons htask
  | lost htask _ => exact Multiset.zero_ne_cons htask
  | joined htask => exact Multiset.zero_ne_cons htask
  | rejected hloop _ _ => cases hloop
  | broken hloop _ => cases hloop
  | wrote hqueue _ _ => cases hqueue
  | writeFailed hqueue _ => cases hqueue
  | vanished htask _ => exact Multiset.zero_ne_cons htask

end CallsExample

open CallsExample

/-- Of four calls one got its answer, one was dropped with the answer in its hands, one gave up, and
the table has the one that still waits; the server has answered the two requests that want it. -/
theorem correlated_of_run_four :
    (forgotten.resolutions.map Prod.fst).Nodup ∧
    Client.Answered forgotten.received 1 (.payload 20) ∧
    (forgotten.pending.get? 1 = some 0 ∧ forgotten.Waits 0) ∧
    (∃ e, (0, e) ∈ served.written) ∧ (∃ e, (2, e) ∈ served.written) ∧
    Server.Replies served.read 2 refusal := by
  obtain ⟨⟨hnodup, hok, -⟩, htable, ⟨-, hreplies⟩, -, hanswered⟩ :=
    correlated_of_run run_forgotten run_served
  have hentry : forgotten.pending.get? 1 = some 0 := by decide
  exact ⟨hnodup, hok 1 20 (by decide), ⟨hentry, (htable (fun _ _ h => h) rfl 1 0 hentry).2⟩,
    hanswered ⟨rfl, rfl⟩ served_rest 0 (asked 1) 1 rfl rfl,
    hanswered ⟨rfl, rfl⟩ served_rest 2 foreign 3 rfl rfl, hreplies 2 _ (by decide)⟩

/-- A caller that is dropped while its request is under way is not forgotten: its entry is in the
table although the queue is empty and nobody waits. -/
theorem not_pending_waited :
    ∃ s : Client Unit ℕ, Client.Run (fun _ _ => True) s ∧ s.queue = [] ∧
      s.actor = .idle ∧ s.pending.get? 1 = some 0 ∧ ¬s.Waits 0 := by
  have hdrop := (run_sent (fun _ _ => True) 0 .fromStream (by decide) rfl rfl rfl).step
    (.drop (t := 0) (c := waiting 0) rfl rfl trivial)
  refine ⟨_, hdrop, rfl, rfl, by decide, ?_⟩
  rintro ⟨c, hget, hphase⟩
  obtain rfl := Option.some.inj hget
  cases hphase

end Netsukuku.Rpc
