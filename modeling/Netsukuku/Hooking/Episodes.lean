import Mathlib
import Netsukuku.Hooking.Arbiter

/-!
# Episodes of the arc handler around one arbiter

An episode asks for an election, works on the entry at the level it was given or below, and
reports the end.  Its guard reports once more when the handler leaves without an acknowledged
report, also when the task is cancelled.  Every report names a level and nothing else.

* `Episode.resume` — what an episode does next, and the request it sends.
* `EnterWorld.next` — one action of an episode, of the wire, or of a handler at the arbiter, which
  reads and writes the hooking memory in separate steps; or a copy of the memory that comes back.
* `Orderly` — when an action is safe to take.
* `release_own` — in a run of orderly actions a report ends its own election or none.
-/

namespace Netsukuku.Hooking

/-! ## One episode -/

/-- Why an entry is aborted; `targetChanged` also if the g-node is already there. -/
inductive AbortReason where
  | noMigrationPath
  | executeFailure
  | targetChanged
  deriving DecidableEq, Repr

/-- What an episode is waiting for. -/
inductive Stage where
  | idle
  | evaluating (unreachableRetries : ℕ)
  | beginning
  | searching
  | aborting (why : AbortReason)
  | completing
  -- Past its last report, until the guard is dropped.
  | leaving
  | over
  deriving DecidableEq, Repr

/-- `EnterGuard`. -/
structure EnterGuard where
  level : ℕ
  resolved : Bool
  deriving DecidableEq, Repr

/-- One pass of `run_arc_handler` from the evaluation on. -/
structure Episode where
  networkId : Int64
  evaluateEnterId : Int32
  stage : Stage
  askLvl : ℕ
  execFailures : ℕ
  guard : Option EnterGuard
  deriving DecidableEq, Repr

/-- What an episode asks of the coordinator. -/
inductive EnterRequest where
  | evaluate
  | abort (level : ℕ)
  | completed (level : ℕ)
  deriving DecidableEq, Repr

/-- What an episode can be woken by. -/
inductive EpisodeEvent where
  | started
  | answered (answer : EvaluateEnterAnswer)
  | unreachable
  | begun (ok : Bool)
  | entryFound (usable : Bool)
  | noMigrationPath
  | executeFailed
  | badArc
  | released (ok : Bool)
  | dropped
  deriving DecidableEq, Repr

/-- `EVALUATE_ENTER_UNREACHABLE_RETRIES`. -/
def evaluateEnterUnreachableRetries : ℕ := 5

/-- `MAX_EXEC_FAILURES`. -/
def maxExecFailures : ℕ := 4

namespace Episode

/-- `EnterGuard::note_released`, of a call for `askLvl` that succeeded. -/
def noteReleased (ep : Episode) : Episode :=
  { ep with guard := ep.guard.map fun g =>
      if ep.askLvl = g.level then { g with resolved := true } else g }

/-- `EnterGuard::drop`: what is sent if no report was acknowledged for the guard's level. -/
def dropRequest (ep : Episode) : Option EnterRequest :=
  match ep.guard with
  | some g => if g.resolved then none else some (.abort g.level)
  | none => none

/-- The end of the episode. -/
def finish (ep : Episode) : Episode × Option EnterRequest :=
  ({ ep with stage := .over, guard := none }, ep.dropRequest)

/-- What follows an abort that was acknowledged. -/
def afterAbort (ep : Episode) : AbortReason → Episode
  | .targetChanged => { ep with stage := .leaving }
  | .noMigrationPath =>
      if ep.askLvl = 0 then { ep with stage := .leaving }
      else { ep with stage := .beginning, askLvl := ep.askLvl - 1 }
  | .executeFailure =>
      if maxExecFailures ≤ ep.execFailures + 1 then
        { ep with stage := .leaving, execFailures := ep.execFailures + 1 }
      else { ep with stage := .beginning, execFailures := ep.execFailures + 1 }

/-- The next turn of the handler; `none` if it is not waiting for this. -/
def resume (ep : Episode) (ev : EpisodeEvent) : Option (Episode × Option EnterRequest) :=
  match ep.stage, ev with
  | .idle, .started => some ({ ep with stage := .evaluating 0 }, some .evaluate)
  | .idle, _ => none
  | .over, _ => none
  | _, .dropped => some ep.finish
  | .evaluating _, .answered (.accepted lvl) =>
      some ({ ep with
        stage := .beginning, askLvl := lvl, execFailures := 0, guard := some ⟨lvl, false⟩ }, none)
  | .evaluating _, .answered .askAgain => some (ep, some .evaluate)
  | .evaluating _, .answered .ignoreNetwork => some ({ ep with stage := .leaving }, none)
  | .evaluating n, .unreachable =>
      if n < evaluateEnterUnreachableRetries then
        some ({ ep with stage := .evaluating (n + 1) }, some .evaluate)
      else some ({ ep with stage := .leaving }, none)
  | .beginning, .begun true => some ({ ep with stage := .searching }, none)
  | .beginning, .begun false => some ({ ep with stage := .leaving }, none)
  | .searching, .entryFound true =>
      some ({ ep with stage := .completing }, some (.completed ep.askLvl))
  | .searching, .entryFound false =>
      some ({ ep with stage := .aborting .targetChanged }, some (.abort ep.askLvl))
  | .searching, .noMigrationPath =>
      some ({ ep with stage := .aborting .noMigrationPath }, some (.abort ep.askLvl))
  | .searching, .executeFailed =>
      some ({ ep with stage := .aborting .executeFailure }, some (.abort ep.askLvl))
  | .searching, .badArc => some ({ ep with stage := .leaving }, none)
  | .aborting why, .released true => some (ep.noteReleased.afterAbort why, none)
  | .aborting _, .released false => some ({ ep with stage := .leaving }, none)
  | .completing, .released true => some ({ ep.noteReleased with stage := .leaving }, none)
  | .completing, .released false => some ({ ep with stage := .leaving }, none)
  | _, _ => none

/-- The episode may still report at `level`: it is working there, or its guard is armed there. -/
def MayReport (ep : Episode) (level : ℕ) : Prop :=
  (ep.askLvl = level ∧
    (ep.stage = .beginning ∨ ep.stage = .searching ∨ ep.stage = .aborting .executeFailure)) ∨
  ep.guard = some ⟨level, false⟩

/-- The level at which the episode starts to work when `ev` wakes it. -/
def gains (ep : Episode) (ev : EpisodeEvent) : Option ℕ :=
  match ep.stage, ev with
  | .evaluating _, .answered (.accepted lvl) => some lvl
  | .aborting .noMigrationPath, .released true =>
      if ep.askLvl = 0 then none else some (ep.askLvl - 1)
  | _, _ => none

end Episode

/-- A request that ends an election at `level`. -/
def EnterRequest.ReportsAt (req : EnterRequest) (level : ℕ) : Prop :=
  req = .abort level ∨ req = .completed level

section Resume

variable {ep ep' : Episode} {ev : EpisodeEvent} {req : Option EnterRequest} {level : ℕ}

lemma noteReleased_guard (h : ep.noteReleased.guard = some ⟨level, false⟩) :
    ep.guard = some ⟨level, false⟩ := by
  unfold Episode.noteReleased at h
  cases hguard : ep.guard with
  | none => simp [hguard] at h
  | some g =>
      simp only [hguard, Option.map_some, Option.some.injEq] at h
      split_ifs at h with hlevel
      · cases h
      · rw [h]

/-- Past its last report an episode has only its guard. -/
lemma MayReport.of_leaving (h : ep.MayReport level) (hstage : ep.stage = .leaving) :
    ep.guard = some ⟨level, false⟩ := by
  rcases h with ⟨-, h | h | h⟩ | h
  · simp [hstage] at h
  · simp [hstage] at h
  · simp [hstage] at h
  · exact h

lemma dropRequest_guard {r : EnterRequest} (h : ep.dropRequest = some r) (hr : r.ReportsAt level) :
    ep.guard = some ⟨level, false⟩ := by
  unfold Episode.dropRequest at h
  split at h
  · rename_i g hguard
    split_ifs at h with hresolved
    obtain rfl := Option.some.inj h
    obtain hr | hr := hr
    · obtain ⟨lvl, resolved⟩ := g
      simp only [EnterRequest.abort.injEq] at hr
      simp only [Bool.not_eq_true] at hresolved
      rw [hguard, hr, hresolved]
    · cases hr
  · cases h

lemma afterAbort_reports {why : AbortReason} (hstage : ep.stage = .aborting why)
    (h : (ep.noteReleased.afterAbort why).MayReport level) :
    ep.MayReport level ∨ ep.gains (.released true) = some level := by
  have hask : ep.noteReleased.askLvl = ep.askLvl := rfl
  cases why with
  | targetChanged =>
      have hguard := MayReport.of_leaving h rfl
      exact Or.inl (Or.inr (noteReleased_guard hguard))
  | noMigrationPath =>
      simp only [Episode.afterAbort, hask] at h
      split_ifs at h with hzero
      · have hguard := MayReport.of_leaving h rfl
        exact Or.inl (Or.inr (noteReleased_guard hguard))
      · rcases h with ⟨hlevel, -⟩ | h
        · right
          simp only [Episode.gains, hstage, if_neg hzero]
          exact congrArg some hlevel
        · exact Or.inl (Or.inr (noteReleased_guard h))
  | executeFailure =>
      simp only [Episode.afterAbort] at h
      split_ifs at h
      · have hguard := MayReport.of_leaving h rfl
        exact Or.inl (Or.inr (noteReleased_guard hguard))
      · rcases h with ⟨hlevel, -⟩ | h
        · exact Or.inl (Or.inl ⟨hlevel, Or.inr (Or.inr hstage)⟩)
        · exact Or.inl (Or.inr (noteReleased_guard h))

lemma afterAbort_id (why : AbortReason) :
    (ep.afterAbort why).evaluateEnterId = ep.evaluateEnterId := by
  cases why with
  | targetChanged => rfl
  | noMigrationPath =>
      unfold Episode.afterAbort
      split_ifs <;> rfl
  | executeFailure =>
      unfold Episode.afterAbort
      split_ifs <;> rfl

lemma resume_id (h : ep.resume ev = some (ep', req)) :
    ep'.evaluateEnterId = ep.evaluateEnterId := by
  unfold Episode.resume at h
  split at h
  case h_8 =>
    split_ifs at h
    all_goals (cases h; rfl)
  case h_16 =>
    cases h
    exact afterAbort_id _
  all_goals (cases h <;> rfl)

/-- A report an episode sends, or may send later, is one it could send before this turn, or is for
the level it starts to work at. -/
lemma resume_reports (h : ep.resume ev = some (ep', req))
    (hlevel : ep'.MayReport level ∨ ∃ r, req = some r ∧ r.ReportsAt level) :
    ep.MayReport level ∨ ep.gains ev = some level := by
  unfold Episode.resume at h
  split at h
  all_goals try (cases h; done)
  case h_4 =>
    cases h
    rcases hlevel with (⟨-, hstage⟩ | hguard) | ⟨r, hreq, hr⟩
    · simp at hstage
    · simp at hguard
    · exact Or.inl (Or.inr (dropRequest_guard hreq hr))
  case h_16 hstage =>
    cases h
    rcases hlevel with hlevel | ⟨r, hreq, -⟩
    · exact afterAbort_reports hstage hlevel
    · cases hreq
  case h_18 hstage =>
    cases h
    rcases hlevel with hlevel | ⟨r, hreq, -⟩
    · have hguard := MayReport.of_leaving hlevel rfl
      exact Or.inl (Or.inr (noteReleased_guard hguard))
    · cases hreq
  case h_8 =>
    split_ifs at h
    all_goals
      cases h
      simp_all [Episode.MayReport, EnterRequest.ReportsAt]
  all_goals
    cases h
    simp_all [Episode.MayReport, Episode.gains, EnterRequest.ReportsAt]
  -- What is left are the reports sent at the end of a search.
  all_goals tauto

end Resume

/-! ## Episodes, wire and handlers -/

/-- What is on the wire, in no particular order. -/
inductive Packet (ι : Type) where
  | request (e : ι) (req : EnterRequest)
  | answer (e : ι) (answer : EvaluateEnterAnswer)
  | done (e : ι)

/-- A request the arbiter has begun to serve: `granting` still has the lock and is to write the
memory it read; a report has been noted locally, then has the memory read, then is to write it. -/
inductive Handler (ι : Type) where
  | granting (e : ι) (level : ℕ) (r : Readings) (mem : HookingMemory)
  | releasing (e : ι) (level : ℕ)
  | removing (e : ι) (level : ℕ) (read : Option HookingMemory)
  | finishing (e : ι) (level : ℕ)
  | marking (e : ι) (level : ℕ) (read : Option HookingMemory)

/-- Any number of episodes, all served by one arbiter. -/
structure EnterWorld (ι : Type) where
  arbiter : ArbiterState
  episodes : ι → Episode
  wire : List (Packet ι)
  handlers : List (Handler ι)

/-- An action, and what it depends on besides the state: `receive` and `serve` take a packet off
the wire by its place, `advance` goes on with a handler.  Besides these the memory is sent to
replicas, one of the copies sent comes back, and a member writes it, as for a merge verdict. -/
inductive EnterAction (ι : Type) where
  | resume (e : ι) (ev : EpisodeEvent)
  | receive (i : ℕ)
  | serve (i : ℕ) (level : ℕ) (r : Readings)
  | advance (i : ℕ) (wall : ℕ)
  | replicate
  | replica (i : ℕ)
  | setMemory (data : Option HookingMemory)

/-- Events that come with a packet. -/
def EpisodeEvent.isReply : EpisodeEvent → Bool
  | .answered _ => true
  | .released ok => ok
  | _ => false

/-- The handler holds the lock of the arbiter. -/
def Handler.isGranting {ι : Type} : Handler ι → Bool
  | .granting .. => true
  | _ => false

/-- The report the handler is about. -/
def Handler.report {ι : Type} : Handler ι → Option (ι × ℕ)
  | .granting .. => none
  | .releasing e level => some (e, level)
  | .removing e level _ => some (e, level)
  | .finishing e level => some (e, level)
  | .marking e level _ => some (e, level)

namespace EnterWorld

variable {ι : Type} [DecidableEq ι]

/-- An episode has its turn. -/
def wake (w : EnterWorld ι) (e : ι) (ev : EpisodeEvent) : Option (EnterWorld ι) :=
  ((w.episodes e).resume ev).map fun out =>
    { w with
      episodes := Function.update w.episodes e out.1
      wire := w.wire ++ (out.2.map (Packet.request e)).toList }

/-- The arbiter begins to serve a request. -/
def begin (w : EnterWorld ι) (e : ι) (level : ℕ) (r : Readings) : EnterRequest → EnterWorld ι
  | .evaluate =>
      match w.arbiter.ask r level (w.episodes e).networkId (w.episodes e).evaluateEnterId with
      | (s, some answer) => { w with arbiter := s, wire := w.wire ++ [.answer e answer] }
      | (s, none) => { w with
          arbiter := s, handlers := w.handlers ++ [.granting e level r s.hookingMemory] }
  | .abort lvl => { w with
      arbiter := w.arbiter.releaseLocal lvl, handlers := w.handlers ++ [.releasing e lvl] }
  | .completed lvl => { w with
      arbiter := w.arbiter.completeLocal r.asked lvl, handlers := w.handlers ++ [.finishing e lvl] }

/-- The arbiter goes on with the handler at place `i`. -/
def proceed (w : EnterWorld ι) (i wall : ℕ) : Handler ι → EnterWorld ι
  | .granting e level r mem => { w with
      arbiter := w.arbiter.grant mem r level (w.episodes e).networkId (w.episodes e).evaluateEnterId
      handlers := w.handlers.eraseIdx i
      wire := w.wire ++ [.answer e (.accepted level)] }
  | .releasing e level => { w with
      handlers := w.handlers.set i (.removing e level w.arbiter.memory) }
  | .removing e level read => { w with
      arbiter := w.arbiter.write (ArbiterState.releasedMemory read level)
      handlers := w.handlers.eraseIdx i
      wire := w.wire ++ [.done e] }
  | .finishing e level => { w with
      handlers := w.handlers.set i (.marking e level w.arbiter.memory) }
  | .marking e level read => { w with
      arbiter := w.arbiter.write (ArbiterState.completedMemory read (nowMillis wall) level)
      handlers := w.handlers.eraseIdx i
      wire := w.wire ++ [.done e] }

/-- One action; `none` if it cannot be taken. -/
def next (w : EnterWorld ι) : EnterAction ι → Option (EnterWorld ι)
  | .resume e ev => if ev.isReply then none else w.wake e ev
  | .receive i =>
      match w.wire[i]? with
      | some (.answer e answer) => { w with wire := w.wire.eraseIdx i }.wake e (.answered answer)
      | some (.done e) => { w with wire := w.wire.eraseIdx i }.wake e (.released true)
      | _ => none
  | .serve i level r =>
      match w.wire[i]? with
      | some (.request e req) =>
          if w.handlers.any Handler.isGranting then none
          else some ({ w with wire := w.wire.eraseIdx i }.begin e level r req)
      | _ => none
  | .advance i wall => (w.handlers[i]?).map (w.proceed i wall)
  | .replicate => some { w with arbiter := w.arbiter.replicate }
  | .replica i =>
      (w.arbiter.sent[i]?).map fun copy => { w with arbiter := w.arbiter.applyReplica copy }
  | .setMemory data => some { w with arbiter := w.arbiter.setHookingMemory data }

/-- Actions one after the other. -/
def run (w : EnterWorld ι) : List (EnterAction ι) → Option (EnterWorld ι)
  | [] => some w
  | a :: as => (w.next a).bind fun w' => w'.run as

/-- Nothing has happened yet; the arbiter may be in any state. -/
def Fresh (w : EnterWorld ι) : Prop :=
  (∀ e, (w.episodes e).stage = .idle ∧ (w.episodes e).guard = none) ∧ w.wire = [] ∧ w.handlers = []

/-- A report of `e` at `level` is still to be executed, or to be sent. -/
def Outstanding (w : EnterWorld ι) (e : ι) (level : ℕ) : Prop :=
  (w.episodes e).MayReport level ∨
    (∃ req : EnterRequest, Packet.request e req ∈ w.wire ∧ req.ReportsAt level) ∨
    ∃ h ∈ w.handlers, Handler.report h = some (e, level)

/-- The episode whose report the action executes. -/
def reporter (w : EnterWorld ι) : EnterAction ι → Option ι
  | .serve i _ _ =>
      match w.wire[i]? with
      | some (.request e (.abort _)) => some e
      | some (.request e (.completed _)) => some e
      | _ => none
  | .advance i _ => ((w.handlers[i]?).bind Handler.report).map Prod.fst
  | _ => none

end EnterWorld

/-- Both copies of the election of `level`, where there is one, are for `id`. -/
def FreeOrOwn (s : ArbiterState) (level : ℕ) (id : Int32) : Prop :=
  (∀ e, s.elected.get? level = some e → e.evaluateEnterId = id) ∧
    ∀ e, s.hookingMemory.elections.get? level = some e → e.evaluateEnterId = id

/-- Elections of other ids are left as they are, in both copies. -/
def SparesOthers (s s' : ArbiterState) (id : Int32) : Prop :=
  (∀ level e, s.elected.get? level = some e → e.evaluateEnterId ≠ id →
    s'.elected.get? level = some e) ∧
  ∀ level e, s.hookingMemory.elections.get? level = some e → e.evaluateEnterId ≠ id →
    s'.hookingMemory.elections.get? level = some e

/-- What it takes for a handler to go on. -/
def Handler.Orderly {ι : Type} (w : EnterWorld ι) : Handler ι → Prop
  -- The memory is as it was read, and nobody else has a report outstanding at this level.
  | .granting e level _ mem => mem = w.arbiter.hookingMemory ∧
      ∀ e', (w.episodes e').evaluateEnterId ≠ (w.episodes e).evaluateEnterId →
        ¬ w.Outstanding e' level
  | .removing _ level read =>
      (ArbiterState.releasedMemory read level).isSome → read = w.arbiter.memory
  | .marking _ level read =>
      (ArbiterState.completedMemory read 0 level).isSome → read = w.arbiter.memory
  | _ => True

/-- The level at which `ev` makes an episode work has no election of another id. -/
def GainsFree {ι : Type} (w : EnterWorld ι) (e : ι) (ev : EpisodeEvent) : Prop :=
  ∀ level, (w.episodes e).gains ev = some level →
    FreeOrOwn w.arbiter level (w.episodes e).evaluateEnterId

/-- An episode starts to work at a level only if no other id is elected there; an election is made
only if no other id has a report outstanding at its level; a memory is written only if it is still
what was read; and what is brought from outside has the elections that the memory has. -/
def Orderly {ι : Type} (w : EnterWorld ι) : EnterAction ι → Prop
  | .receive i =>
      match w.wire[i]? with
      | some (.answer e answer) => GainsFree w e (.answered answer)
      | some (.done e) => GainsFree w e (.released true)
      | _ => True
  | .advance i _ => ∀ h, w.handlers[i]? = some h → h.Orderly w
  | .replica i => ∀ copy, w.arbiter.sent[i]? = some copy → w.arbiter.SameElections copy
  | .setMemory data => w.arbiter.SameElections data
  | _ => True

/-- A run, whatever its actions. -/
def EnterRun {ι : Type} [DecidableEq ι] : EnterWorld ι → EnterWorld ι → Prop :=
  Relation.ReflTransGen fun w w' => ∃ a, w.next a = some w'

/-- A run all of whose actions are orderly. -/
def OrderlyRun {ι : Type} [DecidableEq ι] : EnterWorld ι → EnterWorld ι → Prop :=
  Relation.ReflTransGen fun w w' => ∃ a, Orderly w a ∧ w.next a = some w'

/-! ## What the arbiter's steps leave of the elections -/

/-- Every election there is now has the id of one there was at its level. -/
def Inherits (s s' : ArbiterState) : Prop :=
  (∀ level e', s'.elected.get? level = some e' →
    (∃ e, s.elected.get? level = some e ∧ e.evaluateEnterId = e'.evaluateEnterId) ∨
      ∃ e, s.hookingMemory.elections.get? level = some e ∧
        e.evaluateEnterId = e'.evaluateEnterId) ∧
  ∀ level e', s'.hookingMemory.elections.get? level = some e' →
    ∃ e, s.hookingMemory.elections.get? level = some e ∧ e.evaluateEnterId = e'.evaluateEnterId

section Inherits

variable {s s' : ArbiterState} {level lvl now : ℕ} {id : Int32} {networkId : Int64} {r : Readings}

lemma FreeOrOwn.inherit (h : FreeOrOwn s level id) (hs : Inherits s s') : FreeOrOwn s' level id := by
  refine ⟨?_, ?_⟩
  · intro e' he'
    rcases hs.1 level e' he' with ⟨e, he, hid⟩ | ⟨e, he, hid⟩
    · exact hid ▸ h.1 e he
    · exact hid ▸ h.2 e he
  · intro e' he'
    obtain ⟨e, he, hid⟩ := hs.2 level e' he'
    exact hid ▸ h.2 e he

lemma Inherits.refl (s : ArbiterState) : Inherits s s :=
  ⟨fun _ e' he' => Or.inl ⟨e', he', rfl⟩, fun _ e' he' => ⟨e', he', rfl⟩⟩

lemma applyReplica_inherits {copy : Option HookingMemory} (h : s.SameElections copy) :
    Inherits s (s.applyReplica copy) := by
  refine ⟨fun _ e' he' => Or.inl ⟨e', he', rfl⟩, ?_⟩
  intro level e' he'
  exact ⟨e', (h level).symm.trans he', rfl⟩

/-- An update of one level's local election. -/
lemma inherits_of_elected (level : ℕ) (hmem : s'.hookingMemory = s.hookingMemory)
    (hother : ∀ l, l ≠ level → s'.elected.get? l = s.elected.get? l)
    (hlevel : ∀ e', s'.elected.get? level = some e' →
      (∃ e, s.elected.get? level = some e ∧ e.evaluateEnterId = e'.evaluateEnterId) ∨
        ∃ e, s.hookingMemory.elections.get? level = some e ∧
          e.evaluateEnterId = e'.evaluateEnterId) : Inherits s s' := by
  refine ⟨?_, ?_⟩
  · intro l e' he'
    by_cases hl : l = level
    · subst hl
      exact hlevel e' he'
    · exact Or.inl ⟨e', hother l hl ▸ he', rfl⟩
  · intro l e' he'
    exact ⟨e', hmem ▸ he', rfl⟩

lemma ask_inherits : Inherits s (s.ask r level networkId id).1 := by
  refine inherits_of_elected level ask_hookingMemory (fun l hl => ask_get?_of_ne hl) ?_
  intro e' he'
  have hclear : ∀ e, (s.clearFree r.asked level networkId).elected.get? level = some e →
      s.elected.get? level = some e := by
    intro e he
    rw [clearFree_get?] at he
    exact (Option.filter_eq_some_iff.mp he).1
  unfold ArbiterState.ask at he'
  simp only at he'
  split at he'
  · exact Or.inl ⟨e', hclear e' he', rfl⟩
  · split at he'
    · rename_i e hshared
      split_ifs at he' with hanswer
      · -- The replicated election of the same candidate is taken over.
        rw [elect_get?] at he'
        cases he'
        obtain ⟨-, hid⟩ := answerBeside_accepted hanswer
        rw [clearFree_hookingMemory] at hshared
        exact Or.inr ⟨e, (Option.filter_eq_some_iff.mp hshared).1, hid⟩
      · exact Or.inl ⟨e', hclear e' he', rfl⟩
    · exact Or.inl ⟨e', hclear e' he', rfl⟩

lemma releaseLocal_inherits : Inherits s (s.releaseLocal lvl) := by
  refine inherits_of_elected lvl rfl (fun l hl => KeyedMap.get?_erase_of_ne _ hl) ?_
  intro e' he'
  rw [ArbiterState.releaseLocal, KeyedMap.get?_erase_self] at he'
  cases he'

lemma completeLocal_get?_of_ne {l : ℕ} (h : l ≠ lvl) :
    (s.completeLocal now lvl).elected.get? l = s.elected.get? l := by
  have hslot : (s.complete now 0 lvl).elected.get? l = s.elected.get? l := complete_get?_of_ne h
  rwa [ArbiterState.complete, write_elected] at hslot

lemma completeLocal_hookingMemory : (s.completeLocal now lvl).hookingMemory = s.hookingMemory := by
  simp only [ArbiterState.hookingMemory, completeLocal_memory]

lemma completeLocal_inherits : Inherits s (s.completeLocal now lvl) := by
  refine inherits_of_elected lvl completeLocal_hookingMemory
    (fun l hl => completeLocal_get?_of_ne hl) ?_
  intro e' he'
  have hslot : (s.complete now 0 lvl).elected.get? lvl = some e' := by
    rwa [ArbiterState.complete, write_elected]
  rw [complete_get?, Option.map_eq_some_iff] at hslot
  obtain ⟨e, he, rfl⟩ := hslot
  exact Or.inl ⟨e, he, rfl⟩

/-- Writing a memory that changed at one level only. -/
lemma write_inherits {read : Option HookingMemory} (level : ℕ)
    (hother : ∀ mem, read = some mem → ∀ l, l ≠ level →
      mem.elections.get? l = s.hookingMemory.elections.get? l)
    (hlevel : ∀ mem, read = some mem → ∀ e', mem.elections.get? level = some e' →
      ∃ e, s.hookingMemory.elections.get? level = some e ∧
        e.evaluateEnterId = e'.evaluateEnterId) : Inherits s (s.write read) := by
  refine ⟨fun l e' he' => Or.inl ⟨e', by rwa [write_elected] at he', rfl⟩, ?_⟩
  intro l e' he'
  rw [write_hookingMemory] at he'
  cases read with
  | none => exact ⟨e', he', rfl⟩
  | some mem =>
      by_cases hl : l = level
      · subst hl
        exact hlevel mem rfl e' he'
      · exact ⟨e', (hother mem rfl l hl) ▸ he', rfl⟩

/-- What `release` writes: the memory without the election of the level. -/
lemma releasedMemory_some {mem : HookingMemory} {memory : Option HookingMemory}
    (h : ArbiterState.releasedMemory memory lvl = some mem) :
    (∀ l, l ≠ lvl → mem.elections.get? l =
      (memory.getD HookingMemory.default).elections.get? l) ∧ mem.elections.get? lvl = none := by
  obtain ⟨m, rfl, hm⟩ := Option.bind_eq_some_iff.mp h
  split_ifs at hm
  obtain rfl := Option.some.inj hm
  exact ⟨fun l hl => KeyedMap.get?_erase_of_ne _ hl, KeyedMap.get?_erase_self _ _⟩

/-- What `complete` writes: the memory with the election of the level marked. -/
lemma completedMemory_some {mem : HookingMemory} {memory : Option HookingMemory}
    (h : ArbiterState.completedMemory memory now lvl = some mem) :
    (∀ l, l ≠ lvl → mem.elections.get? l =
      (memory.getD HookingMemory.default).elections.get? l) ∧
    ∃ e e', (memory.getD HookingMemory.default).elections.get? lvl = some e ∧
      mem.elections.get? lvl = some e' ∧ e.evaluateEnterId = e'.evaluateEnterId := by
  obtain ⟨m, rfl, hm⟩ := Option.bind_eq_some_iff.mp h
  obtain ⟨e, he, hm⟩ := Option.bind_eq_some_iff.mp hm
  split_ifs at hm
  obtain rfl := Option.some.inj hm
  exact ⟨fun l hl => KeyedMap.get?_insert_of_ne _ _ hl, e, _, he, KeyedMap.get?_insert_self _ _ _,
    rfl⟩

lemma releasedMemory_inherits {read : Option HookingMemory}
    (hread : (ArbiterState.releasedMemory read lvl).isSome → read = s.memory) :
    Inherits s (s.write (ArbiterState.releasedMemory read lvl)) := by
  refine write_inherits lvl ?_ ?_
  · intro mem hmem l hl
    have hcur := hread (by rw [hmem]; rfl)
    rw [(releasedMemory_some hmem).1 l hl, hcur]
    rfl
  · intro mem hmem e' he'
    rw [(releasedMemory_some hmem).2] at he'
    cases he'

lemma completedMemory_inherits {read : Option HookingMemory}
    (hread : (ArbiterState.completedMemory read now lvl).isSome → read = s.memory) :
    Inherits s (s.write (ArbiterState.completedMemory read now lvl)) := by
  refine write_inherits lvl ?_ ?_
  · intro mem hmem l hl
    have hcur := hread (by rw [hmem]; rfl)
    rw [(completedMemory_some hmem).1 l hl, hcur]
    rfl
  · intro mem hmem e' he'
    have hcur := hread (by rw [hmem]; rfl)
    obtain ⟨-, e, e'', he, he'', hid⟩ := completedMemory_some hmem
    rw [he'] at he''
    cases he''
    rw [hcur] at he
    exact ⟨e, he, hid⟩

/-- A new election leaves the other levels alone, and its own level has its own id. -/
lemma grant_freeOrOwn (h : level ≠ lvl → FreeOrOwn s level id) {id' : Int32}
    (hid : level = lvl → id' = id) :
    FreeOrOwn (s.grant s.hookingMemory r lvl networkId id') level id := by
  by_cases hl : level = lvl
  · subst hl
    refine ⟨?_, ?_⟩
    · intro e he
      rw [ArbiterState.grant, elect_get?] at he
      cases he
      exact hid rfl
    · intro e he
      have hslot : (s.hookingMemory.elect level
          ⟨networkId, id', nowMillis r.read, none⟩).elections.get? level = some e := he
      rw [HookingMemory.elect, KeyedMap.get?_insert_self] at hslot
      cases hslot
      exact hid rfl
  · refine ⟨?_, ?_⟩
    · intro e he
      rw [ArbiterState.grant, elect_get?_of_ne hl] at he
      exact (h hl).1 e he
    · intro e he
      have hslot : (s.hookingMemory.elect lvl
          ⟨networkId, id', nowMillis r.read, none⟩).elections.get? level = some e := he
      rw [HookingMemory.elect, KeyedMap.get?_insert_of_ne _ _ hl] at hslot
      exact (h hl).2 e hslot

/-- A step that touches the elections of one level only spares the others, if that level is the
candidate's own. -/
lemma sparesOthers_of (h : FreeOrOwn s lvl id)
    (helected : ∀ l, l ≠ lvl → s'.elected.get? l = s.elected.get? l)
    (hmemory : ∀ l, l ≠ lvl → s'.hookingMemory.elections.get? l =
      s.hookingMemory.elections.get? l) : SparesOthers s s' id := by
  refine ⟨?_, ?_⟩
  · intro l e he hid
    by_cases hl : l = lvl
    · subst hl
      exact absurd (h.1 e he) hid
    · rw [helected l hl, he]
  · intro l e he hid
    by_cases hl : l = lvl
    · subst hl
      exact absurd (h.2 e he) hid
    · rw [hmemory l hl, he]

/-- Likewise for a memory that is written. -/
lemma write_sparesOthers {read : Option HookingMemory} (h : FreeOrOwn s lvl id)
    (hother : ∀ mem, read = some mem → ∀ l, l ≠ lvl →
      mem.elections.get? l = s.hookingMemory.elections.get? l) :
    SparesOthers s (s.write read) id := by
  refine sparesOthers_of h (fun l _ => by rw [write_elected]) ?_
  intro l hl
  rw [write_hookingMemory]
  cases read with
  | none => rfl
  | some mem => exact hother mem rfl l hl

end Inherits

/-! ## Reports and elections along a run -/

/-- Wherever a report is outstanding, only the election of its own episode can be. -/
def Settled {ι : Type} (w : EnterWorld ι) : Prop :=
  ∀ e level, w.Outstanding e level → FreeOrOwn w.arbiter level (w.episodes e).evaluateEnterId

section Run

variable {ι : Type} {w w' : EnterWorld ι} {e : ι} {level : ℕ}

lemma settled_of_fresh (h : w.Fresh) : Settled w := by
  obtain ⟨hep, hwire, hhandlers⟩ := h
  rintro e level (hmay | ⟨req, hreq, -⟩ | ⟨hd, hhd, -⟩)
  · obtain ⟨hstage, hguard⟩ := hep e
    rcases hmay with ⟨-, hmay⟩ | hmay
    · simp [hstage] at hmay
    · simp [hguard] at hmay
  · simp [hwire] at hreq
  · simp [hhandlers] at hhd

/-- Nothing new is outstanding, and no election comes from nowhere. -/
lemma Settled.of_inherits (h : Settled w) (hep : w'.episodes = w.episodes)
    (hout : ∀ e level, w'.Outstanding e level → w.Outstanding e level)
    (harb : Inherits w.arbiter w'.arbiter) : Settled w' := by
  intro e level he
  rw [hep]
  exact (h e level (hout e level he)).inherit harb

/-- A packet less on the wire. -/
lemma Outstanding.of_eraseIdx {i : ℕ}
    (h : EnterWorld.Outstanding { w with wire := w.wire.eraseIdx i } e level) :
    w.Outstanding e level := by
  rcases h with h | ⟨req, hreq, hr⟩ | h
  · exact Or.inl h
  · exact Or.inr (Or.inl ⟨req, List.mem_of_mem_eraseIdx hreq, hr⟩)
  · exact Or.inr (Or.inr h)

/-- A request taken off the wire is served: what was outstanding stays so. -/
lemma begin_settled {i : ℕ} {lvl : ℕ} {r : Readings} {req : EnterRequest} (h : Settled w)
    (hreq : w.wire[i]? = some (.request e req)) :
    Settled ({ w with wire := w.wire.eraseIdx i }.begin e lvl r req) := by
  have hin : Packet.request e req ∈ w.wire := List.mem_of_getElem? hreq
  -- A handler that takes over a report has it from the wire.
  have hhandler : ∀ {arb : ArbiterState} {hd : Handler ι} {e' : ι} {level : ℕ},
      (∀ e' level, hd.report = some (e', level) → e' = e ∧ req.ReportsAt level) →
      EnterWorld.Outstanding { w with
        arbiter := arb, wire := w.wire.eraseIdx i, handlers := w.handlers ++ [hd] } e' level →
      w.Outstanding e' level := by
    intro arb hd e' level hhd hout
    rcases hout with hmay | ⟨r, hr, hlevel⟩ | ⟨h', hh', hreport⟩
    · exact Or.inl hmay
    · exact Or.inr (Or.inl ⟨r, List.mem_of_mem_eraseIdx hr, hlevel⟩)
    · rcases List.mem_append.mp hh' with hh' | hh'
      · exact Or.inr (Or.inr ⟨h', hh', hreport⟩)
      · rw [List.mem_singleton.mp hh'] at hreport
        obtain ⟨rfl, hlevel⟩ := hhd e' level hreport
        exact Or.inr (Or.inl ⟨req, hin, hlevel⟩)
  cases req with
  | evaluate =>
      have harb : Inherits w.arbiter (w.arbiter.ask r lvl (w.episodes e).networkId
        (w.episodes e).evaluateEnterId).1 := ask_inherits
      simp only [EnterWorld.begin]
      split
      · rename_i s answer heq
        rw [heq] at harb
        refine h.of_inherits rfl ?_ harb
        rintro e' level (hmay | ⟨r', hr', hlevel⟩ | hh)
        · exact Or.inl hmay
        · rcases List.mem_append.mp hr' with hr' | hr'
          · exact Or.inr (Or.inl ⟨r', List.mem_of_mem_eraseIdx hr', hlevel⟩)
          · simp at hr'
        · exact Or.inr (Or.inr hh)
      · rename_i s heq
        rw [heq] at harb
        refine h.of_inherits rfl ?_ harb
        intro e' level hout
        refine hhandler ?_ hout
        intro e'' level' hreport
        cases hreport
  | abort lvl' =>
      refine h.of_inherits rfl ?_ releaseLocal_inherits
      intro e' level hout
      refine hhandler ?_ hout
      rintro e'' level' hreport
      cases hreport
      exact ⟨rfl, Or.inl rfl⟩
  | completed lvl' =>
      refine h.of_inherits rfl ?_ completeLocal_inherits
      intro e' level hout
      refine hhandler ?_ hout
      rintro e'' level' hreport
      cases hreport
      exact ⟨rfl, Or.inr rfl⟩

/-- A handler that is through leaves the wire with a reply more. -/
lemma Outstanding.of_replied {i : ℕ} {arb : ArbiterState} {p : Packet ι} {e' : ι}
    (hp : ∀ e req, p ≠ .request e req)
    (h : EnterWorld.Outstanding { w with
      arbiter := arb, handlers := w.handlers.eraseIdx i, wire := w.wire ++ [p] } e' level) :
    w.Outstanding e' level := by
  rcases h with hmay | ⟨req, hreq, hlevel⟩ | ⟨hd, hhd, hreport⟩
  · exact Or.inl hmay
  · rcases List.mem_append.mp hreq with hreq | hreq
    · exact Or.inr (Or.inl ⟨req, hreq, hlevel⟩)
    · exact absurd (List.mem_singleton.mp hreq).symm (hp e' req)
  · exact Or.inr (Or.inr ⟨hd, List.mem_of_mem_eraseIdx hhd, hreport⟩)

/-- A handler that has read the memory is about the same report. -/
lemma Outstanding.of_set {i : ℕ} {hd hd' : Handler ι} {e' : ι} (hget : w.handlers[i]? = some hd)
    (hreport : hd'.report = hd.report)
    (h : EnterWorld.Outstanding { w with handlers := w.handlers.set i hd' } e' level) :
    w.Outstanding e' level := by
  rcases h with hmay | hreq | ⟨h', hh', hlevel⟩
  · exact Or.inl hmay
  · exact Or.inr (Or.inl hreq)
  · rcases List.mem_or_eq_of_mem_set hh' with hh' | rfl
    · exact Or.inr (Or.inr ⟨h', hh', hlevel⟩)
    · exact Or.inr (Or.inr ⟨hd, List.mem_of_getElem? hget, hreport ▸ hlevel⟩)

lemma completedMemory_isSome {memory : Option HookingMemory} {t t' lvl : ℕ}
    (h : (ArbiterState.completedMemory memory t lvl).isSome) :
    (ArbiterState.completedMemory memory t' lvl).isSome := by
  unfold ArbiterState.completedMemory at h ⊢
  cases memory with
  | none => simp at h
  | some mem =>
      cases hslot : mem.elections.get? lvl with
      | none => simp [hslot] at h
      | some rec =>
          by_cases hdone : rec.completedAtMillis = none
          · simp [hslot, hdone]
          · simp [hslot, hdone] at h

lemma proceed_settled {i wall : ℕ} {hd : Handler ι} (h : Settled w)
    (hget : w.handlers[i]? = some hd) (hord : hd.Orderly w) : Settled (w.proceed i wall hd) := by
  cases hd with
  | granting e lvl r mem =>
      obtain ⟨rfl, hfree⟩ := hord
      intro e' level hout
      have hold : w.Outstanding e' level := Outstanding.of_replied (by simp) hout
      refine grant_freeOrOwn (fun _ => h e' level hold) ?_
      rintro rfl
      by_contra hid
      exact hfree e' (fun heq => hid heq.symm) hold
  | releasing e lvl =>
      have hreport : (Handler.removing e lvl w.arbiter.memory).report =
        (Handler.releasing e lvl).report := rfl
      refine h.of_inherits rfl ?_ (Inherits.refl _)
      intro e' level hout
      exact Outstanding.of_set hget hreport hout
  | finishing e lvl =>
      have hreport : (Handler.marking e lvl w.arbiter.memory).report =
        (Handler.finishing e lvl).report := rfl
      refine h.of_inherits rfl ?_ (Inherits.refl _)
      intro e' level hout
      exact Outstanding.of_set hget hreport hout
  | removing e lvl read =>
      refine h.of_inherits rfl ?_ (releasedMemory_inherits hord)
      intro e' level hout
      exact Outstanding.of_replied (by simp) hout
  | marking e lvl read =>
      refine h.of_inherits rfl ?_
        (completedMemory_inherits fun hsome => hord (completedMemory_isSome hsome))
      intro e' level hout
      exact Outstanding.of_replied (by simp) hout

/-- Beginning to serve a report. -/
lemma begin_spares {i lvl level : ℕ} {r : Readings} {req : EnterRequest} (h : Settled w)
    (hget : w.wire[i]? = some (.request e req)) (hreq : req.ReportsAt level) :
    SparesOthers w.arbiter ({ w with wire := w.wire.eraseIdx i }.begin e lvl r req).arbiter
      (w.episodes e).evaluateEnterId := by
  have hown := h e level (Or.inr (Or.inl ⟨req, List.mem_of_getElem? hget, hreq⟩))
  rcases hreq with rfl | rfl
  · exact sparesOthers_of hown (fun l hl => KeyedMap.get?_erase_of_ne _ hl) (fun _ _ => rfl)
  · refine sparesOthers_of hown (fun l hl => completeLocal_get?_of_ne hl) ?_
    intro l _
    exact congrArg (fun m : HookingMemory => m.elections.get? l) completeLocal_hookingMemory

/-- Going on with one. -/
lemma proceed_spares {i wall : ℕ} {hd : Handler ι} (h : Settled w)
    (hget : w.handlers[i]? = some hd) (hord : hd.Orderly w) (hreport : hd.report = some (e, level)) :
    SparesOthers w.arbiter (w.proceed i wall hd).arbiter (w.episodes e).evaluateEnterId := by
  have hown := h e level (Or.inr (Or.inr ⟨hd, List.mem_of_getElem? hget, hreport⟩))
  cases hd with
  | granting e' lvl r mem => cases hreport
  | releasing e' lvl => exact ⟨fun _ _ he _ => he, fun _ _ he _ => he⟩
  | finishing e' lvl => exact ⟨fun _ _ he _ => he, fun _ _ he _ => he⟩
  | removing e' lvl read =>
      cases hreport
      refine write_sparesOthers hown ?_
      intro mem hmem l hl
      have hcur := hord (by rw [hmem]; rfl)
      rw [(releasedMemory_some hmem).1 l hl, hcur]
      rfl
  | marking e' lvl read =>
      cases hreport
      refine write_sparesOthers hown ?_
      intro mem hmem l hl
      have hcur := hord (completedMemory_isSome (by rw [hmem]; rfl))
      rw [(completedMemory_some hmem).1 l hl, hcur]
      rfl

variable [DecidableEq ι]

lemma wake_settled {ev : EpisodeEvent} (h : Settled w) (hgains : GainsFree w e ev)
    (hwake : w.wake e ev = some w') : Settled w' := by
  obtain ⟨⟨ep', req⟩, hresume, rfl⟩ := Option.map_eq_some_iff.mp hwake
  intro e' level hout
  have hid : (Function.update w.episodes e ep' e').evaluateEnterId =
      (w.episodes e').evaluateEnterId := by
    by_cases he : e' = e
    · subst he
      rw [Function.update_self]
      exact resume_id hresume
    · rw [Function.update_of_ne he]
  show FreeOrOwn w.arbiter level (Function.update w.episodes e ep' e').evaluateEnterId
  rw [hid]
  -- What the turn adds is the episode's own, and was there before or is at the level it gains.
  have hnew : e' = e → (ep'.MayReport level ∨ ∃ r, req = some r ∧ r.ReportsAt level) →
      FreeOrOwn w.arbiter level (w.episodes e').evaluateEnterId := by
    rintro rfl hlevel
    rcases resume_reports hresume hlevel with hold | hgain
    · exact h e' level (Or.inl hold)
    · exact hgains level hgain
  rcases hout with hmay | ⟨r, hr, hlevel⟩ | hhandler
  · by_cases he : e' = e
    · subst he
      simp only [Function.update_self] at hmay
      exact hnew rfl (Or.inl hmay)
    · simp only [Function.update_of_ne he] at hmay
      exact h e' level (Or.inl hmay)
  · rcases List.mem_append.mp hr with hr | hr
    · exact h e' level (Or.inr (Or.inl ⟨r, hr, hlevel⟩))
    · obtain ⟨hreq, rfl⟩ : req = some r ∧ e = e' := by simpa using hr
      exact hnew rfl (Or.inr ⟨r, hreq, hlevel⟩)
  · exact h e' level (Or.inr (Or.inr hhandler))

/-- An orderly action keeps reports and elections together. -/
lemma next_settled {a : EnterAction ι} (h : Settled w) (hord : Orderly w a)
    (hnext : w.next a = some w') : Settled w' := by
  have hless : ∀ i, Settled { w with wire := w.wire.eraseIdx i } := fun i =>
    h.of_inherits rfl (fun _ _ hout => Outstanding.of_eraseIdx hout) (Inherits.refl _)
  cases a with
  | resume e ev =>
      simp only [EnterWorld.next] at hnext
      split_ifs at hnext with hreply
      refine wake_settled h ?_ hnext
      -- Only a reply gains a level.
      intro level hgain
      unfold Episode.gains at hgain
      split at hgain
      · simp [EpisodeEvent.isReply] at hreply
      · simp [EpisodeEvent.isReply] at hreply
      · cases hgain
  | receive i =>
      simp only [EnterWorld.next] at hnext
      simp only [Orderly] at hord
      split at hnext
      · rename_i e answer hget
        rw [hget] at hord
        exact wake_settled (hless i) hord hnext
      · rename_i e hget
        rw [hget] at hord
        exact wake_settled (hless i) hord hnext
      · cases hnext
  | serve i level r =>
      simp only [EnterWorld.next] at hnext
      split at hnext
      · rename_i e req hget
        split_ifs at hnext
        obtain rfl := Option.some.inj hnext
        exact begin_settled h hget
      · cases hnext
  | advance i wall =>
      obtain ⟨hd, hget, rfl⟩ := Option.map_eq_some_iff.mp hnext
      exact proceed_settled h hget (hord hd hget)
  | replicate =>
      obtain rfl := Option.some.inj hnext
      exact h.of_inherits rfl (fun _ _ hout => hout) (Inherits.refl _)
  | replica i =>
      obtain ⟨copy, hget, rfl⟩ := Option.map_eq_some_iff.mp hnext
      exact h.of_inherits rfl (fun _ _ hout => hout) (applyReplica_inherits (hord copy hget))
  | setMemory data =>
      obtain rfl := Option.some.inj hnext
      exact h.of_inherits rfl (fun _ _ hout => hout) (applyReplica_inherits hord)

lemma settled_run {w₀ : EnterWorld ι} (h₀ : w₀.Fresh) (hrun : OrderlyRun w₀ w) : Settled w := by
  induction hrun with
  | refl => exact settled_of_fresh h₀
  | tail _ hstep ih =>
      obtain ⟨a, hord, hnext⟩ := hstep
      exact next_settled ih hord hnext

/-- Executing a report spares the elections of other ids. -/
lemma report_spares {a : EnterAction ι} (h : Settled w) (hord : Orderly w a)
    (hnext : w.next a = some w') (he : w.reporter a = some e) :
    SparesOthers w.arbiter w'.arbiter (w.episodes e).evaluateEnterId := by
  cases a with
  | resume e ev => cases he
  | receive i => cases he
  | replicate => cases he
  | replica i => cases he
  | setMemory data => cases he
  | serve i level r =>
      simp only [EnterWorld.next] at hnext
      simp only [EnterWorld.reporter] at he
      split at he
      · rename_i e' lvl hget
        cases he
        rw [hget] at hnext
        simp only at hnext
        split_ifs at hnext
        obtain rfl := Option.some.inj hnext
        exact begin_spares h hget (Or.inl rfl)
      · rename_i e' lvl hget
        cases he
        rw [hget] at hnext
        simp only at hnext
        split_ifs at hnext
        obtain rfl := Option.some.inj hnext
        exact begin_spares h hget (Or.inr rfl)
      · cases he
  | advance i wall =>
      obtain ⟨hd, hget, rfl⟩ := Option.map_eq_some_iff.mp hnext
      obtain ⟨⟨e', level⟩, hreport, rfl⟩ := Option.map_eq_some_iff.mp he
      rw [hget] at hreport
      exact proceed_spares h hget (hord hd hget) hreport

/-- **A report ends its own election or none.**  In a run of orderly actions, from any state of the
arbiter, executing an abort or a completion of one episode changes no election of another id; and
no copy of the memory, those that a report sends among them, changes an election when it comes
back. -/
theorem release_own (w₀ w w' : EnterWorld ι) (a : EnterAction ι) (h₀ : w₀.Fresh)
    (hrun : OrderlyRun w₀ w) (hord : Orderly w a) (hnext : w.next a = some w') :
    (∀ e, w.reporter a = some e →
      SparesOthers w.arbiter w'.arbiter (w.episodes e).evaluateEnterId) ∧
    ∀ i, a = .replica i → ∀ id, SparesOthers w.arbiter w'.arbiter id := by
  refine ⟨fun e he => report_spares (settled_run h₀ hrun) hord hnext he, ?_⟩
  rintro i rfl id
  obtain ⟨copy, hget, rfl⟩ := Option.map_eq_some_iff.mp hnext
  exact ⟨fun _ _ he _ => he, fun level _ he _ => (hord copy hget level).trans he⟩

lemma enterRun_of_run : ∀ {as : List (EnterAction ι)} {w : EnterWorld ι}, w.run as = some w' →
    EnterRun w w'
  | [], w, h => by
      obtain rfl := Option.some.inj h
      exact Relation.ReflTransGen.refl
  | a :: as, w, h => by
      obtain ⟨w₁, hnext, hrest⟩ := Option.bind_eq_some_iff.mp h
      exact Relation.ReflTransGen.head ⟨a, hnext⟩ (enterRun_of_run hrest)

end Run

/-- Two episodes for two networks. -/
def duel : EnterWorld Bool :=
  ⟨ArbiterState.new none, fun e => if e then ⟨8, 2, .idle, 0, 0, none⟩ else
    ⟨7, 1, .idle, 0, 0, none⟩, [], []⟩

lemma eq_some_getD {α : Type} {o : Option α} (d : α) (h : o.isSome) : o = some (o.getD d) := by
  obtain ⟨x, rfl⟩ := Option.isSome_iff_exists.mp h
  rfl

/-- Actions that are orderly wherever they can be taken. -/
def EnterAction.isPlain {ι : Type} : EnterAction ι → Bool
  | .resume .. => true
  | .serve .. => true
  | .replicate => true
  | _ => false

lemma orderlyRun_of_plain {ι : Type} [DecidableEq ι] {as : List (EnterAction ι)}
    {w₀ w w' : EnterWorld ι} (h₀ : OrderlyRun w₀ w) (hplain : as.all EnterAction.isPlain = true)
    (h : w.run as = some w') : OrderlyRun w₀ w' := by
  induction as generalizing w with
  | nil =>
      obtain rfl := Option.some.inj h
      exact h₀
  | cons a as ih =>
      obtain ⟨w₁, hnext, hrest⟩ := Option.bind_eq_some_iff.mp h
      obtain ⟨ha, has⟩ : a.isPlain = true ∧ as.all EnterAction.isPlain = true := by
        simpa using hplain
      refine ih (h₀.tail ⟨a, ?_, hnext⟩) has hrest
      cases a with
      | resume e ev => trivial
      | serve i level r => trivial
      | replicate => trivial
      | receive i => cases ha
      | advance i wall => cases ha
      | replica i => cases ha
      | setMemory data => cases ha

/-- Nothing is outstanding of an episode that can send no report and has none on its way. -/
lemma not_outstanding {ι : Type} {w : EnterWorld ι} {e : ι} {level : ℕ}
    (hmay : ¬ (w.episodes e).MayReport level) (hwire : w.wire = [])
    (hhandlers : w.handlers.all (fun hd => (Handler.report hd).isNone) = true) :
    ¬ w.Outstanding e level := by
  rintro (h | ⟨req, hreq, -⟩ | ⟨hd, hhd, hreport⟩)
  · exact hmay h
  · rw [hwire] at hreq
    cases hreq
  · have hnone := List.all_eq_true.mp hhandlers hd hhd
    rw [hreport] at hnone
    cases hnone

/-- The first is about to be elected at level 1. -/
def firstAsks : EnterWorld Bool :=
  (duel.run [.resume false .started, .serve 0 1 (.atMs 1)]).getD duel

/-- It has been, and its search finds no way in; the abort has been noted locally. -/
def firstElects : EnterWorld Bool := (firstAsks.next (.advance 0 0)).getD duel
def firstBegins : EnterWorld Bool := (firstElects.next (.receive 0)).getD duel
def firstSearches : EnterWorld Bool := (firstBegins.next (.replica 0)).getD duel
def firstAborts : EnterWorld Bool :=
  (firstSearches.run [.resume false (.begun true), .resume false .noMigrationPath,
    .serve 0 1 (.atMs 2)]).getD duel

/-- The level is given back, the first goes on at level 0, and the second asks. -/
def firstReads : EnterWorld Bool := (firstAborts.next (.advance 0 0)).getD duel
def firstReleased : EnterWorld Bool := (firstReads.next (.advance 0 0)).getD duel
def firstLowers : EnterWorld Bool := (firstReleased.next (.receive 0)).getD duel
def secondAsks : EnterWorld Bool :=
  (firstLowers.run [.resume true .started, .serve 0 1 (.atMs 3)]).getD duel

/-- The second is elected at level 1; then the first finds its entry at level 0. -/
def secondElects : EnterWorld Bool := (secondAsks.next (.advance 0 0)).getD duel
def secondBegins : EnterWorld Bool := (secondElects.next (.receive 0)).getD duel
def secondCopied : EnterWorld Bool := (secondBegins.next (.replica 0)).getD duel
def firstCompletes : EnterWorld Bool :=
  (secondCopied.run [.resume false (.begun true), .resume false (.entryFound true)]).getD duel

lemma firstAborts_run : OrderlyRun duel firstAborts := by
  have hasks : OrderlyRun duel firstAsks :=
    orderlyRun_of_plain Relation.ReflTransGen.refl (by decide) (eq_some_getD _ (by decide +kernel))
  have helects : OrderlyRun duel firstElects := by
    refine hasks.tail ⟨.advance 0 0, ?_, eq_some_getD _ (by decide +kernel)⟩
    rintro h ⟨⟩
    refine ⟨rfl, fun e' hid => ?_⟩
    cases e' with
    | false => exact absurd rfl hid
    | true =>
        exact not_outstanding (by unfold Episode.MayReport; decide +kernel) rfl (by decide +kernel)
  have hbegins : OrderlyRun duel firstBegins := by
    refine helects.tail ⟨.receive 0, ?_, eq_some_getD _ (by decide +kernel)⟩
    rintro level ⟨⟩
    exact ⟨by rintro e ⟨⟩; rfl, by rintro e ⟨⟩; rfl⟩
  have hsearches : OrderlyRun duel firstSearches := by
    refine hbegins.tail ⟨.replica 0, ?_, eq_some_getD _ (by decide +kernel)⟩
    rintro copy ⟨⟩ level
    rfl
  exact orderlyRun_of_plain hsearches (by decide) (eq_some_getD _ (by decide +kernel))

lemma firstLowers_run : OrderlyRun duel firstLowers := by
  have hreads : OrderlyRun duel firstReads := by
    refine firstAborts_run.tail ⟨.advance 0 0, ?_, eq_some_getD _ (by decide +kernel)⟩
    rintro h ⟨⟩
    trivial
  have hreleased : OrderlyRun duel firstReleased := by
    refine hreads.tail ⟨.advance 0 0, ?_, eq_some_getD _ (by decide +kernel)⟩
    rintro h ⟨⟩ -
    rfl
  refine hreleased.tail ⟨.receive 0, ?_, eq_some_getD _ (by decide +kernel)⟩
  rintro level ⟨⟩
  exact ⟨by rintro e ⟨⟩, by rintro e ⟨⟩⟩

lemma firstCompletes_run : OrderlyRun duel firstCompletes := by
  have hasks : OrderlyRun duel secondAsks :=
    orderlyRun_of_plain firstLowers_run (by decide) (eq_some_getD _ (by decide +kernel))
  have helects : OrderlyRun duel secondElects := by
    refine hasks.tail ⟨.advance 0 0, ?_, eq_some_getD _ (by decide +kernel)⟩
    rintro h ⟨⟩
    refine ⟨rfl, fun e' hid => ?_⟩
    cases e' with
    | false =>
        exact not_outstanding (by unfold Episode.MayReport; decide +kernel) rfl (by decide +kernel)
    | true => exact absurd rfl hid
  have hbegins : OrderlyRun duel secondBegins := by
    refine helects.tail ⟨.receive 0, ?_, eq_some_getD _ (by decide +kernel)⟩
    rintro level ⟨⟩
    exact ⟨by rintro e ⟨⟩; rfl, by rintro e ⟨⟩; rfl⟩
  have hcopied : OrderlyRun duel secondCopied := by
    refine hbegins.tail ⟨.replica 0, ?_, eq_some_getD _ (by decide +kernel)⟩
    rintro copy ⟨⟩ level
    rfl
  exact orderlyRun_of_plain hcopied (by decide) (eq_some_getD _ (by decide +kernel))

/-- What the arbiter makes of the completion of the first. -/
def firstCompleted : EnterWorld Bool :=
  (firstCompletes.next (.serve 0 0 (.atMs 4))).getD duel

/-- The first was elected at level 1, gave it back and found its entry below; its completion leaves
the second, who has been elected at level 1 since, where it is. -/
theorem release_own_duel : firstCompletes.reporter (.serve 0 0 (.atMs 4)) = some false ∧
    firstCompleted.arbiter.elected.get? 1 = some ⟨8, 2, 3000000, none⟩ ∧
    firstCompleted.arbiter.hookingMemory.elections.get? 1 = some ⟨8, 2, 3, none⟩ := by
  have hreporter : firstCompletes.reporter (.serve 0 0 (.atMs 4)) = some false := by
    decide +kernel
  have hspares := (release_own duel firstCompletes firstCompleted (.serve 0 0 (.atMs 4))
    ⟨fun e => by cases e <;> exact ⟨rfl, rfl⟩, rfl, rfl⟩ firstCompletes_run trivial
    (eq_some_getD _ (by decide +kernel))).1 false hreporter
  exact ⟨hreporter, hspares.1 1 _ (by decide +kernel) (by decide +kernel),
    hspares.2 1 _ (by decide +kernel) (by decide +kernel)⟩

/-- The first is elected, releases the level because its search failed, and tries again; in between
the second is elected; then the first finds its entry and sends its completion. -/
def duelActions : List (EnterAction Bool) :=
  [.resume false .started, .serve 0 1 (.atMs 1), .advance 0 0, .receive 0,
    .resume false (.begun true), .resume false .executeFailed, .serve 0 1 (.atMs 2), .advance 0 0,
    .advance 0 0, .receive 0,
    .resume true .started, .serve 0 1 (.atMs 3), .advance 0 0, .receive 0,
    .resume false (.begun true), .resume false (.entryFound true)]

/-- Where they get, and what the arbiter makes of the completion. -/
def duelEnd : EnterWorld Bool := (duel.run duelActions).getD duel

def duelCompleted : EnterWorld Bool := (duelEnd.next (.serve 0 1 (.atMs 4))).getD duelEnd

/-- With nothing lost, delayed or cancelled, the completion marks the election of the second. -/
theorem not_release_own : ¬ ∀ (w₀ w w' : EnterWorld Bool) (a : EnterAction Bool) (e : Bool),
    w₀.Fresh → EnterRun w₀ w → w.next a = some w' → w.reporter a = some e →
    SparesOthers w.arbiter w'.arbiter (w.episodes e).evaluateEnterId := by
  intro h
  have hrun : duel.run duelActions = some duelEnd := eq_some_getD _ (by decide +kernel)
  have hnext : duelEnd.next (.serve 0 1 (.atMs 4)) = some duelCompleted :=
    eq_some_getD _ (by decide +kernel)
  have hspares := h duel duelEnd duelCompleted (.serve 0 1 (.atMs 4)) false
    ⟨fun e => by cases e <;> exact ⟨rfl, rfl⟩, rfl, rfl⟩ (enterRun_of_run hrun) hnext
    (by decide +kernel)
  have hkept : duelCompleted.arbiter.elected.get? 1 = some ⟨8, 2, 3000000, none⟩ :=
    hspares.1 1 ⟨8, 2, 3000000, none⟩ (by decide +kernel) (by decide +kernel)
  have hmarked : duelCompleted.arbiter.elected.get? 1 = some ⟨8, 2, 3000000, some 4000000⟩ := by
    decide +kernel
  rw [hmarked] at hkept
  cases hkept

end Netsukuku.Hooking
