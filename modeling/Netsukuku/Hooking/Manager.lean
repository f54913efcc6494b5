import Mathlib
import Netsukuku.Core.TryLock
import Netsukuku.Hooking.ArcHandler

/-!
# The manager and its arc handlers

One actor an identity, with an unbounded queue of commands and one task an arc.  Requests to add and
to remove arcs come through the same queue as what the handlers report.  A task ends some time
before the actor joins it, and the actor knows a task's token only under the arc's id.

* `HookingWorld.next` — one action: the actor takes a command or joins a task, a handler takes a
  turn, the daemon asks for something, or everything is shut down.
* `HookingWorld.lock` — the commit slot as a lock that is asked for by message; `slot_of_reach`.
* `commit_exclusive` — at most one handler is in its commit phase, and the slot is never lost.
* `TokenInv`, `handler_unique` — one handler an arc, as long as no arc is added again before the
  handlers it had are joined.
-/

namespace Netsukuku.Hooking

/-! ## The actor -/

/-- `ChosenAddress`. -/
structure ChosenAddress where
  entryData : EntryData
  naddr : Option Naddr
  deriving DecidableEq

/-- `HookingSnapshot`. -/
structure HookingSnapshot where
  arcs : KeyedMap ArcId ArcPhase
  hooked : Bool
  chosen : Option ChosenAddress

/-- `HookingError`, as far as the actor returns it. -/
inductive HookingError where
  | arcAlreadyRegistered
  | unknownArc
  deriving DecidableEq, Repr

/-- `HookingOrigin`. -/
inductive HookingOrigin where
  | createNet
  | joining
  deriving DecidableEq, Repr

/-- `Actor`; a cancellation token is the number of the task it was made for. -/
structure Actor where
  topology : Topology
  snapshot : HookingSnapshot
  arcCancels : KeyedMap ArcId ℕ
  committing : Bool

/-- `build_naddr`. -/
def buildNaddr (topology : Topology) (entryData : EntryData) : Option Naddr :=
  if entryData.pos.length ≠ topology.levels then none
  else
    match Naddr.new topology entryData.pos with
    | .ok naddr => some naddr
    | _ => none

namespace Actor

/-- The actor as `spawn` makes it. -/
def init (origin : HookingOrigin) (topology : Topology) (networkId : Int64) : Actor where
  topology := topology
  snapshot :=
    match origin with
    | .createNet =>
        let entryData : EntryData :=
          ⟨networkId, List.replicate topology.levels 0, List.replicate topology.levels 0⟩
        ⟨KeyedMap.empty, true, some ⟨entryData, buildNaddr topology entryData⟩⟩
    | .joining => ⟨KeyedMap.empty, false, none⟩
  arcCancels := KeyedMap.empty
  committing := false

/-- Writes the phase of an arc into the snapshot. -/
def setPhase (a : Actor) (arc : ArcId) (p : ArcPhase) : Actor :=
  { a with snapshot := { a.snapshot with arcs := a.snapshot.arcs.insert arc p } }

/-- `handle_add_arc`, with the task that is spawned under the number `next`. -/
def handleAddArc (a : Actor) (next : ℕ) (arc : ArcId) : Except HookingError Actor :=
  if a.arcCancels.contains arc then .error .arcAlreadyRegistered
  else .ok { a.setPhase arc .discovering with arcCancels := a.arcCancels.insert arc next }

/-- `handle_remove_arc`, with the token that is cancelled. -/
def handleRemoveArc (a : Actor) (arc : ArcId) : Except HookingError (Actor × Option ℕ) :=
  match a.arcCancels.get? arc with
  | none =>
      if a.snapshot.arcs.contains arc then
        .ok ({ a with snapshot := { a.snapshot with arcs := a.snapshot.arcs.erase arc } }, none)
      else .error .unknownArc
  | some token => .ok ({ a with
      arcCancels := a.arcCancels.erase arc,
      snapshot := { a.snapshot with arcs := a.snapshot.arcs.erase arc } }, some token)

/-- What the actor does with `MarkEntered`. -/
def markEntered (a : Actor) (arc : ArcId) (askLvl : ℕ) (entryData : EntryData) : Actor :=
  let a := a.setPhase arc (.entered askLvl)
  if a.snapshot.hooked then a
  else { a with snapshot := { a.snapshot with
    hooked := true, chosen := some ⟨entryData, buildNaddr a.topology entryData⟩ } }

end Actor

/-! ## The actor and its tasks -/

/-- A task that is not joined yet. -/
structure Task where
  arc : ArcId
  cancelled : Bool
  stage : HandlerStage
  -- The answer to its last `TryBeginCommit`, until it is read.
  answer : Option Bool

/-- An identity's actor, its queue and its tasks. -/
structure HookingWorld where
  actor : Actor
  queue : List Command
  tasks : ℕ → Option Task
  spawned : ℕ
  -- The token of the actor itself has fired.
  stopping : Bool
  stopped : Bool

/-- What can happen. -/
inductive HookingAction where
  | addArc (arc : ArcId)
  | removeArc (arc : ArcId)
  | handle
  | join (task : ℕ)
  | turn (task : ℕ) (s : Sight) (wake : Wake)
  | cancel
  | shutdown

namespace HookingWorld

/-- The world as `spawn` makes it. -/
def init (origin : HookingOrigin) (topology : Topology) (networkId : Int64) : HookingWorld where
  actor := Actor.init origin topology networkId
  queue := []
  tasks := fun _ => none
  spawned := 0
  stopping := false
  stopped := false

/-- Changes one task. -/
def modify (w : HookingWorld) (t : ℕ) (f : Task → Task) : HookingWorld :=
  { w with tasks := Function.update w.tasks t ((w.tasks t).map f) }

/-- Spawns the handler of an arc. -/
def spawn (w : HookingWorld) (arc : ArcId) : HookingWorld :=
  { w with
    tasks := Function.update w.tasks w.spawned (some ⟨arc, false, .starting, none⟩),
    spawned := w.spawned + 1 }

/-- `Actor::handle`. -/
def handleCommand (w : HookingWorld) : Command → HookingWorld
  | .addArc arc =>
      match w.actor.handleAddArc w.spawned arc with
      | .ok actor => { w.spawn arc with actor := actor }
      | .error _ => w
  | .removeArc arc =>
      match w.actor.handleRemoveArc arc with
      | .ok (actor, some token) =>
          { w.modify token fun t => { t with cancelled := true } with actor := actor }
      | .ok (actor, none) => { w with actor := actor }
      | .error _ => w
  | .setArcPhase arc p => { w with actor := w.actor.setPhase arc p }
  | .markEntered arc askLvl entryData =>
      { w with actor := w.actor.markEntered arc askLvl entryData }
  | .tryBeginCommit task =>
      { w.modify task fun t => { t with answer := some !w.actor.committing } with
        actor := { w.actor with committing := true } }
  | .endCommit => { w with actor := { w.actor with committing := false } }

/-- The turn of a handler: an answer about the slot is the one it was given, and an abort comes only
with the shutdown. -/
def turn (w : HookingWorld) (n : ℕ) (t : Task) (s : Sight) (wake : Wake) : Option HookingWorld :=
  match wake with
  | .aborted => none
  | .granted ok =>
      if t.answer = some ok then
        (t.stage.resume t.arc n (t.cancelled || w.stopping) s wake).map fun (stage, out) =>
          { w.modify n fun t => { t with stage := stage, answer := none } with
            queue := w.queue ++ commands out }
      else none
  | _ =>
      (t.stage.resume t.arc n (t.cancelled || w.stopping) s wake).map fun (stage, out) =>
        { w.modify n fun t => { t with stage := stage } with queue := w.queue ++ commands out }

/-- One action of an actor that is not stopped. -/
def perform (w : HookingWorld) : HookingAction → Option HookingWorld
  | .addArc arc => some { w with queue := w.queue ++ [.addArc arc] }
  | .removeArc arc => some { w with queue := w.queue ++ [.removeArc arc] }
  | .handle =>
      match w.queue with
      | [] => none
      | cmd :: rest =>
          if w.stopping then none else some ({ w with queue := rest }.handleCommand cmd)
  | .join n =>
      match w.tasks n with
      | none => none
      | some t =>
          if w.stopping = false ∧ t.stage = .over then
            some { w with
              tasks := Function.update w.tasks n none,
              actor := { w.actor with arcCancels := w.actor.arcCancels.erase t.arc } }
          else none
  | .turn n s wake => (w.tasks n).bind fun t => w.turn n t s wake
  | .cancel => some { w with stopping := true }
  | .shutdown =>
      if w.stopping then
        some { w with stopped := true, queue := [], tasks := fun _ => none }
      else none

/-- One action; `none` if it cannot happen. -/
def next (w : HookingWorld) (act : HookingAction) : Option HookingWorld :=
  if w.stopped then none else w.perform act

/-- The world is reached by some actions. -/
inductive Reach (w₀ : HookingWorld) : HookingWorld → Prop where
  | refl : Reach w₀ w₀
  | step {w w' : HookingWorld} {act : HookingAction} (hreach : Reach w₀ w)
      (h : w.next act = some w') : Reach w₀ w'

/-- Several actions in turn. -/
def run (w : HookingWorld) : List HookingAction → Option HookingWorld
  | [] => some w
  | act :: acts => (w.next act).bind fun w' => w'.run acts

lemma reach_run {w₀ w w' : HookingWorld} {acts : List HookingAction} (h : Reach w₀ w)
    (hrun : w.run acts = some w') : Reach w₀ w' := by
  induction acts generalizing w with
  | nil =>
      cases hrun
      exact h
  | cons act acts ih =>
      obtain ⟨v, hv, hrest⟩ := Option.bind_eq_some_iff.mp hrun
      exact ih (.step h hv) hrest

end HookingWorld

/-! ## The commit slot as a lock -/

/-- What a task is to the lock. -/
def Task.status (t : Task) : LockStatus :=
  match t.stage with
  | .committing _ _ => .holding
  | .begging _ =>
      match t.answer with
      | none => .waiting
      | some ok => .answered ok
  | _ => .idle

/-- What a command is to the lock. -/
def lockMessage : Command → Option (LockMessage ℕ)
  | .tryBeginCommit n => some (.request n)
  | .endCommit => some .release
  | _ => none

namespace HookingWorld

/-- The commit slot, as a lock that is asked for by message. -/
def lock (w : HookingWorld) : TryLock ℕ where
  held := w.actor.committing
  queue := w.queue.filterMap lockMessage
  status n := ((w.tasks n).map Task.status).getD .idle

/-- What holds of the tasks one by one. -/
structure Tidy (w : HookingWorld) : Prop where
  answered : ∀ n t, w.tasks n = some t → t.answer ≠ none → t.stage.Begs
  kept : ∀ n t, w.tasks n = some t → t.stage.Kept
  fresh : ∀ n, w.spawned ≤ n → w.tasks n = none

section Lock

variable {w w' : HookingWorld} {n : ℕ} {t : Task} {f : Task → Task}

lemma tasks_modify (h : w.tasks n = some t) :
    (w.modify n f).tasks = Function.update w.tasks n (some (f t)) := by
  simp [modify, h]

lemma status_update {task : Option Task} :
    (fun m => ((Function.update w.tasks n task m).map Task.status).getD .idle) =
      Function.update w.lock.status n ((task.map Task.status).getD .idle) := by
  funext m
  by_cases hm : m = n
  · subst hm
    simp
  · simp [Function.update_of_ne hm, lock]

lemma lock_status (h : w.tasks n = some t) : w.lock.status n = t.status := by
  simp [lock, h]

lemma status_of_free {t : Task} (h : t.stage.Free) : t.status = .idle := by
  obtain ⟨arc, cancelled, stage, answer⟩ := t
  cases stage with
  | begging => exact absurd trivial h.2
  | committing => exact absurd trivial h.1
  | _ => rfl

/-- Setting a task whose part in the lock does not change changes nothing there. -/
lemma update_status_self {task : Option Task} (h : w.lock.status n = (task.map Task.status).getD .idle) :
    (fun m => ((Function.update w.tasks n task m).map Task.status).getD .idle) = w.lock.status := by
  rw [status_update, ← h, Function.update_eq_self]

lemma filterMap_commands (out : List Output) :
    (commands out).filterMap lockMessage = (slotCommands out).filterMap lockMessage := by
  rw [slotCommands, List.filterMap_filter]
  congr 1
  funext cmd
  cases cmd <;> rfl

/-- The world does nothing to the lock, or makes one move of it. -/
def LockMoves (w w' : HookingWorld) : Prop := w'.lock = w.lock ∨ TryLock.Step w.lock w'.lock

/-- The world after a turn of a handler. -/
def afterTurn (w : HookingWorld) (n : ℕ) (t : Task) (r : HandlerStage × List Output) :
    HookingWorld :=
  { w with
    tasks := Function.update w.tasks n (some ⟨t.arc, t.cancelled, r.1, none⟩),
    queue := w.queue ++ commands r.2 }

/-- A handler that waits for the slot is woken by its answer, or aborted. -/
lemma wake_of_begs {arc : ArcId} {token : Bool} {s : Sight} {wake : Wake} {stage : HandlerStage}
    {r : HandlerStage × List Output} (hbegs : stage.Begs)
    (h : stage.resume arc n token s wake = some r) :
    wake = .aborted ∨ ∃ ok, wake = .granted ok := by
  cases stage with
  | begging nd =>
      cases wake with
      | granted ok => exact Or.inr ⟨ok, rfl⟩
      | aborted => exact Or.inl rfl
      | _ => cases h
  | _ => exact absurd hbegs id

/-- What a turn is: the handler's own, with the answer it was given if it waited for one. -/
lemma turn_spec (hw : w.Tidy) (ht : w.tasks n = some t) {s : Sight} {wake : Wake}
    (h : w.turn n t s wake = some w') :
    ∃ r, t.stage.resume t.arc n (t.cancelled || w.stopping) s wake = some r ∧
      w' = w.afterTurn n t r ∧ wake ≠ .aborted ∧ ∀ ok, wake = .granted ok → t.answer = some ok := by
  by_cases hgranted : ∃ ok, wake = .granted ok
  · obtain ⟨ok, rfl⟩ := hgranted
    simp only [turn, Option.ite_none_right_eq_some, Option.map_eq_some_iff] at h
    obtain ⟨hans, r, hr, rfl⟩ := h
    refine ⟨r, hr, ?_, nofun, ?_⟩
    · simp [afterTurn, modify, ht]
    · intro ok' hok
      cases hok
      exact hans
  · have hwake : wake ≠ .aborted := by
      rintro rfl
      cases h
    obtain ⟨r, hr, hw'⟩ : ∃ r, t.stage.resume t.arc n (t.cancelled || w.stopping) s wake = some r ∧
        { w.modify n fun t => { t with stage := r.1 } with queue := w.queue ++ commands r.2 } =
          w' := by
      cases wake with
      | granted ok => exact absurd ⟨ok, rfl⟩ hgranted
      | aborted => exact absurd rfl hwake
      | _ => exact Option.map_eq_some_iff.mp h
    have hans : t.answer = none := by
      by_contra hne
      rcases wake_of_begs (hw.answered n t ht hne) hr with habort | hok
      · exact hwake habort
      · exact hgranted hok
    refine ⟨r, hr, ?_, hwake, fun ok hok => absurd ⟨ok, hok⟩ hgranted⟩
    rw [← hw']
    simp [afterTurn, modify, ht, hans]

lemma lock_afterTurn (r : HandlerStage × List Output) : (w.afterTurn n t r).lock =
    ⟨w.lock.held, w.lock.queue ++ (slotCommands r.2).filterMap lockMessage,
      Function.update w.lock.status n (Task.status ⟨t.arc, t.cancelled, r.1, none⟩)⟩ := by
  simp only [lock, afterTurn, TryLock.mk.injEq, true_and, List.filterMap_append,
    filterMap_commands]
  exact status_update

/-- The lock does not change. -/
lemma lock_afterTurn_self {r : HandlerStage × List Output} (hslot : slotCommands r.2 = [])
    (hstatus : Task.status ⟨t.arc, t.cancelled, r.1, none⟩ = w.lock.status n) :
    (w.afterTurn n t r).lock = w.lock := by
  rw [lock_afterTurn, hslot, hstatus, Function.update_eq_self]
  simp

/-- A turn of a handler is a move of the lock, or none. -/
lemma lockMoves_turn (ht : w.tasks n = some t) {s : Sight} {wake : Wake}
    {r : HandlerStage × List Output} (hturn : HandlerTurn t.arc n s t.stage wake r)
    (hwake : wake ≠ .aborted) (hans : ∀ ok, wake = .granted ok → t.answer = some ok) :
    LockMoves w (w.afterTurn n t r) := by
  have hstatus : w.lock.status n = t.status := lock_status ht
  obtain ⟨arc, cancelled, stage, answer⟩ := t
  cases hturn with
  | @commit cs c _ r h =>
      obtain ⟨hslot, hbegs⟩ := commit_slot h
      obtain ⟨stage', out⟩ := r
      by_cases hstay : stage'.Commits
      · refine Or.inl (lock_afterTurn_self (hslot.trans (if_pos hstay)) ?_)
        rw [hstatus]
        cases stage' with
        | committing => rfl
        | _ => exact absurd hstay id
      · refine Or.inr ?_
        have hout : slotCommands out = [.endCommit] := hslot.trans (if_neg hstay)
        rw [lock_afterTurn, hout, status_of_free ⟨hstay, hbegs⟩]
        exact .leave _ n hstatus
  | granted nd =>
      have hans' : answer = some true := hans true rfl
      have hslot : slotCommands [phase arc .evaluating, .ask .evaluate] = [] := rfl
      refine Or.inr ?_
      rw [lock_afterTurn, hslot, List.filterMap_nil, List.append_nil]
      exact .enter _ n (by rw [hstatus, hans']; rfl)
  | denied nd =>
      have hans' : answer = some false := hans false rfl
      have hslot : slotCommands [phase arc .waiting] = [] := rfl
      refine Or.inr ?_
      rw [lock_afterTurn, hslot, List.filterMap_nil, List.append_nil]
      exact .giveUp _ n (by rw [hstatus, hans']; rfl)
  | dropped nd => exact absurd rfl hwake
  | @begged _ _ out nd hfree hout =>
      refine Or.inr ?_
      rw [lock_afterTurn, hout]
      exact .ask _ n (hstatus.trans (status_of_free hfree))
  | @other _ stage' _ out hfree hfree' hout =>
      refine Or.inl (lock_afterTurn_self hout ?_)
      rw [hstatus, status_of_free hfree]
      exact status_of_free hfree'

lemma tidy_afterTurn (hw : w.Tidy) (ht : w.tasks n = some t) {s : Sight} {wake : Wake}
    {r : HandlerStage × List Output} (hturn : HandlerTurn t.arc n s t.stage wake r) :
    (w.afterTurn n t r).Tidy := by
  refine ⟨?_, ?_, ?_⟩
  · intro m u hu hne
    by_cases hm : m = n
    · subst hm
      simp only [afterTurn, Function.update_self, Option.some.injEq] at hu
      subst hu
      exact absurd rfl hne
    · simp only [afterTurn, Function.update_of_ne hm] at hu
      exact hw.answered m u hu hne
  · intro m u hu
    by_cases hm : m = n
    · subst hm
      simp only [afterTurn, Function.update_self, Option.some.injEq] at hu
      subst hu
      exact resume_kept (hw.kept m t ht) hturn
    · simp only [afterTurn, Function.update_of_ne hm] at hu
      exact hw.kept m u hu
  · intro m hm
    have hmn : m ≠ n := by
      rintro rfl
      rw [hw.fresh m hm] at ht
      cases ht
    simp only [afterTurn, Function.update_of_ne hmn]
    exact hw.fresh m hm

lemma handleAddArc_ok {a a' : Actor} {next : ℕ} {arc : ArcId}
    (h : a.handleAddArc next arc = .ok a') :
    a.arcCancels.contains arc = false ∧
      a' = { a.setPhase arc .discovering with arcCancels := a.arcCancels.insert arc next } := by
  unfold Actor.handleAddArc at h
  split_ifs at h with hc
  cases h
  exact ⟨by simpa using hc, rfl⟩

lemma erase_of_get?_none {m : KeyedMap ArcId ℕ} {arc : ArcId} (h : m.get? arc = none) :
    m.erase arc = m := by
  have hentries := KeyedMap.erase_entries_of_get?_none h
  obtain ⟨entries, hnodup⟩ := m
  simp only [KeyedMap.erase] at hentries ⊢
  congr

/-- What `remove_arc` leaves alone, and what it cancels. -/
lemma handleRemoveArc_ok {a a' : Actor} {arc : ArcId} {token : Option ℕ}
    (h : a.handleRemoveArc arc = .ok (a', token)) :
    a'.committing = a.committing ∧ a'.arcCancels = a.arcCancels.erase arc ∧
      token = a.arcCancels.get? arc := by
  unfold Actor.handleRemoveArc at h
  split at h
  · rename_i hnone
    split_ifs at h
    cases h
    refine ⟨rfl, ?_, hnone.symm⟩
    exact (erase_of_get?_none hnone).symm
  · rename_i k hsome
    cases h
    exact ⟨rfl, rfl, hsome.symm⟩

lemma markEntered_eq (a : Actor) (arc : ArcId) (askLvl : ℕ) (entryData : EntryData) :
    (a.markEntered arc askLvl entryData).committing = a.committing ∧
      (a.markEntered arc askLvl entryData).arcCancels = a.arcCancels := by
  unfold Actor.markEntered
  simp only
  split_ifs
  · exact ⟨rfl, rfl⟩
  · exact ⟨rfl, rfl⟩

/-- The commands that the lock does not see. -/
lemma lock_handle_self {cmd : Command} {rest : List Command} (hw : w.Tidy)
    (hq : w.queue = cmd :: rest) (hcmd : lockMessage cmd = none) :
    ({ w with queue := rest }.handleCommand cmd).lock = w.lock := by
  have hqueue : w.queue.filterMap lockMessage = rest.filterMap lockMessage := by
    simp [hq, hcmd]
  cases cmd with
  | addArc arc =>
      simp only [handleCommand]
      cases hadd : w.actor.handleAddArc w.spawned arc with
      | error e => simp [lock, hqueue]
      | ok a =>
          obtain ⟨-, rfl⟩ := handleAddArc_ok hadd
          simp only [lock, hqueue, spawn, TryLock.mk.injEq, true_and]
          refine ⟨rfl, update_status_self ?_⟩
          simp [lock, hw.fresh w.spawned le_rfl, Task.status]
  | removeArc arc =>
      simp only [handleCommand]
      cases hrem : w.actor.handleRemoveArc arc with
      | error e => simp [lock, hqueue]
      | ok r =>
          obtain ⟨a, token⟩ := r
          obtain ⟨hcommit, -, -⟩ := handleRemoveArc_ok hrem
          cases token with
          | none => simp [lock, hqueue, hcommit]
          | some k =>
              simp only [lock, hqueue, modify, hcommit, TryLock.mk.injEq, true_and]
              refine update_status_self ?_
              cases hk : w.tasks k with
              | none => simp [lock, hk]
              | some u => simp [lock, hk, Task.status]
  | setArcPhase arc p => simp [handleCommand, lock, hqueue, Actor.setPhase]
  | markEntered arc askLvl entryData =>
      simp [handleCommand, lock, hqueue, (markEntered_eq w.actor arc askLvl entryData).1]
  | tryBeginCommit k => cases hcmd
  | endCommit => cases hcmd

/-- A client that waits is a task that begs and has no answer. -/
lemma waiting_task {k : ℕ} (h : w.lock.status k = .waiting) :
    ∃ u, w.tasks k = some u ∧ ∃ nd, u.stage = .begging nd ∧ u.answer = none := by
  cases hk : w.tasks k with
  | none => simp [lock, hk] at h
  | some u =>
      rw [lock_status hk] at h
      obtain ⟨arc, cancelled, stage, answer⟩ := u
      cases stage with
      | begging nd =>
          cases answer with
          | none => exact ⟨_, rfl, nd, rfl, rfl⟩
          | some ok => cases h
      | _ => cases h

/-- A command is a move of the lock, or none. -/
lemma lockMoves_handle {cmd : Command} {rest : List Command} (hinv : w.lock.Inv) (hw : w.Tidy)
    (hq : w.queue = cmd :: rest) : LockMoves w ({ w with queue := rest }.handleCommand cmd) := by
  cases hcmd : lockMessage cmd with
  | none => exact Or.inl (lock_handle_self hw hq hcmd)
  | some msg =>
      have hhead : w.lock.queue = msg :: rest.filterMap lockMessage := by
        simp [lock, hq, hcmd]
      cases cmd with
      | tryBeginCommit k =>
          cases hcmd
          obtain ⟨u, hu, nd, hstage, hans⟩ := waiting_task (hinv.head_request hhead).1
          refine Or.inr ?_
          have hlock : ({ w with queue := rest }.handleCommand (.tryBeginCommit k)).lock =
              ⟨true, rest.filterMap lockMessage,
                Function.update w.lock.status k (.answered !w.lock.held)⟩ := by
            simp only [handleCommand, modify, lock, TryLock.mk.injEq, true_and, hu, Option.map_some]
            rw [status_update]
            simp [Task.status, hstage, lock]
          rw [hlock]
          exact .answer _ k _ hhead
      | endCommit =>
          cases hcmd
          exact Or.inr (.free _ _ hhead)
      | addArc | removeArc | setArcPhase | markEntered => cases hcmd

lemma Tidy.congr (hw : w.Tidy) (htasks : w'.tasks = w.tasks) (hspawned : w'.spawned = w.spawned) :
    w'.Tidy := by
  refine ⟨?_, ?_, ?_⟩
  · rw [htasks]
    exact hw.answered
  · rw [htasks]
    exact hw.kept
  · rw [htasks, hspawned]
    exact hw.fresh

lemma tidy_update {task : Option Task} (hw : w.Tidy) (hn : n < w.spawned)
    (htask : ∀ u ∈ task, (u.answer ≠ none → u.stage.Begs) ∧ u.stage.Kept)
    (htasks : w'.tasks = Function.update w.tasks n task) (hspawned : w'.spawned = w.spawned) :
    w'.Tidy := by
  refine ⟨?_, ?_, ?_⟩
  · intro m u hu hne
    rw [htasks] at hu
    by_cases hm : m = n
    · subst hm
      rw [Function.update_self] at hu
      exact (htask u hu).1 hne
    · rw [Function.update_of_ne hm] at hu
      exact hw.answered m u hu hne
  · intro m u hu
    rw [htasks] at hu
    by_cases hm : m = n
    · subst hm
      rw [Function.update_self] at hu
      exact (htask u hu).2
    · rw [Function.update_of_ne hm] at hu
      exact hw.kept m u hu
  · intro m hm
    rw [hspawned] at hm
    rw [htasks, Function.update_of_ne (by omega)]
    exact hw.fresh m hm

lemma lt_spawned (hw : w.Tidy) (ht : w.tasks n = some t) : n < w.spawned := by
  by_contra hle
  rw [hw.fresh n (by omega)] at ht
  cases ht

/-- A task changed as to what `f` does, if there is one. -/
lemma tidy_modify (hw : w.Tidy)
    (hf : ∀ u, w.tasks n = some u → ((f u).answer ≠ none → (f u).stage.Begs) ∧ (f u).stage.Kept)
    (htasks : w'.tasks = (w.modify n f).tasks) (hspawned : w'.spawned = w.spawned) : w'.Tidy := by
  cases hn : w.tasks n with
  | none =>
      refine hw.congr ?_ hspawned
      rw [htasks, modify, hn, Option.map_none, ← hn, Function.update_eq_self]
  | some u =>
      refine tidy_update hw (lt_spawned hw hn) ?_ (htasks.trans (tasks_modify hn)) hspawned
      intro v hv
      cases hv
      exact hf u hn

lemma tidy_spawn (hw : w.Tidy) (arc : ArcId) : (w.spawn arc).Tidy := by
  refine ⟨?_, ?_, ?_⟩
  · intro m u hu hne
    by_cases hm : m = w.spawned
    · subst hm
      simp only [spawn, Function.update_self, Option.some.injEq] at hu
      subst hu
      exact absurd rfl hne
    · simp only [spawn, Function.update_of_ne hm] at hu
      exact hw.answered m u hu hne
  · intro m u hu
    by_cases hm : m = w.spawned
    · subst hm
      simp only [spawn, Function.update_self, Option.some.injEq] at hu
      subst hu
      trivial
    · simp only [spawn, Function.update_of_ne hm] at hu
      exact hw.kept m u hu
  · intro m hm
    simp only [spawn] at hm ⊢
    rw [Function.update_of_ne (by omega)]
    exact hw.fresh m (by omega)

lemma tidy_handle {cmd : Command} {rest : List Command} (hinv : w.lock.Inv) (hw : w.Tidy)
    (hq : w.queue = cmd :: rest) : ({ w with queue := rest }.handleCommand cmd).Tidy := by
  cases cmd with
  | addArc arc =>
      simp only [handleCommand]
      cases w.actor.handleAddArc w.spawned arc with
      | error e => exact hw.congr rfl rfl
      | ok a => exact (tidy_spawn hw arc).congr rfl rfl
  | removeArc arc =>
      simp only [handleCommand]
      cases w.actor.handleRemoveArc arc with
      | error e => exact hw.congr rfl rfl
      | ok r =>
          obtain ⟨a, token⟩ := r
          cases token with
          | none => exact hw.congr rfl rfl
          | some k =>
              exact tidy_modify (f := fun u => { u with cancelled := true }) hw
                (fun u hu => ⟨hw.answered k u hu, hw.kept k u hu⟩) rfl rfl
  | tryBeginCommit k =>
      have hhead : w.lock.queue = .request k :: rest.filterMap lockMessage := by
        simp [lock, hq, lockMessage]
      obtain ⟨u, hu, nd, hstage, -⟩ := waiting_task (hinv.head_request hhead).1
      refine tidy_modify hw (fun v hv => ?_) rfl rfl
      obtain rfl : u = v := Option.some.inj (hu.symm.trans hv)
      exact ⟨fun _ => by simp [hstage, HandlerStage.Begs], hw.kept k u hu⟩
  | setArcPhase | markEntered | endCommit => exact hw.congr rfl rfl

/-- An action is a move of the lock, or none, unless it is the shutdown. -/
lemma next_spec {act : HookingAction} (hinv : w.lock.Inv) (hw : w.Tidy)
    (h : w.next act = some w') :
    (w'.stopped = true ∧ ∀ n, w'.tasks n = none) ∨ LockMoves w w' ∧ w'.Tidy := by
  obtain ⟨-, h⟩ := Option.ite_none_left_eq_some.mp h
  cases act with
  | addArc arc | removeArc arc =>
      cases h
      exact Or.inr ⟨Or.inl (by simp [lock, lockMessage]), hw.congr rfl rfl⟩
  | handle =>
      cases hq : w.queue with
      | nil => simp [perform, hq] at h
      | cons cmd rest =>
          simp only [perform, hq, Option.ite_none_left_eq_some, Option.some.injEq] at h
          obtain ⟨-, rfl⟩ := h
          exact Or.inr ⟨lockMoves_handle hinv hw hq, tidy_handle hinv hw hq⟩
  | join n =>
      cases ht : w.tasks n with
      | none => simp [perform, ht] at h
      | some t =>
          simp only [perform, ht, Option.ite_none_right_eq_some, Option.some.injEq] at h
          obtain ⟨⟨-, hover⟩, rfl⟩ := h
          have hidle : w.lock.status n = .idle := by
            rw [lock_status ht, Task.status, hover]
          refine Or.inr ⟨Or.inl ?_, tidy_update hw (lt_spawned hw ht) (by simp) rfl rfl⟩
          simp only [lock, TryLock.mk.injEq, true_and]
          exact update_status_self hidle
  | turn n s wake =>
      obtain ⟨t, ht, hturn⟩ := Option.bind_eq_some_iff.mp h
      obtain ⟨r, hr, rfl, hwake, hans⟩ := turn_spec hw ht hturn
      exact Or.inr ⟨lockMoves_turn ht (handler_turn hr) hwake hans,
        tidy_afterTurn hw ht (handler_turn hr)⟩
  | cancel =>
      cases h
      exact Or.inr ⟨Or.inl rfl, hw.congr rfl rfl⟩
  | shutdown =>
      simp only [perform, Option.ite_none_right_eq_some, Option.some.injEq] at h
      obtain ⟨-, rfl⟩ := h
      exact Or.inl ⟨rfl, fun _ => rfl⟩

end Lock

end HookingWorld

section Slot

variable {origin : HookingOrigin} {topology : Topology} {networkId : Int64} {w : HookingWorld}

lemma tidy_init : (HookingWorld.init origin topology networkId).Tidy :=
  ⟨nofun, nofun, fun _ _ => rfl⟩

/-- Until the shutdown the slot is tracked as a lock; then there are no tasks. -/
lemma slot_of_reach (h : HookingWorld.Reach (HookingWorld.init origin topology networkId) w) :
    (w.stopped = true ∧ ∀ n, w.tasks n = none) ∨ w.lock.Inv ∧ w.Tidy := by
  induction h with
  | refl => exact Or.inr ⟨TryLock.inv_start, tidy_init⟩
  | @step w w' act hreach hnext ih =>
      rcases ih with ⟨hstopped, -⟩ | ⟨hinv, htidy⟩
      · simp [HookingWorld.next, hstopped] at hnext
      · rcases HookingWorld.next_spec hinv htidy hnext with hstop | ⟨hmove, htidy'⟩
        · exact Or.inl hstop
        · refine Or.inr ⟨?_, htidy'⟩
          rcases hmove with hsame | hstep
          · rw [hsame]
            exact hinv
          · exact TryLock.inv_step hinv hstep

/-- The handler is in its commit phase, or has an answer that lets it in. -/
def HookingWorld.OwnsSlot (w : HookingWorld) (n : ℕ) : Prop :=
  ∃ t, w.tasks n = some t ∧ (t.stage.Commits ∨ t.stage.Begs ∧ t.answer = some true)

lemma owns_iff {n : ℕ} : w.lock.Owns n ↔ w.OwnsSlot n := by
  cases hn : w.tasks n with
  | none => simp [TryLock.Owns, HookingWorld.lock, HookingWorld.OwnsSlot, hn]
  | some t =>
      simp only [TryLock.Owns, HookingWorld.lock_status hn, HookingWorld.OwnsSlot, hn,
        Option.some.injEq, exists_eq_left']
      obtain ⟨arc, cancelled, stage, answer⟩ := t
      cases stage with
      | begging nd =>
          cases answer <;> simp [Task.status, HandlerStage.Commits, HandlerStage.Begs]
      | _ => simp [Task.status, HandlerStage.Commits, HandlerStage.Begs]

lemma count_release_pos : 0 < w.lock.queue.count .release ↔ Command.endCommit ∈ w.queue := by
  rw [List.count_pos_iff, HookingWorld.lock, List.mem_filterMap]
  constructor
  · rintro ⟨cmd, hmem, hmsg⟩
    cases cmd with
    | endCommit => exact hmem
    | _ => cases hmsg
  · intro hmem
    exact ⟨_, hmem, rfl⟩

lemma count_request_pos {n : ℕ} :
    0 < w.lock.queue.count (.request n) ↔ Command.tryBeginCommit n ∈ w.queue := by
  rw [List.count_pos_iff, HookingWorld.lock, List.mem_filterMap]
  constructor
  · rintro ⟨cmd, hmem, hmsg⟩
    cases cmd with
    | tryBeginCommit k =>
        cases hmsg
        exact hmem
    | _ => cases hmsg
  · intro hmem
    exact ⟨_, hmem, rfl⟩

/-- The slot is taken exactly while a handler owns it or gives it back. -/
lemma committing_iff (h : w.lock.Inv) :
    w.actor.committing = true ↔ (∃ n, w.OwnsSlot n) ∨ Command.endCommit ∈ w.queue := by
  constructor
  · intro hheld
    rcases h.taken hheld with ⟨⟨n, hn, -⟩, -⟩ | ⟨-, hone⟩
    · exact Or.inl ⟨n, owns_iff.mp hn⟩
    · exact Or.inr (count_release_pos.mp (by omega))
  · rintro (⟨n, hn⟩ | hmem)
    · exact (h.held_of_owns (owns_iff.mpr hn)).1
    · by_contra hfree
      have hzero := (h.free (Bool.eq_false_iff.mpr hfree)).2
      have hpos := count_release_pos.mpr hmem
      omega

/-- However the handlers of an identity and its manager are interleaved, at most one handler is in
its commit phase; the slot is never lost, and neither is a request for it. -/
theorem commit_exclusive (h : HookingWorld.Reach (HookingWorld.init origin topology networkId) w) :
    (∀ n m, w.OwnsSlot n → w.OwnsSlot m → n = m) ∧
    (w.stopped = false →
      (w.actor.committing = true ↔ (∃ n, w.OwnsSlot n) ∨ Command.endCommit ∈ w.queue) ∧
      (∀ n, w.OwnsSlot n → Command.endCommit ∉ w.queue) ∧
      ∀ n t, w.tasks n = some t → t.stage.Begs → t.answer = none →
        Command.tryBeginCommit n ∈ w.queue) := by
  rcases slot_of_reach h with ⟨hstopped, htasks⟩ | ⟨hinv, htidy⟩
  · refine ⟨?_, fun hrun => absurd (hstopped.symm.trans hrun) nofun⟩
    rintro n m ⟨t, ht, -⟩ -
    cases (htasks n).symm.trans ht
  · refine ⟨?_, fun _ => ⟨committing_iff hinv, ?_, ?_⟩⟩
    · intro n m hn hm
      exact hinv.exclusive (owns_iff.mpr hn) (owns_iff.mpr hm)
    · intro n hn hmem
      have hzero := (hinv.held_of_owns (owns_iff.mpr hn)).2
      have hpos := count_release_pos.mpr hmem
      omega
    · intro n t ht hbegs hans
      refine count_request_pos.mp ?_
      have hwait : w.lock.status n = .waiting := by
        rw [HookingWorld.lock_status ht]
        obtain ⟨arc, cancelled, stage, answer⟩ := t
        cases stage with
        | begging nd =>
            cases hans
            rfl
        | _ => exact absurd hbegs id
      rw [hinv.asked n, if_pos hwait]
      exact Nat.one_pos

end Slot

/-- An identity alone in its network that finds a larger one on two arcs. -/
def twoArcs : HookingWorld := HookingWorld.init .createNet soleView.topology 1

/-- Both handlers ask for the slot, and the manager answers both. -/
def twoArcsActions : List HookingAction :=
  [.addArc ⟨0⟩, .addArc ⟨1⟩, .handle, .handle,
    .turn 0 soleSight .polled, .turn 1 soleSight .polled,
    .turn 0 soleSight (.networkData (.ok crowd)), .turn 1 soleSight (.networkData (.ok crowd)),
    .handle, .handle, .handle, .handle,
    .turn 0 soleSight (.granted true), .turn 1 soleSight (.granted false)]

/-- The world then. -/
def twoArcsEnd : HookingWorld := (twoArcs.run twoArcsActions).getD twoArcs

theorem commit_exclusive_two : (∃ t, twoArcsEnd.tasks 0 = some t ∧ t.stage.Commits) ∧
    (∃ t, twoArcsEnd.tasks 1 = some t ∧ t.stage = .rejected) ∧
    ∀ n, twoArcsEnd.OwnsSlot n → n = 0 := by
  have hrun : twoArcs.run twoArcsActions = some twoArcsEnd := rfl
  have hreach : HookingWorld.Reach twoArcs twoArcsEnd := HookingWorld.reach_run .refl hrun
  have hzero : ∃ t, twoArcsEnd.tasks 0 = some t ∧ t.stage.Commits := ⟨_, rfl, trivial⟩
  refine ⟨hzero, ⟨_, rfl, rfl⟩, fun n hn => ?_⟩
  obtain ⟨t, ht, hcommits⟩ := hzero
  exact (commit_exclusive hreach).1 n 0 hn ⟨t, ht, Or.inl hcommits⟩

/-! ## One handler an arc -/

/-- A run in which the daemon never adds an arc again that it has asked to remove; a link that comes
back has a new id.  `removed` collects the arcs it has asked to remove. -/
inductive DaemonRun (w₀ : HookingWorld) : Set ArcId → HookingWorld → Prop where
  | refl : DaemonRun w₀ ∅ w₀
  | step {removed : Set ArcId} {w w' : HookingWorld} {act : HookingAction}
      (hrun : DaemonRun w₀ removed w) (hadd : ∀ arc, act = .addArc arc → arc ∉ removed)
      (h : w.next act = some w') :
      DaemonRun w₀ (removed ∪ {arc | act = .removeArc arc}) w'

/-- Which handlers there are, and which of them the actor can cancel. -/
structure TokenInv (removed : Set ArcId) (w : HookingWorld) : Prop where
  single : ∀ n m t u, w.tasks n = some t → w.tasks m = some u → t.arc = u.arc → n = m
  registered : ∀ arc n, w.actor.arcCancels.get? arc = some n →
    ∃ t, w.tasks n = some t ∧ t.arc = arc ∧ t.cancelled = false
  tokened : ∀ n t, w.tasks n = some t → t.cancelled = false →
    w.actor.arcCancels.get? t.arc = some n
  -- A cancelled handler's arc is not added again.
  gone : ∀ n t, w.tasks n = some t → t.cancelled = true →
    t.arc ∈ removed ∧ Command.addArc t.arc ∉ w.queue
  ordered : w.queue.Pairwise fun c d => ∀ arc, c = .removeArc arc → d ≠ .addArc arc
  asked : ∀ arc, Command.removeArc arc ∈ w.queue → arc ∈ removed
  fresh : ∀ n, w.spawned ≤ n → w.tasks n = none

section Token

variable {origin : HookingOrigin} {topology : Topology} {networkId : Int64}
  {w w₀ w' : HookingWorld} {removed : Set ArcId} {n : ℕ} {t : Task}

lemma DaemonRun.reach (h : DaemonRun w₀ removed w) : HookingWorld.Reach w₀ w := by
  induction h with
  | refl => exact .refl
  | step _ _ hnext ih => exact .step ih hnext

/-- A handler never asks for an arc to be added or removed. -/
lemma commands_arcs {arc : ArcId} {s : Sight} {wake : Wake} {stage : HandlerStage}
    {r : HandlerStage × List Output} (h : HandlerTurn arc n s stage wake r) {cmd : Command}
    (hmem : cmd ∈ commands r.2) (a : ArcId) : cmd ≠ .addArc a ∧ cmd ≠ .removeArc a := by
  have hslot : slotCommands r.2 = [] ∨ slotCommands r.2 = [.endCommit] ∨
      slotCommands r.2 = [.tryBeginCommit n] := by
    cases h with
    | commit h =>
        rw [(commit_slot h).1, owed]
        split_ifs
        · exact Or.inl rfl
        · exact Or.inr (Or.inl rfl)
    | granted | denied | dropped => exact Or.inl rfl
    | begged _ _ hout => exact Or.inr (Or.inr hout)
    | other _ _ hout => exact Or.inl hout
  have hquiet : ∀ c : Command, c ∈ commands r.2 → c.quiet = false →
      c = .endCommit ∨ c = .tryBeginCommit n := by
    intro c hc hq
    have hc' : c ∈ slotCommands r.2 := List.mem_filter.mpr ⟨hc, by simp [hq]⟩
    rcases hslot with h | h | h <;> rw [h] at hc' <;> simp_all
  constructor
  · rintro rfl
    rcases hquiet _ hmem rfl with h | h <;> cases h
  · rintro rfl
    rcases hquiet _ hmem rfl with h | h <;> cases h

/-- A task that is changed, but keeps its arc and its token. -/
lemma TokenInv.modify {f : Task → Task} (h : TokenInv removed w)
    (hf : ∀ u, (f u).arc = u.arc ∧ (f u).cancelled = u.cancelled)
    (htasks : w'.tasks = (w.modify n f).tasks)
    (hcancels : w'.actor.arcCancels = w.actor.arcCancels) (hqueue : w'.queue = w.queue)
    (hspawned : w'.spawned = w.spawned) : TokenInv removed w' := by
  have hback : ∀ m u, w'.tasks m = some u →
      ∃ v, w.tasks m = some v ∧ v.arc = u.arc ∧ v.cancelled = u.cancelled := by
    intro m u hu
    rw [htasks] at hu
    by_cases hm : m = n
    · subst hm
      simp only [HookingWorld.modify, Function.update_self, Option.map_eq_some_iff] at hu
      obtain ⟨v, hv, rfl⟩ := hu
      exact ⟨v, hv, (hf v).1.symm, (hf v).2.symm⟩
    · simp only [HookingWorld.modify, Function.update_of_ne hm] at hu
      exact ⟨u, hu, rfl, rfl⟩
  refine ⟨?_, ?_, ?_, ?_, ?_, ?_, ?_⟩
  · intro m k u v hu hv harc
    obtain ⟨u', hu', huarc, -⟩ := hback m u hu
    obtain ⟨v', hv', hvarc, -⟩ := hback k v hv
    exact h.single m k u' v' hu' hv' (by rw [huarc, hvarc, harc])
  · intro arc m hget
    rw [hcancels] at hget
    obtain ⟨u, hu, harc, hcancel⟩ := h.registered arc m hget
    rw [htasks]
    by_cases hm : m = n
    · subst hm
      exact ⟨f u, by simp [HookingWorld.modify, hu], (hf u).1.trans harc, (hf u).2.trans hcancel⟩
    · exact ⟨u, by simpa [HookingWorld.modify, Function.update_of_ne hm] using hu, harc, hcancel⟩
  · intro m u hu hcancel
    obtain ⟨u', hu', huarc, hucancel⟩ := hback m u hu
    rw [hcancels, ← huarc]
    exact h.tokened m u' hu' (hucancel.trans hcancel)
  · intro m u hu hcancel
    obtain ⟨u', hu', huarc, hucancel⟩ := hback m u hu
    rw [hqueue, ← huarc]
    exact h.gone m u' hu' (hucancel.trans hcancel)
  · rw [hqueue]
    exact h.ordered
  · rw [hqueue]
    exact h.asked
  · intro m hm
    rw [hspawned] at hm
    rw [htasks]
    by_cases hmn : m = n
    · subst hmn
      simp [HookingWorld.modify, h.fresh m hm]
    · simpa [HookingWorld.modify, Function.update_of_ne hmn] using h.fresh m hm

/-- What a handler sends is nothing about arcs. -/
lemma TokenInv.send (h : TokenInv removed w) {cmds : List Command}
    (hcmds : ∀ c ∈ cmds, ∀ a, c ≠ .addArc a ∧ c ≠ .removeArc a) :
    TokenInv removed { w with queue := w.queue ++ cmds } := by
  refine ⟨h.single, h.registered, h.tokened, ?_, ?_, ?_, h.fresh⟩
  · intro m u hu hcancel
    obtain ⟨hrem, hqueue⟩ := h.gone m u hu hcancel
    refine ⟨hrem, fun hmem => ?_⟩
    rcases List.mem_append.mp hmem with hold | hnew
    · exact hqueue hold
    · exact (hcmds _ hnew u.arc).1 rfl
  · refine List.pairwise_append.mpr ⟨h.ordered, ?_, ?_⟩
    · refine List.Pairwise.imp_of_mem ?_ (List.pairwise_of_forall fun _ _ => trivial)
      intro c d hc _ _ arc hcarc
      exact absurd hcarc (hcmds c hc arc).2
    · intro c _ d hd arc _
      exact (hcmds d hd arc).1
  · intro arc hmem
    rcases List.mem_append.mp hmem with hold | hnew
    · exact h.asked arc hold
    · exact absurd rfl (hcmds _ hnew arc).2

lemma TokenInv.afterTurn (h : TokenInv removed w) (ht : w.tasks n = some t) {s : Sight}
    {wake : Wake} {r : HandlerStage × List Output} (hturn : HandlerTurn t.arc n s t.stage wake r) :
    TokenInv removed (w.afterTurn n t r) := by
  have hsent : TokenInv removed { w with queue := w.queue ++ commands r.2 } :=
    h.send fun c hc a => commands_arcs hturn hc a
  refine hsent.modify (f := fun u => { u with stage := r.1, answer := none }) (n := n)
    (fun u => ⟨rfl, rfl⟩) ?_ rfl rfl rfl
  simp [HookingWorld.afterTurn, HookingWorld.modify, ht]

/-- The tail of the queue, when the actor takes a command that changes no task and no token. -/
lemma TokenInv.tail {cmd : Command} {rest : List Command} (h : TokenInv removed w)
    (hq : w.queue = cmd :: rest) (htasks : w'.tasks = w.tasks)
    (hcancels : w'.actor.arcCancels = w.actor.arcCancels) (hqueue : w'.queue = rest)
    (hspawned : w'.spawned = w.spawned) : TokenInv removed w' := by
  refine ⟨?_, ?_, ?_, ?_, ?_, ?_, ?_⟩
  · rw [htasks]
    exact h.single
  · rw [htasks, hcancels]
    exact h.registered
  · rw [htasks, hcancels]
    exact h.tokened
  · rw [htasks, hqueue]
    intro m u hu hcancel
    obtain ⟨hrem, hmem⟩ := h.gone m u hu hcancel
    refine ⟨hrem, fun hin => hmem ?_⟩
    rw [hq]
    exact List.mem_cons_of_mem _ hin
  · rw [hqueue]
    have := h.ordered
    rw [hq] at this
    exact this.of_cons
  · rw [hqueue]
    intro arc hin
    refine h.asked arc ?_
    rw [hq]
    exact List.mem_cons_of_mem _ hin
  · rw [htasks, hspawned]
    exact h.fresh

lemma TokenInv.addArc {arc : ArcId} {rest : List Command} {a : Actor} (h : TokenInv removed w)
    (hq : w.queue = .addArc arc :: rest) (hadd : w.actor.handleAddArc w.spawned arc = .ok a) :
    TokenInv removed { ({ w with queue := rest } : HookingWorld).spawn arc with actor := a } := by
  obtain ⟨hcontains, rfl⟩ := HookingWorld.handleAddArc_ok hadd
  have hnone : w.actor.arcCancels.get? arc = none := by
    simpa [KeyedMap.contains] using hcontains
  -- A task of this arc would have its token, or would have been cancelled.
  have hno : ∀ n t, w.tasks n = some t → t.arc ≠ arc := by
    rintro n t ht rfl
    cases hcancel : t.cancelled with
    | false => cases hnone.symm.trans (h.tokened n t ht hcancel)
    | true => exact (h.gone n t ht hcancel).2 (by simp [hq])
  have hback : ∀ m u, Function.update w.tasks w.spawned
      (some ⟨arc, false, .starting, none⟩) m = some u →
      m = w.spawned ∧ u.arc = arc ∧ u.cancelled = false ∨ m ≠ w.spawned ∧ w.tasks m = some u := by
    intro m u hu
    by_cases hm : m = w.spawned
    · subst hm
      rw [Function.update_self] at hu
      cases hu
      exact Or.inl ⟨rfl, rfl, rfl⟩
    · rw [Function.update_of_ne hm] at hu
      exact Or.inr ⟨hm, hu⟩
  have htail : TokenInv removed { w with queue := rest } := h.tail hq rfl rfl rfl rfl
  refine ⟨?_, ?_, ?_, ?_, htail.ordered, htail.asked, ?_⟩
  · intro m k u v hu hv harc
    rcases hback m u hu with ⟨rfl, hua, -⟩ | ⟨-, hu⟩ <;>
      rcases hback k v hv with ⟨rfl, hva, -⟩ | ⟨-, hv⟩
    · rfl
    · exact absurd (harc.symm.trans hua) (hno k v hv)
    · exact absurd (harc.trans hva) (hno m u hu)
    · exact h.single m k u v hu hv harc
  · intro arc' m hget
    by_cases harc : arc' = arc
    · subst harc
      rw [KeyedMap.get?_insert_self] at hget
      cases hget
      exact ⟨⟨arc', false, .starting, none⟩, by simp [HookingWorld.spawn], rfl, rfl⟩
    · rw [KeyedMap.get?_insert_of_ne _ _ harc] at hget
      obtain ⟨u, hu, hua, hcancel⟩ := h.registered arc' m hget
      have hm : m ≠ w.spawned := by
        rintro rfl
        cases (h.fresh _ le_rfl).symm.trans hu
      exact ⟨u, by simpa [HookingWorld.spawn, Function.update_of_ne hm] using hu, hua, hcancel⟩
  · intro m u hu hcancel
    rcases hback m u hu with ⟨rfl, hua, -⟩ | ⟨-, hu⟩
    · rw [hua]
      exact KeyedMap.get?_insert_self ..
    · rw [KeyedMap.get?_insert_of_ne _ _ (hno m u hu)]
      exact h.tokened m u hu hcancel
  · intro m u hu hcancel
    rcases hback m u hu with ⟨-, -, hfalse⟩ | ⟨-, hu⟩
    · cases hfalse.symm.trans hcancel
    · exact htail.gone m u hu hcancel
  · intro m hm
    simp only [HookingWorld.spawn] at hm ⊢
    rw [Function.update_of_ne (by omega)]
    exact h.fresh m (by omega)

lemma TokenInv.removeArc {arc : ArcId} {rest : List Command} {a : Actor} {k : ℕ}
    (h : TokenInv removed w) (hq : w.queue = .removeArc arc :: rest)
    (hrem : w.actor.handleRemoveArc arc = .ok (a, some k)) :
    TokenInv removed
      { ({ w with queue := rest } : HookingWorld).modify k
          fun t => { t with cancelled := true } with actor := a } := by
  obtain ⟨-, hcancels, htoken⟩ := HookingWorld.handleRemoveArc_ok hrem
  obtain ⟨t, ht, rfl, hfalse⟩ := h.registered arc k htoken.symm
  have hback : ∀ m u, Function.update w.tasks k (some { t with cancelled := true }) m = some u →
      m = k ∧ u = { t with cancelled := true } ∨ m ≠ k ∧ w.tasks m = some u := by
    intro m u hu
    by_cases hm : m = k
    · subst hm
      rw [Function.update_self] at hu
      cases hu
      exact Or.inl ⟨rfl, rfl⟩
    · rw [Function.update_of_ne hm] at hu
      exact Or.inr ⟨hm, hu⟩
  have htasks : (({ w with queue := rest } : HookingWorld).modify k
      fun t => { t with cancelled := true }).tasks =
      Function.update w.tasks k (some { t with cancelled := true }) :=
    HookingWorld.tasks_modify ht
  have htail : TokenInv removed { w with queue := rest } := h.tail hq rfl rfl rfl rfl
  have hother : ∀ m u, m ≠ k → w.tasks m = some u → u.arc ≠ t.arc := by
    intro m u hm hu harc
    exact hm (h.single m k u t hu ht harc)
  refine ⟨?_, ?_, ?_, ?_, htail.ordered, htail.asked, ?_⟩ <;> simp only [htasks, hcancels]
  · intro m j u v hu hv harc
    rcases hback m u hu with ⟨rfl, rfl⟩ | ⟨-, hu₁⟩ <;>
      rcases hback j v hv with ⟨rfl, rfl⟩ | ⟨-, hv₁⟩
    · rfl
    · exact h.single m j t v ht hv₁ harc
    · exact h.single m j u t hu₁ ht harc
    · exact h.single m j u v hu₁ hv₁ harc
  · intro arc m hget
    have harc : arc ≠ t.arc := by
      rintro rfl
      rw [KeyedMap.get?_erase_self] at hget
      cases hget
    rw [KeyedMap.get?_erase_of_ne _ harc] at hget
    obtain ⟨u, hu, hua, hcancel⟩ := h.registered arc m hget
    have hm : m ≠ k := by
      rintro rfl
      obtain rfl : t = u := Option.some.inj (ht.symm.trans hu)
      exact harc hua.symm
    exact ⟨u, by rw [Function.update_of_ne hm]; exact hu, hua, hcancel⟩
  · intro m u hu hcancel
    rcases hback m u hu with ⟨rfl, rfl⟩ | ⟨hm, hu⟩
    · cases hcancel
    · rw [KeyedMap.get?_erase_of_ne _ (hother m u hm hu)]
      exact h.tokened m u hu hcancel
  · intro m u hu hcancel
    rcases hback m u hu with ⟨rfl, rfl⟩ | ⟨-, hu⟩
    · refine ⟨h.asked t.arc (by simp [hq]), fun hmem => ?_⟩
      have hord := h.ordered
      rw [hq, List.pairwise_cons] at hord
      exact hord.1 _ hmem t.arc rfl rfl
    · exact htail.gone m u hu hcancel
  · intro m hm
    rw [Function.update_of_ne]
    · exact h.fresh m hm
    · rintro rfl
      cases (h.fresh m hm).symm.trans ht

lemma TokenInv.join (h : TokenInv removed w) (ht : w.tasks n = some t) :
    TokenInv removed { w with
      tasks := Function.update w.tasks n none,
      actor := { w.actor with arcCancels := w.actor.arcCancels.erase t.arc } } := by
  have hback : ∀ m u, Function.update w.tasks n none m = some u → m ≠ n ∧ w.tasks m = some u := by
    intro m u hu
    by_cases hm : m = n
    · subst hm
      rw [Function.update_self] at hu
      cases hu
    · rw [Function.update_of_ne hm] at hu
      exact ⟨hm, hu⟩
  refine ⟨?_, ?_, ?_, ?_, h.ordered, h.asked, ?_⟩
  · intro m k u v hu hv harc
    exact h.single m k u v (hback m u hu).2 (hback k v hv).2 harc
  · intro arc m hget
    have harc : arc ≠ t.arc := by
      rintro rfl
      rw [KeyedMap.get?_erase_self] at hget
      cases hget
    rw [KeyedMap.get?_erase_of_ne _ harc] at hget
    obtain ⟨u, hu, hua, hcancel⟩ := h.registered arc m hget
    have hm : m ≠ n := by
      rintro rfl
      obtain rfl : t = u := Option.some.inj (ht.symm.trans hu)
      exact harc hua.symm
    exact ⟨u, by simpa [Function.update_of_ne hm] using hu, hua, hcancel⟩
  · intro m u hu hcancel
    obtain ⟨hm, hu⟩ := hback m u hu
    have harc : u.arc ≠ t.arc := fun heq => hm (h.single m n u t hu ht heq)
    rw [KeyedMap.get?_erase_of_ne _ harc]
    exact h.tokened m u hu hcancel
  · intro m u hu hcancel
    exact h.gone m u (hback m u hu).2 hcancel
  · intro m hm
    have hmn : m ≠ n := by
      rintro rfl
      cases (h.fresh m hm).symm.trans ht
    simp only [Function.update_of_ne hmn]
    exact h.fresh m hm

/-- A command that the actor takes. -/
lemma TokenInv.handle {cmd : Command} {rest : List Command} (h : TokenInv removed w)
    (hq : w.queue = cmd :: rest) :
    TokenInv removed ({ w with queue := rest }.handleCommand cmd) := by
  cases cmd with
  | addArc arc =>
      simp only [HookingWorld.handleCommand]
      cases hadd : w.actor.handleAddArc w.spawned arc with
      | error e => exact h.tail hq rfl rfl rfl rfl
      | ok a => exact h.addArc hq hadd
  | removeArc arc =>
      simp only [HookingWorld.handleCommand]
      cases hrem : w.actor.handleRemoveArc arc with
      | error e => exact h.tail hq rfl rfl rfl rfl
      | ok r =>
          obtain ⟨a, token⟩ := r
          cases token with
          | some k => exact h.removeArc hq hrem
          | none =>
              obtain ⟨-, hcancels, hnone⟩ := HookingWorld.handleRemoveArc_ok hrem
              rw [HookingWorld.erase_of_get?_none hnone.symm] at hcancels
              exact h.tail hq rfl hcancels rfl rfl
  | tryBeginCommit k =>
      have htail : TokenInv removed { w with queue := rest } := h.tail hq rfl rfl rfl rfl
      exact htail.modify (f := fun u => { u with answer := some !w.actor.committing }) (n := k)
        (fun u => ⟨rfl, rfl⟩) rfl rfl rfl rfl
  | setArcPhase arc p => exact h.tail hq rfl rfl rfl rfl
  | markEntered arc askLvl entryData =>
      exact h.tail hq rfl (HookingWorld.markEntered_eq w.actor arc askLvl entryData).2 rfl rfl
  | endCommit => exact h.tail hq rfl rfl rfl rfl

lemma TokenInv.mono {removed' : Set ArcId} (h : TokenInv removed w) (hsub : removed ⊆ removed') :
    TokenInv removed' w :=
  ⟨h.single, h.registered, h.tokened,
    fun m u hu hcancel => ⟨hsub (h.gone m u hu hcancel).1, (h.gone m u hu hcancel).2⟩,
    h.ordered, fun arc hmem => hsub (h.asked arc hmem), h.fresh⟩

/-- A request of the daemon, to add an arc it has not asked to remove or to remove one. -/
lemma TokenInv.request {cmd : Command} (h : TokenInv removed w)
    (hadd : ∀ arc, cmd = .addArc arc → arc ∉ removed)
    (hrem : ∀ arc, cmd = .removeArc arc → arc ∈ removed) :
    TokenInv removed { w with queue := w.queue ++ [cmd] } := by
  refine ⟨h.single, h.registered, h.tokened, ?_, ?_, ?_, h.fresh⟩
  · intro m u hu hcancel
    obtain ⟨hgone, hqueue⟩ := h.gone m u hu hcancel
    refine ⟨hgone, fun hmem => ?_⟩
    rcases List.mem_append.mp hmem with hold | hnew
    · exact hqueue hold
    · exact hadd u.arc (List.mem_singleton.mp hnew).symm hgone
  · refine List.pairwise_append.mpr ⟨h.ordered, List.pairwise_singleton _ _, ?_⟩
    rintro c hc d hd arc rfl rfl
    exact hadd arc (List.mem_singleton.mp hd).symm (h.asked arc hc)
  · intro arc hmem
    rcases List.mem_append.mp hmem with hold | hnew
    · exact h.asked arc hold
    · exact hrem arc (List.mem_singleton.mp hnew).symm

lemma token_init : TokenInv ∅ (HookingWorld.init origin topology networkId) := by
  refine ⟨?_, ?_, ?_, ?_, List.Pairwise.nil, ?_, fun _ _ => rfl⟩ <;>
    simp [HookingWorld.init, Actor.init]

lemma TokenInv.next {act : HookingAction} (h : TokenInv removed w) (htidy : w.Tidy)
    (hadd : ∀ arc, act = .addArc arc → arc ∉ removed) (hnext : w.next act = some w') :
    (w'.stopped = true ∧ ∀ n, w'.tasks n = none) ∨
      TokenInv (removed ∪ {arc | act = .removeArc arc}) w' := by
  have hmono : TokenInv (removed ∪ {arc | act = .removeArc arc}) w :=
    h.mono Set.subset_union_left
  obtain ⟨-, hact⟩ := Option.ite_none_left_eq_some.mp hnext
  cases act with
  | addArc arc =>
      cases hact
      refine Or.inr (hmono.request ?_ nofun)
      intro arc' heq
      cases heq
      simpa using hadd arc rfl
  | removeArc arc =>
      cases hact
      refine Or.inr (hmono.request nofun ?_)
      intro arc' heq
      cases heq
      exact Or.inr rfl
  | handle =>
      cases hq : w.queue with
      | nil => simp [HookingWorld.perform, hq] at hact
      | cons cmd rest =>
          simp only [HookingWorld.perform, hq, Option.ite_none_left_eq_some,
            Option.some.injEq] at hact
          obtain ⟨-, rfl⟩ := hact
          exact Or.inr (hmono.handle hq)
  | join n =>
      cases ht : w.tasks n with
      | none => simp [HookingWorld.perform, ht] at hact
      | some t =>
          simp only [HookingWorld.perform, ht, Option.ite_none_right_eq_some,
            Option.some.injEq] at hact
          obtain ⟨-, rfl⟩ := hact
          exact Or.inr (hmono.join ht)
  | turn n s wake =>
      obtain ⟨t, ht, hturn⟩ := Option.bind_eq_some_iff.mp hact
      obtain ⟨r, hr, rfl, -, -⟩ := HookingWorld.turn_spec htidy ht hturn
      exact Or.inr (hmono.afterTurn ht (handler_turn hr))
  | cancel =>
      cases hact
      exact Or.inr ⟨hmono.single, hmono.registered, hmono.tokened, hmono.gone, hmono.ordered,
        hmono.asked, hmono.fresh⟩
  | shutdown =>
      simp only [HookingWorld.perform, Option.ite_none_right_eq_some, Option.some.injEq] at hact
      obtain ⟨-, rfl⟩ := hact
      exact Or.inl ⟨rfl, fun _ => rfl⟩

lemma token_of_run (h : DaemonRun (HookingWorld.init origin topology networkId) removed w) :
    (w.stopped = true ∧ ∀ n, w.tasks n = none) ∨ TokenInv removed w := by
  induction h with
  | refl => exact Or.inr token_init
  | @step removed w w' act hrun hadd hnext ih =>
      rcases ih with ⟨hstopped, -⟩ | htoken
      · simp [HookingWorld.next, hstopped] at hnext
      · rcases slot_of_reach hrun.reach with ⟨hstopped, -⟩ | ⟨-, htidy⟩
        · simp [HookingWorld.next, hstopped] at hnext
        · exact htoken.next htidy hadd hnext

/-- As long as the daemon adds no arc again that it has removed, an arc has one handler at most, the
actor has the token of every handler it has not cancelled, and every token is of such a handler. -/
theorem handler_unique
    (h : DaemonRun (HookingWorld.init origin topology networkId) removed w) :
    (∀ n m t u, w.tasks n = some t → w.tasks m = some u → t.arc = u.arc → n = m) ∧
    (w.stopped = false →
      (∀ n t, w.tasks n = some t → t.cancelled = false →
        w.actor.arcCancels.get? t.arc = some n) ∧
      ∀ arc n, w.actor.arcCancels.get? arc = some n →
        ∃ t, w.tasks n = some t ∧ t.arc = arc ∧ t.cancelled = false) := by
  rcases token_of_run h with ⟨hstopped, htasks⟩ | htoken
  · refine ⟨?_, fun hrun => absurd (hstopped.symm.trans hrun) nofun⟩
    intro n m t u ht
    cases (htasks n).symm.trans ht
  · exact ⟨htoken.single, fun _ => ⟨htoken.tokened, htoken.registered⟩⟩

end Token

lemma daemonRun_run {w₀ w w' : HookingWorld} {removed : Set ArcId} {acts : List HookingAction}
    (h : DaemonRun w₀ removed w) (hadd : ∀ arc ∈ removed, HookingAction.addArc arc ∉ acts)
    (hord : acts.Pairwise fun a b => ∀ arc, a = .removeArc arc → b ≠ .addArc arc)
    (hrun : w.run acts = some w') :
    DaemonRun w₀ (removed ∪ {arc | HookingAction.removeArc arc ∈ acts}) w' := by
  induction acts generalizing w removed with
  | nil =>
      cases hrun
      simpa using h
  | cons act acts ih =>
      obtain ⟨v, hv, hrest⟩ := Option.bind_eq_some_iff.mp hrun
      obtain ⟨hhead, htail⟩ := List.pairwise_cons.mp hord
      have hstep := DaemonRun.step h
        (fun arc heq hmem => hadd arc hmem (by simp [heq])) hv
      have hall := ih hstep ?_ htail hrest
      · convert hall using 1
        ext arc
        simp [eq_comm, or_assoc]
      · rintro arc (hmem | heq) hin
        · exact hadd arc hmem (List.mem_cons_of_mem _ hin)
        · exact hhead _ hin arc heq rfl

/-- One of the arcs is removed while its handler waits, and a third one is added. -/
def threeArcsActions : List HookingAction :=
  twoArcsActions ++ [.removeArc ⟨1⟩, .addArc ⟨2⟩, .handle, .handle, .handle, .handle]

/-- The world then. -/
def threeArcsEnd : HookingWorld := (twoArcs.run threeArcsActions).getD twoArcs

theorem handler_unique_three :
    (∃ t, threeArcsEnd.tasks 1 = some t ∧ t.cancelled = true) ∧
    (∃ t, threeArcsEnd.tasks 2 = some t ∧ t.arc = ⟨2⟩) ∧
    ∀ arc n, threeArcsEnd.actor.arcCancels.get? arc = some n →
      ∃ t, threeArcsEnd.tasks n = some t ∧ t.arc = arc ∧ t.cancelled = false := by
  have hrun : twoArcs.run threeArcsActions = some threeArcsEnd := rfl
  have hdaemon := daemonRun_run DaemonRun.refl (by simp)
    (by simp [threeArcsActions, twoArcsActions]) hrun
  exact ⟨⟨_, rfl, rfl⟩, ⟨_, rfl, rfl⟩, ((handler_unique hdaemon).2 rfl).2⟩

/-- An arc that is added, removed, and added again twice before its first handler is joined. -/
def readdedActions : List HookingAction :=
  [.addArc ⟨0⟩, .handle, .removeArc ⟨0⟩, .handle, .addArc ⟨0⟩, .handle,
    .turn 0 soleSight .polled, .join 0, .addArc ⟨0⟩, .handle]

/-- Without that promise of the daemon two handlers run on one arc, and neither is cancelled: the
first one, when it is joined, takes the second one's token with it. -/
theorem not_handler_unique : ∃ w, HookingWorld.Reach twoArcs w ∧
    ∃ t u, w.tasks 1 = some t ∧ w.tasks 2 = some u ∧ t.arc = u.arc ∧
      t.cancelled = false ∧ u.cancelled = false ∧ t.stage ≠ .over ∧ u.stage ≠ .over := by
  have hrun : twoArcs.run readdedActions =
      some ((twoArcs.run readdedActions).getD twoArcs) := rfl
  exact ⟨_, HookingWorld.reach_run .refl hrun, _, _, rfl, rfl, rfl, rfl, rfl, nofun, nofun⟩

end Netsukuku.Hooking
