import Mathlib
import Netsukuku.Core.KeyedMap
import Netsukuku.Common.Address

/-!
# Who enters first

When several members of a g-node want to lead it into other networks, the coordinator elects one.
The election of a level is kept twice: in the arbiter of the process that decided, and in the
hooking memory, the record that the servants replicate.  A copy of the record goes to the servants
nearest to its key, the first of which is as a rule the one that sends it, so that it comes back.

* `ArbiterState.decide` — the answer to one `evaluate_enter`.
* `ArbiterState.release`, `ArbiterState.complete` — the elected candidate gave up, or succeeded.
* `ArbiterState.applyReplica` — a copy comes back.
* `slot_kept` — what a call leaves of an election.
* `elected_once` — how long no second candidate for the same network is accepted.

Times are nanoseconds of one clock; the replicated record has whole milliseconds of it.
-/

namespace Netsukuku.Hooking

/-! ## The replicated record -/

/-- `codec::ElectionRecord`. -/
structure ElectionRecord where
  networkId : Int64
  evaluateEnterId : Int32
  grantedAtMillis : ℕ
  completedAtMillis : Option ℕ
  deriving DecidableEq, Repr

/-- `codec::HookingMemory`: the merge verdicts by neighbour network, each with the time it was
reached, and the elections by level. -/
structure HookingMemory where
  mergeDecisions : KeyedMap Int64 (Bool × ℕ)
  elections : KeyedMap ℕ ElectionRecord

/-- `HookingMemory::default`. -/
def HookingMemory.default : HookingMemory := ⟨KeyedMap.empty, KeyedMap.empty⟩

/-- The memory with another election at `level`. -/
def HookingMemory.elect (mem : HookingMemory) (level : ℕ) (e : ElectionRecord) : HookingMemory :=
  { mem with elections := mem.elections.insert level e }

/-- Both have the same elections. -/
def HookingMemory.Agrees (mem mem' : HookingMemory) : Prop :=
  ∀ level, mem.elections.get? level = mem'.elections.get? level

/-- `codec::now_millis`. -/
def nowMillis (now : ℕ) : ℕ := now / 1000000

/-- `ELECTED_TTL`. -/
def electedTtl : ℕ := 60000 * 1000000

/-- `ELECTED_TTL.as_millis()`. -/
def electedTtlMillis : ℕ := electedTtl / 1000000

/-! ## The arbiter -/

/-- One level's currently granted election. -/
structure Election where
  networkId : Int64
  evaluateEnterId : Int32
  grantedAt : ℕ
  completedAt : Option ℕ
  deriving DecidableEq, Repr

/-- `codec::EvaluateEnterAnswer`. -/
inductive EvaluateEnterAnswer where
  | accepted (chosenLvl : ℕ)
  | askAgain
  | ignoreNetwork
  deriving DecidableEq, Repr

/-- An election that no longer stands in the way of an ask for `networkId`: its time is over, or
its candidate succeeded and the ask is for another network. -/
def Election.freeFor (e : Election) (now : ℕ) (networkId : Int64) : Bool :=
  decide (electedTtl ≤ now - e.grantedAt) ||
    (e.completedAt.isSome && decide (e.networkId ≠ networkId))

/-- The same of the replicated record. -/
def ElectionRecord.freeFor (e : ElectionRecord) (nowMs : ℕ) (networkId : Int64) : Bool :=
  decide (electedTtlMillis ≤ nowMs - e.grantedAtMillis) ||
    (e.completedAtMillis.isSome && decide (e.networkId ≠ networkId))

/-- The answer to `(networkId, evaluateEnterId)` while another election is standing. -/
def answerBeside (level : ℕ) (heldNetwork : Int64) (heldId : Int32) (networkId : Int64)
    (evaluateEnterId : Int32) : EvaluateEnterAnswer :=
  if heldNetwork ≠ networkId then .askAgain
  else if heldId = evaluateEnterId then .accepted level
  else .ignoreNetwork

/-- `EnterArbiter`, the levels without an election left out, together with the hooking memory of
the coordinator it is with, and the copies of it that were sent to replicas. -/
structure ArbiterState where
  elected : KeyedMap ℕ Election
  memory : Option HookingMemory
  sent : List (Option HookingMemory)

/-- The readings of the clock during one `decide`: when the local election is looked at, when the
replicated record is, and when a new election is noted. -/
structure Readings where
  asked : ℕ
  read : ℕ
  granted : ℕ
  deriving DecidableEq, Repr

namespace ArbiterState

/-- The state with another local election at `level`. -/
def elect (s : ArbiterState) (level : ℕ) (e : Election) : ArbiterState :=
  { s with elected := s.elected.insert level e }

/-- `EnterArbiter::new` beside a hooking memory. -/
def new (memory : Option HookingMemory) : ArbiterState := ⟨KeyedMap.empty, memory, []⟩

/-- `spawn_replicate`: the memory is packed as it is now. -/
def replicate (s : ArbiterState) : ArbiterState := { s with sent := s.memory :: s.sent }

/-- `apply_replica`: a copy that was packed earlier replaces the memory. -/
def applyReplica (s : ArbiterState) (copy : Option HookingMemory) : ArbiterState :=
  { s with memory := copy }

/-- `set_hooking_memory_locally`. -/
def setHookingMemory (s : ArbiterState) (data : Option HookingMemory) : ArbiterState :=
  { s with memory := data }.replicate

/-- What a call writes, when there is something to write. -/
def write (s : ArbiterState) (mem : Option HookingMemory) : ArbiterState :=
  match mem with
  | some mem => s.setHookingMemory (some mem)
  | none => s

/-- What `hooking_memory_locally` reads, decoded. -/
def hookingMemory (s : ArbiterState) : HookingMemory := s.memory.getD HookingMemory.default

/-- What is in `data` has the elections that the memory has. -/
def SameElections (s : ArbiterState) (data : Option HookingMemory) : Prop :=
  (data.getD HookingMemory.default).Agrees s.hookingMemory

/-- A local election that is free for `networkId` is forgotten. -/
def clearFree (s : ArbiterState) (now level : ℕ) (networkId : Int64) : ArbiterState :=
  match s.elected.get? level with
  | some e => if e.freeFor now networkId then { s with elected := s.elected.erase level } else s
  | none => s

/-- The replicated election of `level`, if it is not free for `networkId`. -/
def sharedElection (mem : HookingMemory) (nowMs level : ℕ) (networkId : Int64) :
    Option ElectionRecord :=
  (mem.elections.get? level).filter fun e => !e.freeFor nowMs networkId

/-- `EnterArbiter::decide` up to its reading of the memory: the local election answers if there is
one, else the replicated one does; without an answer the candidate is to be elected. -/
def ask (s : ArbiterState) (r : Readings) (level : ℕ) (networkId : Int64)
    (evaluateEnterId : Int32) : ArbiterState × Option EvaluateEnterAnswer :=
  let s := s.clearFree r.asked level networkId
  match s.elected.get? level with
  | some e => (s, some (answerBeside level e.networkId e.evaluateEnterId networkId evaluateEnterId))
  | none =>
      match sharedElection s.hookingMemory (nowMillis r.read) level networkId with
      | some e =>
          let answer := answerBeside level e.networkId e.evaluateEnterId networkId evaluateEnterId
          (if answer = .accepted level then
            s.elect level ⟨networkId, evaluateEnterId, r.granted, none⟩ else s, some answer)
      | none => (s, none)

/-- The rest of `decide`: the candidate is elected, in the memory as it was read and locally. -/
def grant (s : ArbiterState) (mem : HookingMemory) (r : Readings) (level : ℕ) (networkId : Int64)
    (evaluateEnterId : Int32) : ArbiterState :=
  (s.write (some (mem.elect level ⟨networkId, evaluateEnterId, nowMillis r.read, none⟩))).elect level
    ⟨networkId, evaluateEnterId, r.granted, none⟩

/-- `EnterArbiter::decide`. -/
def decide (s : ArbiterState) (r : Readings) (level : ℕ) (networkId : Int64)
    (evaluateEnterId : Int32) : ArbiterState × EvaluateEnterAnswer :=
  match s.ask r level networkId evaluateEnterId with
  | (s', some answer) => (s', answer)
  | (s', none) => (s'.grant s'.hookingMemory r level networkId evaluateEnterId, .accepted level)

/-- `release`, on the local election. -/
def releaseLocal (s : ArbiterState) (level : ℕ) : ArbiterState :=
  { s with elected := s.elected.erase level }

/-- `release`, on the memory read; `none` if there is nothing to write. -/
def releasedMemory (memory : Option HookingMemory) (level : ℕ) : Option HookingMemory :=
  memory.bind fun mem =>
    if mem.elections.contains level then some { mem with elections := mem.elections.erase level }
    else none

/-- `complete`, on the local election. -/
def completeLocal (s : ArbiterState) (now level : ℕ) : ArbiterState :=
  match s.elected.get? level with
  | some e => s.elect level { e with completedAt := some (e.completedAt.getD now) }
  | none => s

/-- `complete`, on the memory read; `none` if there is nothing to write. -/
def completedMemory (memory : Option HookingMemory) (nowMs level : ℕ) : Option HookingMemory :=
  memory.bind fun mem => (mem.elections.get? level).bind fun e =>
    if e.completedAtMillis = none then
      some (mem.elect level { e with completedAtMillis := some nowMs })
    else none

/-- `EnterArbiter::release`. -/
def release (s : ArbiterState) (level : ℕ) : ArbiterState :=
  (s.releaseLocal level).write (releasedMemory s.memory level)

/-- `EnterArbiter::complete`. -/
def complete (s : ArbiterState) (now wall level : ℕ) : ArbiterState :=
  (s.completeLocal now level).write (completedMemory s.memory (nowMillis wall) level)

end ArbiterState

/-! ## What a call leaves of an election -/

/-- A call of the arbiter, with the readings of the clock it makes. -/
inductive ArbiterCall where
  | decide (r : Readings) (level : ℕ) (networkId : Int64) (evaluateEnterId : Int32)
  | complete (now wall level : ℕ)
  | release (now level : ℕ)
  deriving DecidableEq, Repr

/-- The times at which a call starts and is over. -/
def ArbiterCall.span : ArbiterCall → ℕ × ℕ
  | .decide r _ _ _ => (r.asked, r.granted)
  | .complete now wall _ => (now, wall)
  | .release now _ => (now, now)

/-- The state after a call. -/
def ArbiterState.exec (s : ArbiterState) : ArbiterCall → ArbiterState
  | .decide r level networkId evaluateEnterId => (s.decide r level networkId evaluateEnterId).1
  | .complete now wall level => s.complete now wall level
  | .release _ level => s.release level

/-- The calls follow one another on a clock that does not go back. -/
def Chronological : ℕ → List ArbiterCall → Prop
  | _, [] => True
  | now, c :: cs => now ≤ c.span.1 ∧ c.span.1 ≤ c.span.2 ∧ Chronological c.span.2 cs

lemma Chronological.of_append {now : ℕ} {calls calls' : List ArbiterCall}
    (h : Chronological now (calls ++ calls')) : Chronological now calls := by
  induction calls generalizing now with
  | nil => trivial
  | cons c cs ih => exact ⟨h.1, h.2.1, ih h.2.2⟩

section Slot

variable {s : ArbiterState} {level level' now wall : ℕ} {networkId networkId' : Int64}
  {id id' : Int32} {e : Election} {r : Readings}

lemma elect_get? : (s.elect level e).elected.get? level = some e :=
  KeyedMap.get?_insert_self _ _ _

lemma elect_get?_of_ne (h : level' ≠ level) :
    (s.elect level e).elected.get? level' = s.elected.get? level' :=
  KeyedMap.get?_insert_of_ne _ _ h

@[simp] lemma write_elected (mem : Option HookingMemory) : (s.write mem).elected = s.elected := by
  cases mem <;> rfl

lemma answerBeside_accepted {heldNetwork : Int64} {heldId : Int32} {lvl : ℕ}
    (h : answerBeside level heldNetwork heldId networkId id = .accepted lvl) :
    heldNetwork = networkId ∧ heldId = id := by
  unfold answerBeside at h
  split_ifs at h with hnet hid
  exact ⟨not_not.mp hnet, hid⟩

lemma clearFree_get?_of_ne (h : level' ≠ level) :
    (s.clearFree now level networkId).elected.get? level' = s.elected.get? level' := by
  unfold ArbiterState.clearFree
  split
  · split_ifs
    · exact KeyedMap.get?_erase_of_ne _ h
    · rfl
  · rfl

/-- What is left at the level asked about. -/
lemma clearFree_get? : (s.clearFree now level networkId).elected.get? level =
    (s.elected.get? level).filter fun e => !e.freeFor now networkId := by
  unfold ArbiterState.clearFree
  cases hslot : s.elected.get? level with
  | none => simp [hslot]
  | some e =>
      by_cases hfree : e.freeFor now networkId = true
      · simp [hfree, Option.filter]
      · simp [hfree, hslot, Option.filter]

lemma clearFree_hookingMemory :
    (s.clearFree now level networkId).hookingMemory = s.hookingMemory := by
  unfold ArbiterState.clearFree
  split
  · split_ifs <;> rfl
  · rfl

lemma ask_get?_of_ne (h : level' ≠ level) :
    (s.ask r level networkId id).1.elected.get? level' = s.elected.get? level' := by
  unfold ArbiterState.ask
  simp only
  split
  · exact clearFree_get?_of_ne h
  · split
    · split_ifs
      · exact (elect_get?_of_ne h).trans (clearFree_get?_of_ne h)
      · exact clearFree_get?_of_ne h
    · exact clearFree_get?_of_ne h

lemma decide_get?_of_ne (h : level' ≠ level) :
    (s.decide r level networkId id).1.elected.get? level' = s.elected.get? level' := by
  have hask : (s.ask r level networkId id).1.elected.get? level' = s.elected.get? level' :=
    ask_get?_of_ne h
  unfold ArbiterState.decide
  split
  · rename_i s' answer heq
    rw [heq] at hask
    exact hask
  · rename_i s' heq
    rw [heq] at hask
    exact (elect_get?_of_ne h).trans hask

/-- An election that is not free answers, and stays as it is. -/
lemma ask_of_standing (hslot : s.elected.get? level = some e)
    (hfree : e.freeFor r.asked networkId = false) :
    s.ask r level networkId id =
      (s, some (answerBeside level e.networkId e.evaluateEnterId networkId id)) := by
  have hkept : s.clearFree r.asked level networkId = s := by
    simp [ArbiterState.clearFree, hslot, hfree]
  simp only [ArbiterState.ask, hkept, hslot]

lemma decide_of_standing (hslot : s.elected.get? level = some e)
    (hfree : e.freeFor r.asked networkId = false) :
    s.decide r level networkId id =
      (s, answerBeside level e.networkId e.evaluateEnterId networkId id) := by
  rw [ArbiterState.decide, ask_of_standing hslot hfree]

/-- A candidate accepted without a new election has the slot. -/
lemma ask_accepted {lvl : ℕ} (h : (s.ask r level networkId id).2 = some (.accepted lvl)) :
    ∃ e, (s.ask r level networkId id).1.elected.get? level = some e ∧
      e.networkId = networkId ∧ e.evaluateEnterId = id := by
  unfold ArbiterState.ask at h ⊢
  simp only at h ⊢
  split at h
  · rename_i e hslot
    obtain ⟨hnet, hid⟩ := answerBeside_accepted (Option.some.inj h)
    exact ⟨e, hslot, hnet, hid⟩
  · split at h
    · rename_i e hshared
      obtain ⟨hnet, hid⟩ := answerBeside_accepted (Option.some.inj h)
      simp only [hnet, hid, answerBeside, ne_eq, not_true_eq_false, if_false, if_true]
      exact ⟨_, elect_get?, rfl, rfl⟩
    · cases h

/-- An accepted candidate has the slot. -/
lemma decide_accepted {lvl : ℕ} (h : (s.decide r level networkId id).2 = .accepted lvl) :
    ∃ e, (s.decide r level networkId id).1.elected.get? level = some e ∧
      e.networkId = networkId ∧ e.evaluateEnterId = id := by
  unfold ArbiterState.decide at h ⊢
  split at h
  · rename_i s' answer heq
    simp only at h
    have hanswer : (s.ask r level networkId id).2 = some (.accepted lvl) := by rw [heq, h]
    have hask := ask_accepted hanswer
    rw [heq] at hask
    exact hask
  · exact ⟨_, elect_get?, rfl, rfl⟩

lemma complete_get?_of_ne (h : level' ≠ level) :
    (s.complete now wall level).elected.get? level' = s.elected.get? level' := by
  unfold ArbiterState.complete ArbiterState.completeLocal
  rw [write_elected]
  split
  · exact elect_get?_of_ne h
  · rfl

lemma complete_get? : (s.complete now wall level).elected.get? level =
    (s.elected.get? level).map fun e => { e with completedAt := some (e.completedAt.getD now) } := by
  unfold ArbiterState.complete ArbiterState.completeLocal
  rw [write_elected]
  cases hslot : s.elected.get? level with
  | none => simp [hslot]
  | some e => simpa using elect_get?

lemma release_get? : (s.release level).elected.get? level = none := by
  simp only [ArbiterState.release, write_elected]
  exact KeyedMap.get?_erase_self _ _

lemma write_hookingMemory (mem : Option HookingMemory) :
    (s.write mem).hookingMemory = mem.getD s.hookingMemory := by
  cases mem <;> rfl

lemma release_elections_get? : (s.release level).hookingMemory.elections.get? level = none := by
  rw [ArbiterState.release, write_hookingMemory]
  cases hmem : s.memory with
  | none => simp [ArbiterState.releasedMemory, ArbiterState.releaseLocal,
      ArbiterState.hookingMemory, hmem, HookingMemory.default]
  | some mem =>
      by_cases hin : mem.elections.contains level = true
      · simp [ArbiterState.releasedMemory, hin]
      · have hnone : mem.elections.get? level = none := by
          simpa [KeyedMap.contains] using hin
        simp [ArbiterState.releasedMemory, hin, ArbiterState.releaseLocal,
          ArbiterState.hookingMemory, hmem, hnone]

lemma completeLocal_memory : (s.completeLocal now level).memory = s.memory := by
  unfold ArbiterState.completeLocal
  split <;> rfl

lemma complete_elections_get? : (s.complete now wall level).hookingMemory.elections.get? level =
    (s.hookingMemory.elections.get? level).map fun e =>
      { e with completedAtMillis := some (e.completedAtMillis.getD (nowMillis wall)) } := by
  rw [ArbiterState.complete, write_hookingMemory]
  cases hmem : s.memory with
  | none => simp [ArbiterState.completedMemory, ArbiterState.hookingMemory, completeLocal_memory,
      hmem, HookingMemory.default]
  | some mem =>
      cases hslot : mem.elections.get? level with
      | none => simp [ArbiterState.completedMemory, ArbiterState.hookingMemory,
          completeLocal_memory, hmem, hslot]
      | some e =>
          cases hdone : e.completedAtMillis with
          | none => simp [ArbiterState.completedMemory, ArbiterState.hookingMemory, hmem, hslot,
              hdone, HookingMemory.elect]
          | some t =>
              have heta : e = { e with completedAtMillis := some t } := by rw [← hdone]
              simp [ArbiterState.completedMemory, ArbiterState.hookingMemory, completeLocal_memory,
                hmem, hslot, hdone, ← heta]

lemma release_elections_get?_of_ne (h : level' ≠ level) :
    (s.release level).hookingMemory.elections.get? level' =
      s.hookingMemory.elections.get? level' := by
  rw [ArbiterState.release, write_hookingMemory]
  cases hmem : s.memory with
  | none => simp [ArbiterState.releasedMemory, ArbiterState.releaseLocal,
      ArbiterState.hookingMemory, hmem]
  | some mem =>
      by_cases hin : mem.elections.contains level = true
      · simp [ArbiterState.releasedMemory, hin, ArbiterState.hookingMemory, hmem,
          KeyedMap.get?_erase_of_ne _ h]
      · simp [ArbiterState.releasedMemory, hin, ArbiterState.releaseLocal,
          ArbiterState.hookingMemory, hmem]

lemma complete_elections_get?_of_ne (h : level' ≠ level) :
    (s.complete now wall level).hookingMemory.elections.get? level' =
      s.hookingMemory.elections.get? level' := by
  rw [ArbiterState.complete, write_hookingMemory]
  have hlocal : (s.completeLocal now level).hookingMemory = s.hookingMemory := by
    rw [ArbiterState.hookingMemory, completeLocal_memory, ArbiterState.hookingMemory]
  rw [hlocal]
  cases hmem : s.memory with
  | none => rfl
  | some mem =>
      cases hslot : mem.elections.get? level with
      | none => simp [ArbiterState.completedMemory, hslot]
      | some e =>
          cases hdone : e.completedAtMillis with
          | none => simp [ArbiterState.completedMemory, hslot, hdone, HookingMemory.elect,
              ArbiterState.hookingMemory, hmem, KeyedMap.get?_insert_of_ne _ _ h]
          | some t => simp [ArbiterState.completedMemory, hslot, hdone]

lemma ask_hookingMemory : (s.ask r level networkId id).1.hookingMemory = s.hookingMemory := by
  unfold ArbiterState.ask
  simp only
  split
  · exact clearFree_hookingMemory
  · split
    · split_ifs
      · exact clearFree_hookingMemory
      · exact clearFree_hookingMemory
    · exact clearFree_hookingMemory

/-- A local election after an ask is one from before, or the candidate's own. -/
lemma ask_get?_cases (h : (s.ask r level networkId id).1.elected.get? level' = some e) :
    s.elected.get? level' = some e ∨
      level' = level ∧ e.networkId = networkId ∧ e.evaluateEnterId = id := by
  by_cases hlevel : level' = level
  · subst hlevel
    have hclear : ∀ e, (s.clearFree r.asked level' networkId).elected.get? level' = some e →
        s.elected.get? level' = some e := by
      intro e he
      rw [clearFree_get?] at he
      exact (Option.filter_eq_some_iff.mp he).1
    unfold ArbiterState.ask at h
    simp only at h
    split at h
    · exact Or.inl (hclear e h)
    · split at h
      · split_ifs at h
        · rw [elect_get?] at h
          cases h
          exact Or.inr ⟨rfl, rfl, rfl⟩
        · exact Or.inl (hclear e h)
      · exact Or.inl (hclear e h)
  · rw [ask_get?_of_ne hlevel] at h
    exact Or.inl h

/-- The same of a whole `decide`, in both copies. -/
lemma decide_get?_cases (h : (s.decide r level networkId id).1.elected.get? level' = some e) :
    s.elected.get? level' = some e ∨
      level' = level ∧ e.networkId = networkId ∧ e.evaluateEnterId = id := by
  unfold ArbiterState.decide at h
  split at h
  · rename_i s' answer heq
    exact ask_get?_cases (by rw [heq]; exact h)
  · rename_i s' heq
    by_cases hlevel : level' = level
    · subst hlevel
      rw [ArbiterState.grant, elect_get?] at h
      cases h
      exact Or.inr ⟨rfl, rfl, rfl⟩
    · rw [ArbiterState.grant, elect_get?_of_ne hlevel, write_elected] at h
      exact ask_get?_cases (by rw [heq]; exact h)

lemma decide_elections_get?_cases {rec : ElectionRecord}
    (h : (s.decide r level networkId id).1.hookingMemory.elections.get? level' = some rec) :
    s.hookingMemory.elections.get? level' = some rec ∨
      level' = level ∧ rec.networkId = networkId ∧ rec.evaluateEnterId = id := by
  have hask : (s.ask r level networkId id).1.hookingMemory = s.hookingMemory := ask_hookingMemory
  unfold ArbiterState.decide at h
  split at h
  · rename_i s' answer heq
    rw [heq] at hask
    rw [hask] at h
    exact Or.inl h
  · rename_i s' heq
    rw [heq] at hask
    by_cases hlevel : level' = level
    · subst hlevel
      have hslot : (s'.hookingMemory.elect level'
          ⟨networkId, id, nowMillis r.read, none⟩).elections.get? level' = some rec := h
      rw [HookingMemory.elect, KeyedMap.get?_insert_self] at hslot
      cases hslot
      exact Or.inr ⟨rfl, rfl, rfl⟩
    · have hslot : (s'.hookingMemory.elect level
          ⟨networkId, id, nowMillis r.read, none⟩).elections.get? level' = some rec := h
      rw [HookingMemory.elect, KeyedMap.get?_insert_of_ne _ _ hlevel, hask] at hslot
      exact Or.inl hslot

end Slot

/-- The slot of `level` holds the candidate `id` for `networkId`, elected at `grantedAt`. -/
def HoldsSlot (s : ArbiterState) (level : ℕ) (networkId : Int64) (id : Int32) (grantedAt : ℕ) :
    Prop :=
  ∃ completedAt, s.elected.get? level = some ⟨networkId, id, grantedAt, completedAt⟩

/-- A network asks at `level` while the slot holds a candidate for `networkId` who succeeded and
whose time is not over: the only slot is handed over. -/
def Supersedes (level : ℕ) (networkId : Int64) (s : ArbiterState) : ArbiterCall → Prop
  | .decide r level' networkId' _ => level' = level ∧ networkId' ≠ networkId ∧
      ∃ e, s.elected.get? level = some e ∧ e.networkId = networkId ∧ e.completedAt.isSome ∧
        r.asked - e.grantedAt < electedTtl
  | _ => False

/-- No call of the list releases `level`, and none supersedes `networkId` there. -/
def Undisturbed (level : ℕ) (networkId : Int64) : ArbiterState → List ArbiterCall → Prop
  | _, [] => True
  | s, c :: cs => (∀ now, c ≠ .release now level) ∧ ¬ Supersedes level networkId s c ∧
      Undisturbed level networkId (s.exec c) cs

/-- An undisturbed call leaves the candidate in the slot, unless the time is over. -/
lemma slot_kept {s : ArbiterState} {c : ArbiterCall} {level grantedAt : ℕ} {networkId : Int64}
    {id : Int32} (hslot : HoldsSlot s level networkId id grantedAt)
    (hrelease : ∀ now, c ≠ .release now level) (hkeep : ¬ Supersedes level networkId s c) :
    HoldsSlot (s.exec c) level networkId id grantedAt ∨ electedTtl ≤ c.span.1 - grantedAt := by
  obtain ⟨completedAt, hslot⟩ := hslot
  cases c with
  | release now level' =>
      have hne : level ≠ level' := fun h => hrelease now (h ▸ rfl)
      left
      refine ⟨completedAt, ?_⟩
      rw [← hslot]
      simp only [ArbiterState.exec, ArbiterState.release, write_elected]
      exact KeyedMap.get?_erase_of_ne _ hne
  | complete now wall level' =>
      left
      by_cases hlevel : level = level'
      · subst hlevel
        exact ⟨some (completedAt.getD now), by simp [ArbiterState.exec, complete_get?, hslot]⟩
      · exact ⟨completedAt, (complete_get?_of_ne hlevel).trans hslot⟩
  | decide r level' networkId' id' =>
      by_cases hlevel : level = level'
      · subst hlevel
        by_cases hover : electedTtl ≤ r.asked - grantedAt
        · exact Or.inr hover
        · left
          -- The election answers: it is in time, and not handed over.
          have hfree : (Election.mk networkId id grantedAt completedAt).freeFor r.asked networkId' =
              false := by
            by_contra hfree
            simp only [Election.freeFor, Bool.not_eq_false, Bool.or_eq_true, decide_eq_true_eq,
              Bool.and_eq_true] at hfree
            rcases hfree with hfree | ⟨hdone, hother⟩
            · exact hover hfree
            · exact hkeep ⟨rfl, fun h => hother h.symm, _, hslot, rfl, hdone, not_le.mp hover⟩
          exact ⟨completedAt, by rw [ArbiterState.exec, decide_of_standing hslot hfree, hslot]⟩
      · exact Or.inl ⟨completedAt, (decide_get?_of_ne hlevel).trans hslot⟩

/-- What `slot_kept` says along a run. -/
lemma slot_kept_run {level grantedAt : ℕ} {networkId : Int64} {id : Int32} :
    ∀ {calls : List ArbiterCall} {s : ArbiterState} {now : ℕ}, Chronological now calls →
      Undisturbed level networkId s calls →
      HoldsSlot s level networkId id grantedAt ∨ electedTtl ≤ now - grantedAt →
      HoldsSlot (calls.foldl ArbiterState.exec s) level networkId id grantedAt ∨
        ∃ t, electedTtl ≤ t - grantedAt ∧ ∀ c, Chronological now (calls ++ [c]) → t ≤ c.span.1
  | [], s, now, _, _, hslot => by
      rcases hslot with hslot | hover
      · exact Or.inl hslot
      · exact Or.inr ⟨now, hover, fun c hc => hc.1⟩
  | c :: cs, s, now, ⟨hnow, hspan, hcs⟩, ⟨hrelease, hkeep, hrest⟩, hslot => by
      have hnext : HoldsSlot (s.exec c) level networkId id grantedAt ∨
          electedTtl ≤ c.span.2 - grantedAt := by
        rcases hslot with hslot | hover
        · rcases slot_kept hslot hrelease hkeep with hslot | hover
          · exact Or.inl hslot
          · exact Or.inr (by omega)
        · exact Or.inr (by omega)
      rcases slot_kept_run hcs hrest hnext with hslot | ⟨t, hover, hlast⟩
      · exact Or.inl hslot
      · exact Or.inr ⟨t, hover, fun c' hc' => hlast c' hc'.2.2⟩

/-- **A network is not given a second candidate while the first one's time lasts.**  The candidate
accepted holds the slot from `grantedAt` on; if the level is not released and the slot is not
handed over to another network, a candidate with another id is accepted only when the time is
over. -/
theorem elected_once (s : ArbiterState) (r r' : Readings) (level : ℕ) (networkId : Int64)
    (id id' : Int32) (between : List ArbiterCall) (hid : id' ≠ id)
    (hfirst : (s.decide r level networkId id).2 = .accepted level)
    (hclock : Chronological r.granted (between ++ [.decide r' level networkId id']))
    (hrun : Undisturbed level networkId (s.decide r level networkId id).1 between)
    (hsecond : ((between.foldl ArbiterState.exec (s.decide r level networkId id).1).decide r'
      level networkId id').2 = .accepted level) :
    ∃ e, (s.decide r level networkId id).1.elected.get? level = some e ∧
      e.networkId = networkId ∧ e.evaluateEnterId = id ∧ e.grantedAt + electedTtl ≤ r'.asked := by
  obtain ⟨e, hslot, hnet, hheld⟩ := decide_accepted hfirst
  refine ⟨e, hslot, hnet, hheld, ?_⟩
  have hholds : HoldsSlot (s.decide r level networkId id).1 level networkId id e.grantedAt :=
    ⟨e.completedAt, by rw [hslot, ← hnet, ← hheld]⟩
  have hpart : Chronological r.granted between := hclock.of_append
  have hend := slot_kept_run hpart hrun (Or.inl hholds)
  rcases hend with ⟨completedAt, hend⟩ | ⟨t, hover, hlast⟩
  · by_contra hlate
    have httl : 0 < electedTtl := by decide
    have hfree : (Election.mk networkId id e.grantedAt completedAt).freeFor r'.asked networkId =
        false := by
      have hin : ¬ electedTtl ≤ r'.asked - e.grantedAt := by omega
      simp [Election.freeFor, hin]
    rw [decide_of_standing hend hfree] at hsecond
    exact hid (answerBeside_accepted hsecond).2.symm
  · have := hlast _ hclock
    simp only [ArbiterCall.span] at this
    have httl : 0 < electedTtl := by decide
    omega

/-- All clock readings of a call at so many milliseconds. -/
def Readings.atMs (n : ℕ) : Readings := ⟨n * 1000000, n * 1000000, n * 1000000⟩

/-- A first candidate is elected at 3 ms and succeeds at 5 ms.  A sibling is refused, a candidate
for another network at another level is not in the way, and when the time is over the network gets
its second candidate. -/
theorem elected_once_two : ∃ e,
    ((ArbiterState.new none).decide (.atMs 3) 1 42 1).1.elected.get? 1 = some e ∧
      e.networkId = 42 ∧ e.evaluateEnterId = 1 ∧ e.grantedAt + electedTtl ≤ 60003 * 1000000 :=
  elected_once (ArbiterState.new none) (.atMs 3) (.atMs 60003) 1 42 1 2
    [.complete (5 * 1000000) (5 * 1000000) 1, .decide (.atMs 7) 1 42 2, .decide (.atMs 8) 2 7 3]
    (by decide) (by decide +kernel)
    (by simp [Chronological, ArbiterCall.span, Readings.atMs])
    (by simp [Undisturbed, Supersedes]) (by decide +kernel)

/-- Network 42 has its candidate, who succeeds; the slot goes to network 7, whose candidate
succeeds too; and network 42 is given a second candidate at once. -/
theorem not_elected_once : ¬ ∀ (s : ArbiterState) (r r' : Readings) (level : ℕ)
    (networkId : Int64) (id id' : Int32) (between : List ArbiterCall), id' ≠ id →
    (s.decide r level networkId id).2 = .accepted level →
    Chronological r.granted (between ++ [.decide r' level networkId id']) →
    (∀ c ∈ between, ∀ now, c ≠ .release now level) →
    ((between.foldl ArbiterState.exec (s.decide r level networkId id).1).decide r'
      level networkId id').2 = .accepted level →
    ∃ e, (s.decide r level networkId id).1.elected.get? level = some e ∧
      e.networkId = networkId ∧ e.evaluateEnterId = id ∧ e.grantedAt + electedTtl ≤ r'.asked := by
  intro h
  have hlate := h (ArbiterState.new none) (.atMs 1) (.atMs 5) 1 42 1 3
    [.complete (2 * 1000000) (2 * 1000000) 1, .decide (.atMs 3) 1 7 2,
      .complete (4 * 1000000) (4 * 1000000) 1] (by decide) (by decide +kernel)
    (by simp [Chronological, ArbiterCall.span, Readings.atMs]) (by simp) (by decide +kernel)
  obtain ⟨e, -, -, -, hle⟩ := hlate
  have httl : 5 * 1000000 < electedTtl := by decide
  simp only [Readings.atMs] at hle
  omega

end Netsukuku.Hooking
