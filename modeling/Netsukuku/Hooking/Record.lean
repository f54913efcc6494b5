import Mathlib
import Netsukuku.Hooking.Arbiter

/-!
# One record, many calls

The calls of an arbiter run at the same time.  Each takes the lock and looks at the local
elections; then it reads the hooking memory, the one record of all levels, and writes it back
changed.  `decide` keeps the lock until it is done.  `release` and `complete` give it back before
they read, so that another call can come between their halves, and between their read and their
write.

* `Arbitration.Step` — one step of one call.
* `Arbitration.Happens` — a step, or what comes to the record besides the calls.
* `InTurn` — the step does not come between the halves of another call in a harmful way.
* `Sequential` — the record is what the calls leave one after the other.
* `record_sequential` — so it is, in every run whose steps are in turn and to which nothing outdated
  comes.
-/

namespace Netsukuku.Hooking

/-! ## The calls, step by step -/

/-- Where a call stands: before the lock, with it, reading and writing with or without it. -/
inductive CallPhase where
  | waiting
  | locked
  | asking
  | granting (mem : HookingMemory)
  | granted
  | updated
  | writing (mem : HookingMemory)
  | ended

/-- What another call may meet a call at: out of the way, deciding with the lock, or between its
local update and its end. -/
inductive CallStage where
  | out
  | asking
  | granted
  | halfway
  deriving DecidableEq

namespace CallPhase

def stage : CallPhase → CallStage
  | asking => .asking
  | granting _ => .asking
  | granted => .granted
  | updated => .halfway
  | writing _ => .halfway
  | _ => .out

/-- Between the read and the write. -/
def Holds : CallPhase → HookingMemory → Prop
  | granting mem, mem' => mem = mem'
  | writing mem, mem' => mem = mem'
  | _, _ => False

/-- What the call does to the record is done. -/
def Settled (ph : CallPhase) : Prop := ph = .granted ∨ ph = .ended

end CallPhase

namespace ArbiterCall

def level : ArbiterCall → ℕ
  | decide _ level _ _ => level
  | complete _ _ level => level
  | release _ level => level

/-- The call reports what came of an election, as opposed to asking for one. -/
def IsReport : ArbiterCall → Prop
  | decide .. => False
  | complete .. => True
  | release .. => True

end ArbiterCall

namespace ArbiterState

/-- The first half of a report, under the lock. -/
def updateLocal (s : ArbiterState) : ArbiterCall → ArbiterState
  | .decide .. => s
  | .complete now _ level => s.completeLocal now level
  | .release _ level => s.releaseLocal level

/-- What a report writes back of the memory it reads; `none` if it does not write. -/
def updatedMemory (memory : Option HookingMemory) : ArbiterCall → Option HookingMemory
  | .decide .. => none
  | .complete _ wall level => completedMemory memory (nowMillis wall) level
  | .release _ level => releasedMemory memory level

end ArbiterState

/-- An arbiter in the middle of its calls: who has the lock, and where every call stands. -/
structure Arbitration (ι : Type) where
  state : ArbiterState
  holder : Option ι
  phase : ι → CallPhase

namespace Arbitration

variable {ι : Type} [DecidableEq ι]

/-- No call has begun. -/
def start (s₀ : ArbiterState) : Arbitration ι := ⟨s₀, none, fun _ => .waiting⟩

/-- The call `i` moves on. -/
def move (s : Arbitration ι) (i : ι) (state : ArbiterState) (holder : Option ι)
    (phase : CallPhase) : Arbitration ι := ⟨state, holder, Function.update s.phase i phase⟩

/-- One step of the call `i`. -/
inductive Step (calls : ι → ArbiterCall) (i : ι) : Arbitration ι → Arbitration ι → Prop where
  | lock (s : Arbitration ι) (hphase : s.phase i = .waiting) (hfree : s.holder = none) :
      Step calls i s (s.move i s.state (some i) .locked)
  -- `decide`: the local election answers
  | answer (s : Arbitration ι) {r : Readings} {level : ℕ} {networkId : Int64} {id : Int32}
      {e : Election} (hphase : s.phase i = .locked)
      (hcall : calls i = .decide r level networkId id)
      (hlocal : (s.state.clearFree r.asked level networkId).elected.get? level = some e) :
      Step calls i s (s.move i (s.state.clearFree r.asked level networkId) none .ended)
  | ask (s : Arbitration ι) {r : Readings} {level : ℕ} {networkId : Int64} {id : Int32}
      (hphase : s.phase i = .locked) (hcall : calls i = .decide r level networkId id)
      (hlocal : (s.state.clearFree r.asked level networkId).elected.get? level = none) :
      Step calls i s (s.move i (s.state.clearFree r.asked level networkId) s.holder .asking)
  -- `decide`: the election read answers
  | adopt (s : Arbitration ι) {r : Readings} {level : ℕ} {networkId : Int64} {id : Int32}
      {e : ElectionRecord} (hphase : s.phase i = .asking)
      (hcall : calls i = .decide r level networkId id)
      (hshared : ArbiterState.sharedElection s.state.hookingMemory (nowMillis r.read) level
        networkId = some e) :
      Step calls i s (s.move i
        (if answerBeside level e.networkId e.evaluateEnterId networkId id = .accepted level then
          s.state.elect level ⟨networkId, id, r.granted, none⟩ else s.state) none .ended)
  | read (s : Arbitration ι) {r : Readings} {level : ℕ} {networkId : Int64} {id : Int32}
      (hphase : s.phase i = .asking) (hcall : calls i = .decide r level networkId id)
      (hshared : ArbiterState.sharedElection s.state.hookingMemory (nowMillis r.read) level
        networkId = none) :
      Step calls i s (s.move i s.state s.holder (.granting s.state.hookingMemory))
  | grant (s : Arbitration ι) {r : Readings} {level : ℕ} {networkId : Int64} {id : Int32}
      {mem : HookingMemory} (hphase : s.phase i = .granting mem)
      (hcall : calls i = .decide r level networkId id) :
      Step calls i s (s.move i (s.state.write
        (some (mem.elect level ⟨networkId, id, nowMillis r.read, none⟩))) s.holder .granted)
  | finish (s : Arbitration ι) {r : Readings} {level : ℕ} {networkId : Int64} {id : Int32}
      (hphase : s.phase i = .granted) (hcall : calls i = .decide r level networkId id) :
      Step calls i s (s.move i (s.state.elect level ⟨networkId, id, r.granted, none⟩) none .ended)
  -- `release` and `complete`: the local election, and the lock is given back
  | update (s : Arbitration ι) (hphase : s.phase i = .locked) (hreport : (calls i).IsReport) :
      Step calls i s (s.move i (s.state.updateLocal (calls i)) none .updated)
  | skip (s : Arbitration ι) (hphase : s.phase i = .updated)
      (hmem : ArbiterState.updatedMemory s.state.memory (calls i) = none) :
      Step calls i s (s.move i s.state s.holder .ended)
  | fetch (s : Arbitration ι) {mem : HookingMemory} (hphase : s.phase i = .updated)
      (hmem : ArbiterState.updatedMemory s.state.memory (calls i) = some mem) :
      Step calls i s (s.move i s.state s.holder (.writing mem))
  | store (s : Arbitration ι) {mem : HookingMemory} (hphase : s.phase i = .writing mem) :
      Step calls i s (s.move i (s.state.write (some mem)) s.holder .ended)

/-- Another state of the arbiter, while no call moves on. -/
def place (s : Arbitration ι) (state : ArbiterState) : Arbitration ι := { s with state := state }

/-- What happens: a step of a call that `turn` lets it take; the record goes to replicas; one of the
copies sent comes back; or a member writes the record, as for a merge verdict.  What is written from
outside is what `brings` lets come. -/
inductive Happens (calls : ι → ArbiterCall) (turn : Arbitration ι → ι → Prop)
    (brings : ArbiterState → Option HookingMemory → Prop) : Arbitration ι → Arbitration ι → Prop where
  | call {s s' : Arbitration ι} (i : ι) (hturn : turn s i) (hstep : Step calls i s s') :
      Happens calls turn brings s s'
  | replicate (s : Arbitration ι) : Happens calls turn brings s (s.place s.state.replicate)
  | replica (s : Arbitration ι) (copy : Option HookingMemory) (hsent : copy ∈ s.state.sent)
      (hbrings : brings s.state copy) :
      Happens calls turn brings s (s.place (s.state.applyReplica copy))
  | setMemory (s : Arbitration ι) (data : Option HookingMemory) (hbrings : brings s.state data) :
      Happens calls turn brings s (s.place (s.state.setHookingMemory data))

end Arbitration

/-- The record is what the calls leave when they run one after the other, in some order. -/
def Sequential {ι : Type} (calls : ι → ArbiterCall) (s₀ s : ArbiterState) : Prop :=
  ∃ order : List ι, order.Nodup ∧ (∀ i, i ∈ order) ∧
    ∀ level, s.hookingMemory.elections.get? level =
      ((order.map calls).foldl ArbiterState.exec s₀).hookingMemory.elections.get? level

/-- The step of `i` is in turn: if it writes the record, no other call is between its read and its
write; and if it is the look of a `decide` at its level, no report for that level is between its
halves. -/
structure InTurn {ι : Type} (calls : ι → ArbiterCall) (s : Arbitration ι) (i : ι) : Prop where
  alone : (∃ mem, (s.phase i).Holds mem) → ∀ j mem, (s.phase j).Holds mem → j = i
  whole : s.phase i = .locked → ¬(calls i).IsReport →
    ∀ j, (s.phase j).stage = .halfway → (calls j).level ≠ (calls i).level

/-! ## Local elections, up to the time of their success -/

/-- What of an election the answers depend on. -/
def Election.mark (e : Election) : Int64 × Int32 × ℕ × Bool :=
  (e.networkId, e.evaluateEnterId, e.grantedAt, e.completedAt.isSome)

/-- The mark of an election whose candidate succeeded. -/
def finishMark (m : Int64 × Int32 × ℕ × Bool) : Int64 × Int32 × ℕ × Bool :=
  (m.1, m.2.1, m.2.2.1, true)

namespace ArbiterState

def slot (s : ArbiterState) (level : ℕ) : Option (Int64 × Int32 × ℕ × Bool) :=
  (s.elected.get? level).map Election.mark

end ArbiterState

/-- What the first half of a report leaves of the mark at `level`. -/
def markAfter (level : ℕ) (c : ArbiterCall) (m : Option (Int64 × Int32 × ℕ × Bool)) :
    Option (Int64 × Int32 × ℕ × Bool) :=
  match c with
  | .decide .. => m
  | .complete _ _ l => if l = level then m.map finishMark else m
  | .release _ l => if l = level then none else m

/-- What a report leaves of the replicated election of `level`. -/
def recordAfter (level : ℕ) (c : ArbiterCall) (e : Option ElectionRecord) : Option ElectionRecord :=
  match c with
  | .decide .. => e
  | .complete _ wall l =>
      if l = level then e.map fun e =>
        { e with completedAtMillis := some (e.completedAtMillis.getD (nowMillis wall)) }
      else e
  | .release _ l => if l = level then none else e

section Marks

variable {s s' : ArbiterState} {level level' now : ℕ} {networkId : Int64} {c : ArbiterCall}
  {m : Option (Int64 × Int32 × ℕ × Bool)}

lemma freeFor_eq_of_mark {e e' : Election} (h : e.mark = e'.mark) :
    e.freeFor now networkId = e'.freeFor now networkId := by
  simp only [Election.mark, Prod.mk.injEq] at h
  rw [Election.freeFor, Election.freeFor, h.1, h.2.2.1, h.2.2.2]

lemma slot_updateLocal (s : ArbiterState) (c : ArbiterCall) (level : ℕ) :
    (s.updateLocal c).slot level = markAfter level c (s.slot level) := by
  cases c with
  | decide r l n id => rfl
  | complete now wall l =>
      simp only [ArbiterState.slot, ArbiterState.updateLocal, ArbiterState.completeLocal, markAfter]
      by_cases hl : l = level
      · subst hl
        cases hget : s.elected.get? l with
        | none => simp [hget]
        | some e => simp [ArbiterState.elect, Election.mark, finishMark]
      · rw [if_neg hl]
        cases hget : s.elected.get? l with
        | none => rfl
        | some e =>
            simp only [ArbiterState.elect]
            rw [KeyedMap.get?_insert_of_ne _ _ (Ne.symm hl)]
  | release now l =>
      simp only [ArbiterState.slot, ArbiterState.updateLocal, ArbiterState.releaseLocal, markAfter]
      by_cases hl : l = level
      · simp [hl]
      · rw [if_neg hl, KeyedMap.get?_erase_of_ne _ (Ne.symm hl)]

lemma updateLocal_memory : (s.updateLocal c).memory = s.memory := by
  cases c with
  | decide r l n asker => rfl
  | complete now wall l => exact completeLocal_memory
  | release now l => rfl

/-- A report is its local half, then what it writes back. -/
lemma exec_of_isReport (h : c.IsReport) :
    s.exec c = (s.updateLocal c).write (ArbiterState.updatedMemory s.memory c) := by
  cases c with
  | decide r l n asker => exact h.elim
  | complete now wall l => rfl
  | release now l => rfl

lemma elections_exec (h : c.IsReport) : (s.exec c).hookingMemory.elections.get? level =
    recordAfter level c (s.hookingMemory.elections.get? level) := by
  cases c with
  | decide r l n asker => exact h.elim
  | complete now wall l =>
      by_cases hl : l = level
      · subst hl
        rw [recordAfter, if_pos rfl]
        exact complete_elections_get?
      · rw [recordAfter, if_neg hl]
        exact complete_elections_get?_of_ne (Ne.symm hl)
  | release now l =>
      by_cases hl : l = level
      · subst hl
        rw [recordAfter, if_pos rfl]
        exact release_elections_get?
      · rw [recordAfter, if_neg hl]
        exact release_elections_get?_of_ne (Ne.symm hl)

lemma recordAfter_of_ne {e : Option ElectionRecord} (h : level ≠ c.level) :
    recordAfter level c e = e := by
  cases c with
  | decide r l n asker => rfl
  | complete now wall l => exact if_neg (Ne.symm h)
  | release now l => exact if_neg (Ne.symm h)

/-- What a report is about to write. -/
lemma elections_of_updatedMemory {mem : HookingMemory}
    (h : ArbiterState.updatedMemory s.memory c = some mem) : mem.elections.get? level =
      recordAfter level c (s.hookingMemory.elections.get? level) := by
  have hreport : c.IsReport := by
    cases c with
    | decide r l n asker => cases h
    | complete now wall l => trivial
    | release now l => trivial
  rw [← elections_exec hreport, exec_of_isReport hreport, h, write_hookingMemory]
  rfl

/-- A report that has nothing to write would change nothing. -/
lemma recordAfter_of_updatedMemory (hreport : c.IsReport)
    (h : ArbiterState.updatedMemory s.memory c = none) :
    recordAfter level c (s.hookingMemory.elections.get? level) =
      s.hookingMemory.elections.get? level := by
  rw [← elections_exec hreport, exec_of_isReport hreport, h, write_hookingMemory,
    ArbiterState.hookingMemory, updateLocal_memory]
  rfl

lemma slot_exec_of_isReport (h : c.IsReport) :
    (s.exec c).slot level = markAfter level c (s.slot level) := by
  rw [exec_of_isReport h, ← slot_updateLocal, ArbiterState.slot, write_elected, ArbiterState.slot]

lemma slot_eq_none_iff : s.slot level = none ↔ s.elected.get? level = none :=
  Option.map_eq_none_iff

/-- What an ask leaves of a slot depends on its mark. -/
lemma slot_clearFree (h : s.slot level = s'.slot level) :
    (s.clearFree now level networkId).slot level =
      (s'.clearFree now level networkId).slot level := by
  rw [ArbiterState.slot, ArbiterState.slot, clearFree_get?, clearFree_get?]
  unfold ArbiterState.slot at h
  cases hs : s.elected.get? level with
  | none =>
      rw [hs, Option.map_none, eq_comm, Option.map_eq_none_iff] at h
      rw [h]
  | some e =>
      rw [hs, Option.map_some, eq_comm, Option.map_eq_some_iff] at h
      obtain ⟨e', he', hmark⟩ := h
      rw [he', Option.filter_some, Option.filter_some, freeFor_eq_of_mark hmark.symm]
      split
      · rw [Option.map_some, Option.map_some, hmark]
      · rfl

end Marks

section Pending

variable {ι : Type} {calls : ι → ArbiterCall} {level : ℕ} {P Q : Set ι} {i : ι}
  {m : Option (Int64 × Int32 × ℕ × Bool)}

/-- A release of the level is among the calls in `P`. -/
def Releasing (calls : ι → ArbiterCall) (level : ℕ) (P : Set ι) : Prop :=
  ∃ j ∈ P, ∃ now, calls j = .release now level

/-- A completion at the level is among the calls in `P`. -/
def Completing (calls : ι → ArbiterCall) (level : ℕ) (P : Set ι) : Prop :=
  ∃ j ∈ P, ∃ now wall, calls j = .complete now wall level

open Classical in
/-- The mark at `level` when the calls in `P` are half done. -/
noncomputable def pendingMark (calls : ι → ArbiterCall) (level : ℕ) (P : Set ι)
    (m : Option (Int64 × Int32 × ℕ × Bool)) : Option (Int64 × Int32 × ℕ × Bool) :=
  if Releasing calls level P then none
  else if Completing calls level P then m.map finishMark
  else m

lemma pendingMark_of_idle (h : ∀ j ∈ P, (calls j).level ≠ level) :
    pendingMark calls level P m = m := by
  rw [pendingMark, if_neg, if_neg]
  · rintro ⟨j, hj, now, wall, hcall⟩
    exact h j hj (by rw [hcall]; rfl)
  · rintro ⟨j, hj, now, hcall⟩
    exact h j hj (by rw [hcall]; rfl)

lemma pendingMark_congr (h : ∀ j, (calls j).level = level → (j ∈ P ↔ j ∈ Q)) :
    pendingMark calls level P m = pendingMark calls level Q m := by
  have hrelease : Releasing calls level P ↔ Releasing calls level Q :=
    exists_congr fun j => and_congr_left fun ⟨now, hcall⟩ => h j (by rw [hcall]; rfl)
  have hcomplete : Completing calls level P ↔ Completing calls level Q :=
    exists_congr fun j => and_congr_left fun ⟨now, wall, hcall⟩ => h j (by rw [hcall]; rfl)
  unfold pendingMark
  classical exact if_congr hrelease rfl (if_congr hcomplete rfl rfl)

lemma releasing_insert : Releasing calls level (insert i P) ↔
    (∃ now, calls i = .release now level) ∨ Releasing calls level P := by
  simp [Releasing, or_and_right, exists_or]

lemma completing_insert : Completing calls level (insert i P) ↔
    (∃ now wall, calls i = .complete now wall level) ∨ Completing calls level P := by
  simp [Completing, or_and_right, exists_or]

/-- One more call half done: its local half came last, or it came first. -/
lemma pendingMark_insert :
    pendingMark calls level (insert i P) m =
        markAfter level (calls i) (pendingMark calls level P m) ∧
      pendingMark calls level (insert i P) m =
        pendingMark calls level P (markAfter level (calls i) m) := by
  classical
  have htwice : ∀ m' : Option (Int64 × Int32 × ℕ × Bool),
      (m'.map finishMark).map finishMark = m'.map finishMark := by
    rintro (_ | _) <;> rfl
  cases hcall : calls i with
  | decide r l n asker => simp [pendingMark, releasing_insert, completing_insert, hcall, markAfter]
  | complete now wall l =>
      by_cases hl : l = level
      · by_cases hrelease : Releasing calls level P
        · simp [pendingMark, releasing_insert, hcall, markAfter, hl, hrelease]
        · by_cases hcomplete : Completing calls level P <;>
            simp [pendingMark, releasing_insert, completing_insert, hcall, markAfter, hl, hrelease,
              hcomplete, htwice, -Option.map_map]
      · simp [pendingMark, releasing_insert, completing_insert, hcall, markAfter, hl]
  | release now l =>
      by_cases hl : l = level
      · simp [pendingMark, releasing_insert, hcall, markAfter, hl]
      · simp [pendingMark, releasing_insert, completing_insert, hcall, markAfter, hl]

end Pending

/-! ## What `decide` comes to -/

section Decide

variable {a : ArbiterState} {r : Readings} {level level' : ℕ} {networkId : Int64} {id : Int32}
  {c : ArbiterCall}

lemma sharedElection_congr {mem mem' : HookingMemory} {nowMs : ℕ} (h : mem.Agrees mem') :
    ArbiterState.sharedElection mem nowMs level networkId =
      ArbiterState.sharedElection mem' nowMs level networkId := by
  rw [ArbiterState.sharedElection, h level, ArbiterState.sharedElection]

lemma HookingMemory.Agrees.elect {mem mem' : HookingMemory} (h : mem.Agrees mem')
    (e : ElectionRecord) : (mem.elect level e).Agrees (mem'.elect level e) := by
  intro l
  by_cases hl : l = level
  · rw [hl, HookingMemory.elect, HookingMemory.elect, KeyedMap.get?_insert_self,
      KeyedMap.get?_insert_self]
  · rw [HookingMemory.elect, HookingMemory.elect, KeyedMap.get?_insert_of_ne _ _ hl,
      KeyedMap.get?_insert_of_ne _ _ hl]
    exact h l

lemma exec_of_answer {e : Election}
    (h : (a.clearFree r.asked level networkId).elected.get? level = some e) :
    a.exec (.decide r level networkId id) = a.clearFree r.asked level networkId := by
  simp only [ArbiterState.exec, ArbiterState.decide, ArbiterState.ask, h]

lemma exec_of_adopt {e : ElectionRecord}
    (h : (a.clearFree r.asked level networkId).elected.get? level = none)
    (hshared : ArbiterState.sharedElection a.hookingMemory (nowMillis r.read) level networkId =
      some e) :
    a.exec (.decide r level networkId id) =
      if answerBeside level e.networkId e.evaluateEnterId networkId id = .accepted level then
        (a.clearFree r.asked level networkId).elect level ⟨networkId, id, r.granted, none⟩
      else a.clearFree r.asked level networkId := by
  simp only [ArbiterState.exec, ArbiterState.decide, ArbiterState.ask, h, clearFree_hookingMemory,
    hshared]

lemma exec_of_grant
    (h : (a.clearFree r.asked level networkId).elected.get? level = none)
    (hshared : ArbiterState.sharedElection a.hookingMemory (nowMillis r.read) level networkId =
      none) :
    a.exec (.decide r level networkId id) =
      (a.clearFree r.asked level networkId).grant a.hookingMemory r level networkId id := by
  simp only [ArbiterState.exec, ArbiterState.decide, ArbiterState.ask, h, clearFree_hookingMemory,
    hshared]

lemma exec_get?_of_ne (h : level ≠ c.level) :
    (a.exec c).elected.get? level = a.elected.get? level := by
  cases c with
  | decide r l n asker => exact decide_get?_of_ne h
  | complete now wall l => exact complete_get?_of_ne h
  | release now l =>
      rw [ArbiterState.exec, ArbiterState.release, write_elected]
      exact KeyedMap.get?_erase_of_ne _ h

end Decide

/-! ## The order in which the calls take effect -/

section Order

variable {ι : Type} {calls : ι → ArbiterCall} {s₀ : ArbiterState} {s s' : Arbitration ι} {i j : ι}
  {a a' : ArbiterState} {level : ℕ}

/-- Who decides has the lock, and only reports are half done. -/
structure Locked (calls : ι → ArbiterCall) (s : Arbitration ι) : Prop where
  holder : ∀ i, s.phase i = .locked ∨ (s.phase i).stage = .asking ∨ (s.phase i).stage = .granted →
    s.holder = some i
  report : ∀ i, (s.phase i).stage = .halfway → (calls i).IsReport

/-- Who has the lock is the only one deciding. -/
lemma Locked.decides (h : Locked calls s) (hi : s.holder = some i)
    (hj : (s.phase j).stage = .asking ∨ (s.phase j).stage = .granted) : j = i :=
  Option.some.inj ((h.holder j (.inr hj)).symm.trans hi)

/-- What a call has read and not yet written back has the elections that the record has. -/
structure Reads (calls : ι → ArbiterCall) (s : Arbitration ι) : Prop where
  granting : ∀ i mem, s.phase i = .granting mem → s.state.hookingMemory.Agrees mem ∧
    ∀ r l networkId id, calls i = .decide r l networkId id →
      ArbiterState.sharedElection mem (nowMillis r.read) l networkId = none
  writing : ∀ i mem, s.phase i = .writing mem → ∀ level, mem.elections.get? level =
    recordAfter level (calls i) (s.state.hookingMemory.elections.get? level)

/-- What the local election of a level is, `a` being what the calls before have left: nothing while
a `decide` is on its way to the record, and otherwise what the reports half done make of it. -/
inductive LocalAt (calls : ι → ArbiterCall) (s : Arbitration ι) (a : ArbiterState) (level : ℕ) :
    Prop where
  | asking (i : ι) {r : Readings} {networkId : Int64} {id : Int32}
      (hstage : (s.phase i).stage = .asking) (hcall : calls i = .decide r level networkId id)
      (hnone : s.state.elected.get? level = none)
      (hfree : (a.clearFree r.asked level networkId).elected.get? level = none)
      (hidle : ∀ j, (s.phase j).stage = .halfway → (calls j).level ≠ level)
  | granted (i : ι) {r : Readings} {networkId : Int64} {id : Int32}
      (hstage : (s.phase i).stage = .granted) (hcall : calls i = .decide r level networkId id)
      (hnone : s.state.elected.get? level = none)
      (hgranted : a.elected.get? level = some ⟨networkId, id, r.granted, none⟩)
      (hidle : ∀ j, (s.phase j).stage = .halfway → (calls j).level ≠ level)
  | settled
      (hno : ∀ i, (s.phase i).stage = .asking ∨ (s.phase i).stage = .granted →
        (calls i).level ≠ level)
      (hmark : s.state.slot level =
        pendingMark calls level {j | (s.phase j).stage = .halfway} (a.slot level))

namespace LocalAt

/-- Nothing has happened at the level. -/
lemma congr (h : LocalAt calls s a level)
    (hstage : ∀ j, (calls j).level = level → (s'.phase j).stage = (s.phase j).stage)
    (hs : s'.state.elected.get? level = s.state.elected.get? level)
    (ha : a'.elected.get? level = a.elected.get? level) : LocalAt calls s' a' level := by
  cases h with
  | asking i hi hcall hnone hfree hidle =>
      rw [clearFree_get?, ← ha, ← clearFree_get?] at hfree
      refine .asking i ((hstage i (by rw [hcall]; rfl)).trans hi) hcall (hs.trans hnone) hfree
        fun j hj hlevel => ?_
      exact hidle j ((hstage j hlevel).symm.trans hj) hlevel
  | granted i hi hcall hnone hgranted hidle =>
      refine .granted i ((hstage i (by rw [hcall]; rfl)).trans hi) hcall (hs.trans hnone)
        (ha.trans hgranted) fun j hj hlevel => ?_
      exact hidle j ((hstage j hlevel).symm.trans hj) hlevel
  | settled hno hmark =>
      refine .settled (fun i hi hlevel => hno i (by rwa [← hstage i hlevel]) hlevel) ?_
      rw [ArbiterState.slot, hs, ← ArbiterState.slot, hmark, ArbiterState.slot, ← ha,
        ← ArbiterState.slot]
      exact pendingMark_congr fun j hj =>
        Iff.of_eq (congrArg (· = CallStage.halfway) (hstage j hj).symm)

/-- With no call on its way at the level, the marks agree. -/
lemma slot_eq (h : LocalAt calls s a level)
    (hno : ∀ i, (s.phase i).stage = .asking ∨ (s.phase i).stage = .granted →
      (calls i).level ≠ level)
    (hidle : ∀ j, (s.phase j).stage = .halfway → (calls j).level ≠ level) :
    s.state.slot level = a.slot level := by
  cases h with
  | asking i hi hcall => exact absurd (by rw [hcall]; rfl) (hno i (.inl hi))
  | granted i hi hcall => exact absurd (by rw [hcall]; rfl) (hno i (.inr hi))
  | settled _ hmark => exact hmark.trans (pendingMark_of_idle hidle)

lemma of_slot_eq (h : s.state.slot level = a.slot level)
    (hno : ∀ i, (s.phase i).stage = .asking ∨ (s.phase i).stage = .granted →
      (calls i).level ≠ level)
    (hidle : ∀ j, (s.phase j).stage = .halfway → (calls j).level ≠ level) :
    LocalAt calls s a level :=
  .settled hno (h.trans (pendingMark_of_idle hidle).symm)

end LocalAt

/-- What the calls leave one after the other. -/
def after (calls : ι → ArbiterCall) (s₀ : ArbiterState) (order : List ι) : ArbiterState :=
  (order.map calls).foldl ArbiterState.exec s₀

lemma after_append (order : List ι) (i : ι) :
    after calls s₀ (order ++ [i]) = (after calls s₀ order).exec (calls i) := by
  simp [after]

/-- The arbitration is where the calls in `order` leave it one after the other, but for what is
half done. -/
structure Sim (calls : ι → ArbiterCall) (s₀ : ArbiterState) (s : Arbitration ι)
    (order : List ι) : Prop where
  locked : Locked calls s
  reads : Reads calls s
  nodup : order.Nodup
  mem_order : ∀ i, i ∈ order ↔ (s.phase i).Settled
  memory : (after calls s₀ order).hookingMemory.Agrees s.state.hookingMemory
  localAt : ∀ level, LocalAt calls s (after calls s₀ order) level

lemma sim_start : Sim calls s₀ (Arbitration.start s₀) [] where
  locked := ⟨by simp [Arbitration.start, CallPhase.stage],
    by simp [Arbitration.start, CallPhase.stage]⟩
  reads := ⟨by simp [Arbitration.start], by simp [Arbitration.start]⟩
  nodup := List.nodup_nil
  mem_order i := by simp [Arbitration.start, CallPhase.Settled]
  memory _ := rfl
  localAt level := .of_slot_eq rfl (by simp [Arbitration.start, CallPhase.stage])
    (by simp [Arbitration.start, CallPhase.stage])

lemma Sim.nodup_push {order : List ι} (h : Sim calls s₀ s order) (hnot : ¬(s.phase i).Settled) :
    (order ++ [i]).Nodup := by
  rw [← List.concat_eq_append]
  exact h.nodup.concat fun hi => hnot ((h.mem_order i).mp hi)

/-- A `decide` with no report for its level half done sees what the calls before have left. -/
lemma Sim.slot_of_inTurn {order : List ι} (h : Sim calls s₀ s order) (hturn : InTurn calls s i)
    (hphase : s.phase i = .locked) (hask : ¬(calls i).IsReport) :
    s.state.slot (calls i).level = (after calls s₀ order).slot (calls i).level := by
  refine (h.localAt _).slot_eq (fun j hj => ?_) (hturn.whole hphase hask)
  have hji := h.locked.decides (h.locked.holder i (.inl hphase)) hj
  rw [hji, hphase] at hj
  simp [CallPhase.stage] at hj

/-- A `decide` on its way to the record: nothing is elected where it looked. -/
lemma Sim.free_of_asking {order : List ι} (h : Sim calls s₀ s order) {r : Readings}
    {networkId : Int64} {id : Int32} (hi : (s.phase i).stage = .asking)
    (hcall : calls i = .decide r level networkId id) :
    s.state.elected.get? level = none ∧
      ((after calls s₀ order).clearFree r.asked level networkId).elected.get? level = none ∧
      ∀ j, (s.phase j).stage = .halfway → (calls j).level ≠ level := by
  have hmine := h.locked.holder i (.inr (.inl hi))
  cases h.localAt level with
  | asking j hj hcall' hnone hfree hidle =>
      obtain rfl := h.locked.decides hmine (.inl hj)
      obtain ⟨rfl, -, rfl, -⟩ := ArbiterCall.decide.inj (hcall.symm.trans hcall')
      exact ⟨hnone, hfree, hidle⟩
  | granted j hj =>
      obtain rfl := h.locked.decides hmine (.inr hj)
      rw [hi] at hj
      cases hj
  | settled hno => exact absurd (by rw [hcall]; rfl) (hno i (.inl hi))

end Order

/-! ## A step moves one call on -/

section Steps

variable {ι : Type} [DecidableEq ι] {calls : ι → ArbiterCall} {s₀ : ArbiterState}
  {s s' : Arbitration ι} {i j : ι} {a a' : ArbiterState} {state : ArbiterState}
  {holder : Option ι} {ph : CallPhase} {order : List ι} {level : ℕ}

namespace Arbitration

@[simp] lemma move_state : (s.move i state holder ph).state = state := rfl

@[simp] lemma move_phase_self : (s.move i state holder ph).phase i = ph :=
  Function.update_self _ _ _

lemma move_phase_of_ne (h : j ≠ i) : (s.move i state holder ph).phase j = s.phase j :=
  Function.update_of_ne h _ _

/-- A stage the call is not at now is another's. -/
lemma ne_of_stage {st : CallStage} (hph : ph.stage ≠ st)
    (hj : ((s.move i state holder ph).phase j).stage = st) : j ≠ i ∧ (s.phase j).stage = st := by
  have hji : j ≠ i := by
    rintro rfl
    rw [move_phase_self] at hj
    exact hph hj
  exact ⟨hji, by rwa [move_phase_of_ne hji] at hj⟩

end Arbitration

open Arbitration

lemma Locked.move (h : Locked calls s)
    (hholder : holder = s.holder ∨ s.holder = some i ∨ s.holder = none)
    (hph : ph = .locked ∨ ph.stage = .asking ∨ ph.stage = .granted → holder = some i)
    (hreport : ph.stage = .halfway → (calls i).IsReport) :
    Locked calls (s.move i state holder ph) where
  holder j hj := by
    by_cases hji : j = i
    · subst hji
      rw [move_phase_self] at hj
      exact hph hj
    · rw [move_phase_of_ne hji] at hj
      have hmine := h.holder j hj
      rcases hholder with rfl | hholder | hholder
      · exact hmine
      · exact absurd (Option.some.inj (hmine.symm.trans hholder)) hji
      · rw [hmine] at hholder
        cases hholder
  report j hj := by
    by_cases hji : j = i
    · subst hji
      rw [move_phase_self] at hj
      exact hreport hj
    · rw [move_phase_of_ne hji] at hj
      exact h.report j hj

lemma Arbitration.Step.locked (hstep : Step calls i s s') (h : Locked calls s) :
    Locked calls s' := by
  cases hstep with
  | lock hphase hfree => exact h.move (.inr (.inr hfree)) (fun _ => rfl) (by simp [CallPhase.stage])
  | answer hphase hcall hlocal =>
      exact h.move (.inr (.inl (h.holder i (.inl hphase)))) (by simp [CallPhase.stage])
        (by simp [CallPhase.stage])
  | ask hphase hcall hlocal =>
      exact h.move (.inl rfl) (fun _ => h.holder i (.inl hphase)) (by simp [CallPhase.stage])
  | adopt hphase hcall hshared =>
      have hmine := h.holder i (.inr (.inl (by rw [hphase]; rfl)))
      exact h.move (.inr (.inl hmine)) (by simp [CallPhase.stage]) (by simp [CallPhase.stage])
  | read hphase hcall hshared =>
      exact h.move (.inl rfl) (fun _ => h.holder i (.inr (.inl (by rw [hphase]; rfl))))
        (by simp [CallPhase.stage])
  | grant hphase hcall =>
      exact h.move (.inl rfl) (fun _ => h.holder i (.inr (.inl (by rw [hphase]; rfl))))
        (by simp [CallPhase.stage])
  | finish hphase hcall =>
      have hmine := h.holder i (.inr (.inr (by rw [hphase]; rfl)))
      exact h.move (.inr (.inl hmine)) (by simp [CallPhase.stage]) (by simp [CallPhase.stage])
  | update hphase hreport =>
      exact h.move (.inr (.inl (h.holder i (.inl hphase)))) (by simp [CallPhase.stage])
        (fun _ => hreport)
  | skip hphase hmem =>
      exact h.move (.inl rfl) (by simp [CallPhase.stage]) (by simp [CallPhase.stage])
  | fetch hphase hmem =>
      exact h.move (.inl rfl) (by simp [CallPhase.stage])
        (fun _ => h.report i (by rw [hphase]; rfl))
  | store hphase => exact h.move (.inl rfl) (by simp [CallPhase.stage]) (by simp [CallPhase.stage])

/-- A step that leaves the record. -/
lemma Reads.keep (h : Reads calls s) (hmem : state.hookingMemory = s.state.hookingMemory)
    (hgranting : ∀ mem, ph = .granting mem → s.state.hookingMemory.Agrees mem ∧
      ∀ r l networkId id, calls i = .decide r l networkId id →
        ArbiterState.sharedElection mem (nowMillis r.read) l networkId = none)
    (hwriting : ∀ mem, ph = .writing mem → ∀ level, mem.elections.get? level =
      recordAfter level (calls i) (s.state.hookingMemory.elections.get? level)) :
    Reads calls (s.move i state holder ph) where
  granting j mem hj := by
    rw [move_state, hmem]
    by_cases hji : j = i
    · subst hji
      exact hgranting mem (move_phase_self.symm.trans hj)
    · exact h.granting j mem ((move_phase_of_ne hji).symm.trans hj)
  writing j mem hj := by
    rw [move_state, hmem]
    by_cases hji : j = i
    · subst hji
      exact hwriting mem (move_phase_self.symm.trans hj)
    · exact h.writing j mem ((move_phase_of_ne hji).symm.trans hj)

/-- The only call that holds what it read writes the record. -/
lemma reads_of_alone (halone : ∀ j mem, (s.phase j).Holds mem → j = i)
    (hph : ∀ mem, ¬ph.Holds mem) : Reads calls (s.move i state holder ph) where
  granting j mem hj := by
    by_cases hji : j = i
    · subst hji
      obtain rfl : ph = .granting mem := move_phase_self.symm.trans hj
      exact absurd rfl (hph mem)
    · exact absurd (halone j mem (by rw [(move_phase_of_ne hji).symm.trans hj]; rfl)) hji
  writing j mem hj := by
    by_cases hji : j = i
    · subst hji
      obtain rfl : ph = .writing mem := move_phase_self.symm.trans hj
      exact absurd rfl (hph mem)
    · exact absurd (halone j mem (by rw [(move_phase_of_ne hji).symm.trans hj]; rfl)) hji

namespace LocalAt

/-- A call of another level moves on. -/
lemma other (h : LocalAt calls s a level) (hlevel : level ≠ (calls i).level)
    (hs : state.elected.get? level = s.state.elected.get? level)
    (ha : a'.elected.get? level = a.elected.get? level) :
    LocalAt calls (s.move i state holder ph) a' level :=
  h.congr (fun j hj => by
    rw [move_phase_of_ne]
    rintro rfl
    exact hlevel hj.symm) hs ha

/-- A call moves on and stays at its stage. -/
lemma same (h : LocalAt calls s a level) (hph : ph.stage = (s.phase i).stage)
    (hs : state.elected = s.state.elected) : LocalAt calls (s.move i state holder ph) a level :=
  h.congr (fun j _ => by
    by_cases hji : j = i
    · rw [hji, move_phase_self, hph]
    · rw [move_phase_of_ne hji]) (congrArg (fun m => m.get? level) hs) rfl

end LocalAt

namespace Sim

lemma mem_keep (h : Sim calls s₀ s order) (hph : ph.Settled ↔ (s.phase i).Settled) (j : ι) :
    j ∈ order ↔ ((s.move i state holder ph).phase j).Settled := by
  rw [h.mem_order j]
  by_cases hji : j = i
  · rw [hji, move_phase_self, hph]
  · rw [move_phase_of_ne hji]

lemma mem_push (h : Sim calls s₀ s order) (hph : ph.Settled) (j : ι) :
    j ∈ order ++ [i] ↔ ((s.move i state holder ph).phase j).Settled := by
  rw [List.mem_append, List.mem_singleton, h.mem_order j]
  by_cases hji : j = i
  · rw [hji, move_phase_self]
    exact iff_of_true (.inr rfl) hph
  · rw [move_phase_of_ne hji]
    exact or_iff_left hji

end Sim

/-- A report in its first half: it joins those half done. -/
lemma LocalAt.enter (h : LocalAt calls s a level)
    (hno : ∀ j, ¬((s.phase j).stage = .asking ∨ (s.phase j).stage = .granted)) :
    LocalAt calls (s.move i (s.state.updateLocal (calls i)) holder .updated) a level := by
  have hset : {j | ((s.move i (s.state.updateLocal (calls i)) holder .updated).phase j).stage =
      .halfway} = insert i {j | (s.phase j).stage = .halfway} := by
    ext j
    by_cases hji : j = i
    · simp [hji, CallPhase.stage]
    · simp [move_phase_of_ne hji, hji]
  refine .settled (fun j hj => ?_) ?_
  · rcases hj with hj | hj
    · exact absurd (.inl (ne_of_stage (by simp [CallPhase.stage]) hj).2) (hno j)
    · exact absurd (.inr (ne_of_stage (by simp [CallPhase.stage]) hj).2) (hno j)
  · cases h with
    | asking j hj => exact absurd (.inl hj) (hno j)
    | granted j hj => exact absurd (.inr hj) (hno j)
    | settled _ hmark =>
        rw [move_state, slot_updateLocal, hset, pendingMark_insert.1, hmark]

/-- A report at its end: its local half is as good as done now. -/
lemma LocalAt.leave (h : LocalAt calls s a level) (hi : (s.phase i).stage = .halfway)
    (hlevel : (calls i).level = level) (hreport : (calls i).IsReport)
    (hs : state.elected = s.state.elected) :
    LocalAt calls (s.move i state holder .ended) (a.exec (calls i)) level := by
  have hset : {j | (s.phase j).stage = .halfway} =
      insert i {j | ((s.move i state holder .ended).phase j).stage = .halfway} := by
    ext j
    by_cases hji : j = i
    · simp [hji, hi]
    · simp [move_phase_of_ne hji, hji]
  cases h with
  | asking j hj hcall hnone hfree hidle => exact absurd hlevel (hidle i hi)
  | granted j hj hcall hnone hgranted hidle => exact absurd hlevel (hidle i hi)
  | settled hno hmark =>
      refine .settled (fun j hj => hno j ?_) ?_
      · rcases hj with hj | hj
        · exact .inl (ne_of_stage (by simp [CallPhase.stage]) hj).2
        · exact .inr (ne_of_stage (by simp [CallPhase.stage]) hj).2
      · rw [slot_exec_of_isReport hreport, ← pendingMark_insert.2, ← hset, ← hmark, move_state,
          ArbiterState.slot, hs, ← ArbiterState.slot]

lemma updateLocal_get?_of_ne {c : ArbiterCall} (h : level ≠ c.level) :
    (a.updateLocal c).elected.get? level = a.elected.get? level := by
  cases c with
  | decide r l n asker => rfl
  | complete now wall l =>
      simp only [ArbiterState.updateLocal, ArbiterState.completeLocal]
      split
      · exact elect_get?_of_ne h
      · rfl
  | release now l => exact KeyedMap.get?_erase_of_ne _ h

/-- The call that has the lock is done with its level. -/
lemma Sim.settle (h : Sim calls s₀ s order) (hmine : s.holder = some i)
    (hidle : ∀ j, (s.phase j).stage = .halfway → (calls j).level ≠ level)
    (hslot : state.slot level = a'.slot level) :
    LocalAt calls (s.move i state holder .ended) a' level := by
  refine .of_slot_eq hslot (fun j hj => ?_) fun j hj => ?_
  · exfalso
    rcases hj with hj | hj
    · obtain ⟨hji, hj⟩ := ne_of_stage (by simp [CallPhase.stage]) hj
      exact hji (h.locked.decides hmine (.inl hj))
    · obtain ⟨hji, hj⟩ := ne_of_stage (by simp [CallPhase.stage]) hj
      exact hji (h.locked.decides hmine (.inr hj))
  · exact hidle j (ne_of_stage (by simp [CallPhase.stage]) hj).2

/-- The call takes effect as the last one. -/
lemma Sim.push (h : Sim calls s₀ s order) (hlocked : Locked calls (s.move i state holder ph))
    (hreads : Reads calls (s.move i state holder ph)) (hnot : ¬(s.phase i).Settled)
    (hph : ph.Settled)
    (hmem : ((after calls s₀ order).exec (calls i)).hookingMemory.Agrees state.hookingMemory)
    (hlocal : ∀ level, LocalAt calls (s.move i state holder ph)
      ((after calls s₀ order).exec (calls i)) level) :
    ∃ order', Sim calls s₀ (s.move i state holder ph) order' := by
  refine ⟨order ++ [i], hlocked, hreads, h.nodup_push hnot, h.mem_push hph, ?_, ?_⟩
  · rw [after_append]
    exact hmem
  · rw [after_append]
    exact hlocal

/-- The same when it leaves the local elections of the other levels. -/
lemma Sim.push_at (h : Sim calls s₀ s order) (hlocked : Locked calls (s.move i state holder ph))
    (hreads : Reads calls (s.move i state holder ph)) (hnot : ¬(s.phase i).Settled)
    (hph : ph.Settled)
    (hmem : ((after calls s₀ order).exec (calls i)).hookingMemory.Agrees state.hookingMemory)
    (hothers : ∀ level, level ≠ (calls i).level →
      state.elected.get? level = s.state.elected.get? level)
    (hlevel : LocalAt calls (s.move i state holder ph) ((after calls s₀ order).exec (calls i))
      (calls i).level) :
    ∃ order', Sim calls s₀ (s.move i state holder ph) order' := by
  refine h.push hlocked hreads hnot hph hmem fun level => ?_
  by_cases hl : level = (calls i).level
  · rw [hl]
    exact hlevel
  · exact (h.localAt level).other hl (hothers level hl) (exec_get?_of_ne hl)

/-- A `decide` ends: it has the lock, and no report for its level is half done. -/
lemma Sim.push_decide (h : Sim calls s₀ s order)
    (hlocked : Locked calls (s.move i state holder .ended))
    (hreads : Reads calls (s.move i state holder .ended)) (hnot : ¬(s.phase i).Settled)
    (hmine : s.holder = some i) (hidle : ∀ j, (s.phase j).stage = .halfway →
      (calls j).level ≠ (calls i).level)
    (hmem : ((after calls s₀ order).exec (calls i)).hookingMemory.Agrees state.hookingMemory)
    (hothers : ∀ level, level ≠ (calls i).level →
      state.elected.get? level = s.state.elected.get? level)
    (hslot : state.slot (calls i).level =
      ((after calls s₀ order).exec (calls i)).slot (calls i).level) :
    ∃ order', Sim calls s₀ (s.move i state holder .ended) order' :=
  h.push_at hlocked hreads hnot (.inr rfl) hmem hothers (h.settle hmine hidle hslot)

/-- A report ends: its local half is long done, and the record has what it makes of it. -/
lemma Sim.push_report (h : Sim calls s₀ s order)
    (hlocked : Locked calls (s.move i state holder .ended))
    (hreads : Reads calls (s.move i state holder .ended)) (hhalf : (s.phase i).stage = .halfway)
    (helected : state.elected = s.state.elected)
    (hmem : ∀ level, state.hookingMemory.elections.get? level =
      recordAfter level (calls i) (s.state.hookingMemory.elections.get? level)) :
    ∃ order', Sim calls s₀ (s.move i state holder .ended) order' := by
  have hreport := h.locked.report i hhalf
  have hnot : ¬(s.phase i).Settled := by
    rintro (hphase | hphase) <;> simp [hphase, CallPhase.stage] at hhalf
  refine h.push_at hlocked hreads hnot (.inr rfl) (fun level => ?_)
    (fun level _ => congrArg (fun m => m.get? level) helected)
    ((h.localAt _).leave hhalf rfl hreport helected)
  rw [elections_exec hreport, h.memory level, hmem level]

section Decides

variable {r : Readings} {networkId : Int64} {id : Int32}

omit [DecidableEq ι] in
/-- The slot a `decide` looks at is the one the calls before have left. -/
lemma Sim.slot_clearFree (h : Sim calls s₀ s order) (hturn : InTurn calls s i)
    (hphase : s.phase i = .locked) (hcall : calls i = .decide r level networkId id) :
    (s.state.clearFree r.asked level networkId).slot level =
      ((after calls s₀ order).clearFree r.asked level networkId).slot level := by
  have hask : ¬(calls i).IsReport := by rw [hcall]; exact fun h => h
  have hlevel : (calls i).level = level := by rw [hcall]; rfl
  exact Hooking.slot_clearFree (hlevel ▸ h.slot_of_inTurn hturn hphase hask)

/-- The local election answers. -/
lemma Sim.answer {e : Election} (h : Sim calls s₀ s order) (hturn : InTurn calls s i)
    (hphase : s.phase i = .locked) (hcall : calls i = .decide r level networkId id)
    (hlocal : (s.state.clearFree r.asked level networkId).elected.get? level = some e)
    (hlocked : Locked calls
      (s.move i (s.state.clearFree r.asked level networkId) none .ended)) :
    ∃ order', Sim calls s₀
      (s.move i (s.state.clearFree r.asked level networkId) none .ended) order' := by
  have hask : ¬(calls i).IsReport := by rw [hcall]; exact fun h => h
  have hlevel : (calls i).level = level := by rw [hcall]; rfl
  have hslot := h.slot_clearFree hturn hphase hcall
  obtain ⟨e', he', -⟩ := Option.map_eq_some_iff.mp
    (hslot.symm.trans (congrArg (Option.map Election.mark) hlocal))
  have hexec : (after calls s₀ order).exec (calls i) =
      (after calls s₀ order).clearFree r.asked level networkId := by rw [hcall, exec_of_answer he']
  refine h.push_decide hlocked (h.reads.keep clearFree_hookingMemory (by simp) (by simp))
    (by simp [hphase, CallPhase.Settled]) (h.locked.holder i (.inl hphase))
    (hturn.whole hphase hask) ?_ (fun l hl => clearFree_get?_of_ne (hlevel ▸ hl)) ?_
  · rw [hexec, clearFree_hookingMemory, clearFree_hookingMemory]
    exact h.memory
  · rw [hexec, hlevel, hslot]

/-- It does not, and the record is asked. -/
lemma Sim.ask (h : Sim calls s₀ s order) (hturn : InTurn calls s i)
    (hphase : s.phase i = .locked) (hcall : calls i = .decide r level networkId id)
    (hlocal : (s.state.clearFree r.asked level networkId).elected.get? level = none)
    (hlocked : Locked calls
      (s.move i (s.state.clearFree r.asked level networkId) holder .asking)) :
    Sim calls s₀ (s.move i (s.state.clearFree r.asked level networkId) holder .asking) order := by
  have hask : ¬(calls i).IsReport := by rw [hcall]; exact fun h => h
  have hlevel : (calls i).level = level := by rw [hcall]; rfl
  have hidle := hturn.whole hphase hask
  have hslot := h.slot_clearFree hturn hphase hcall
  have hfree := slot_eq_none_iff.mp (hslot.symm.trans (slot_eq_none_iff.mpr hlocal))
  refine ⟨hlocked, h.reads.keep clearFree_hookingMemory (by simp) (by simp), h.nodup,
    h.mem_keep (by simp [hphase, CallPhase.Settled]), ?_, fun l => ?_⟩
  · rw [move_state, clearFree_hookingMemory]
    exact h.memory
  · by_cases hl : l = level
    · subst hl
      refine .asking i (by simp [CallPhase.stage]) hcall hlocal hfree fun j hj => ?_
      exact hlevel ▸ hidle j (ne_of_stage (by simp [CallPhase.stage]) hj).2
    · exact (h.localAt l).other (hlevel ▸ hl) (clearFree_get?_of_ne hl) rfl

/-- The election read answers. -/
lemma Sim.adopt {e : ElectionRecord} (h : Sim calls s₀ s order) (hphase : s.phase i = .asking)
    (hcall : calls i = .decide r level networkId id)
    (hshared : ArbiterState.sharedElection s.state.hookingMemory (nowMillis r.read) level
      networkId = some e)
    (hstate : state = if answerBeside level e.networkId e.evaluateEnterId networkId id =
      .accepted level then s.state.elect level ⟨networkId, id, r.granted, none⟩ else s.state)
    (hlocked : Locked calls (s.move i state none .ended)) :
    ∃ order', Sim calls s₀ (s.move i state none .ended) order' := by
  have hlevel : (calls i).level = level := by rw [hcall]; rfl
  have hstage : (s.phase i).stage = .asking := by rw [hphase]; rfl
  obtain ⟨hnone, hfree, hidle⟩ := h.free_of_asking hstage hcall
  have hexec := (congrArg (after calls s₀ order).exec hcall).trans
    (exec_of_adopt hfree ((sharedElection_congr h.memory).trans hshared))
  have hmem : state.hookingMemory = s.state.hookingMemory := by
    rw [hstate]
    split <;> rfl
  refine h.push_decide hlocked (h.reads.keep hmem (by simp) (by simp))
    (by simp [hphase, CallPhase.Settled]) (h.locked.holder i (.inr (.inl hstage)))
    (hlevel ▸ hidle) ?_ ?_ ?_
  · have hleft : ((after calls s₀ order).exec (calls i)).hookingMemory =
        (after calls s₀ order).hookingMemory := by
      rw [hexec]
      split
      · exact clearFree_hookingMemory
      · exact clearFree_hookingMemory
    rw [hleft, hmem]
    exact h.memory
  · rintro l hl
    rw [hstate]
    split
    · exact elect_get?_of_ne (hlevel ▸ hl)
    · rfl
  · rw [hexec, hlevel, hstate]
    split
    · rw [ArbiterState.slot, ArbiterState.slot, elect_get?, elect_get?]
    · rw [slot_eq_none_iff.mpr hnone, slot_eq_none_iff.mpr hfree]

/-- The election is written: from here on it has taken effect. -/
lemma Sim.grant {mem : HookingMemory} (h : Sim calls s₀ s order) (hturn : InTurn calls s i)
    (hphase : s.phase i = .granting mem) (hcall : calls i = .decide r level networkId id)
    (hlocked : Locked calls (s.move i (s.state.write
      (some (mem.elect level ⟨networkId, id, nowMillis r.read, none⟩))) holder .granted)) :
    ∃ order', Sim calls s₀ (s.move i (s.state.write
      (some (mem.elect level ⟨networkId, id, nowMillis r.read, none⟩))) holder .granted) order' := by
  have hlevel : (calls i).level = level := by rw [hcall]; rfl
  have hstage : (s.phase i).stage = .asking := by rw [hphase]; rfl
  obtain ⟨hnone, hfree, hidle⟩ := h.free_of_asking hstage hcall
  obtain ⟨hread, hshared⟩ := h.reads.granting i mem hphase
  have hmem : (after calls s₀ order).hookingMemory.Agrees mem :=
    fun l => (h.memory l).trans (hread l)
  have hexec := (congrArg (after calls s₀ order).exec hcall).trans
    (exec_of_grant hfree ((sharedElection_congr hmem).trans (hshared _ _ _ _ hcall)))
  refine h.push_at hlocked (reads_of_alone (hturn.alone ⟨mem, by rw [hphase]; rfl⟩)
    fun mem' hno => hno) (by simp [hphase, CallPhase.Settled]) (.inl rfl) ?_ (by simp) ?_
  · rw [hexec]
    exact hmem.elect _
  · rw [hlevel, hexec]
    refine .granted i (by simp [CallPhase.stage]) hcall (by simpa using hnone) elect_get?
      fun j hj => ?_
    exact hidle j (ne_of_stage (by simp [CallPhase.stage]) hj).2

/-- It is noted locally. -/
lemma Sim.finish (h : Sim calls s₀ s order) (hphase : s.phase i = .granted)
    (hcall : calls i = .decide r level networkId id)
    (hlocked : Locked calls
      (s.move i (s.state.elect level ⟨networkId, id, r.granted, none⟩) none .ended)) :
    Sim calls s₀ (s.move i (s.state.elect level ⟨networkId, id, r.granted, none⟩) none .ended)
      order := by
  have hlevel : (calls i).level = level := by rw [hcall]; rfl
  have hstage : (s.phase i).stage = .granted := by rw [hphase]; rfl
  have hmine := h.locked.holder i (.inr (.inr hstage))
  refine ⟨hlocked, h.reads.keep rfl (by simp) (by simp), h.nodup,
    h.mem_keep (by simp [hphase, CallPhase.Settled]), h.memory, fun l => ?_⟩
  by_cases hl : l = level
  · subst hl
    cases h.localAt l with
    | asking j hj =>
        obtain rfl := h.locked.decides hmine (.inl hj)
        rw [hstage] at hj
        cases hj
    | granted j hj hcall' hnone hgranted hidle =>
        obtain rfl := h.locked.decides hmine (.inr hj)
        obtain ⟨rfl, -, rfl, rfl⟩ := ArbiterCall.decide.inj (hcall.symm.trans hcall')
        refine h.settle hmine hidle ?_
        rw [ArbiterState.slot, ArbiterState.slot, elect_get?, hgranted]
    | settled hno => exact absurd hlevel (hno i (.inr hstage))
  · exact (h.localAt l).other (hlevel ▸ hl) (elect_get?_of_ne hl) rfl

end Decides

/-- A report notes its local half. -/
lemma Sim.update (h : Sim calls s₀ s order) (hphase : s.phase i = .locked)
    (hlocked : Locked calls (s.move i (s.state.updateLocal (calls i)) none .updated)) :
    Sim calls s₀ (s.move i (s.state.updateLocal (calls i)) none .updated) order := by
  have hmine := h.locked.holder i (.inl hphase)
  have hmem : (s.state.updateLocal (calls i)).hookingMemory = s.state.hookingMemory := by
    rw [ArbiterState.hookingMemory, updateLocal_memory, ArbiterState.hookingMemory]
  refine ⟨hlocked, h.reads.keep hmem (by simp) (by simp), h.nodup,
    h.mem_keep (by simp [hphase, CallPhase.Settled]), ?_, fun level => ?_⟩
  · rw [move_state, hmem]
    exact h.memory
  · by_cases hl : level = (calls i).level
    · refine (h.localAt level).enter fun j hj => ?_
      obtain rfl := h.locked.decides hmine hj
      simp [hphase, CallPhase.stage] at hj
    · exact (h.localAt level).other hl (updateLocal_get?_of_ne hl) rfl

/-- **One step in turn.**  The calls that have taken effect keep their order, and the call that
moves may join them as the last one. -/
theorem Sim.step (h : Sim calls s₀ s order) (hturn : InTurn calls s i) (hstep : Step calls i s s') :
    ∃ order', Sim calls s₀ s' order' := by
  have hlocked := hstep.locked h.locked
  cases hstep with
  | lock hphase hfree =>
      exact ⟨order, hlocked, h.reads.keep rfl (by simp) (by simp), h.nodup,
        h.mem_keep (by simp [hphase, CallPhase.Settled]), h.memory,
        fun level => (h.localAt level).same (by rw [hphase]; rfl) rfl⟩
  | answer hphase hcall hlocal => exact h.answer hturn hphase hcall hlocal hlocked
  | ask hphase hcall hlocal => exact ⟨order, h.ask hturn hphase hcall hlocal hlocked⟩
  | adopt hphase hcall hshared => exact h.adopt hphase hcall hshared rfl hlocked
  | @read r l networkId asker hphase hcall hshared =>
      refine ⟨order, hlocked, h.reads.keep rfl ?_ (by simp), h.nodup,
        h.mem_keep (by simp [hphase, CallPhase.Settled]), h.memory,
        fun level => (h.localAt level).same (by rw [hphase]; rfl) rfl⟩
      rintro mem ⟨⟩
      refine ⟨fun _ => rfl, fun r' l' networkId' asker' hcall' => ?_⟩
      obtain ⟨rfl, rfl, rfl, -⟩ := ArbiterCall.decide.inj (hcall.symm.trans hcall')
      exact hshared
  | grant hphase hcall => exact h.grant hturn hphase hcall hlocked
  | finish hphase hcall => exact ⟨order, h.finish hphase hcall hlocked⟩
  | update hphase hreport => exact ⟨order, h.update hphase hlocked⟩
  | skip hphase hmem =>
      have hhalf : (s.phase i).stage = .halfway := by rw [hphase]; rfl
      exact h.push_report hlocked (h.reads.keep rfl (by simp) (by simp)) hhalf rfl
        fun level => (recordAfter_of_updatedMemory (h.locked.report i hhalf) hmem).symm
  | @fetch mem hphase hmem =>
      refine ⟨order, hlocked, h.reads.keep rfl (by simp) ?_, h.nodup,
        h.mem_keep (by simp [hphase, CallPhase.Settled]), h.memory,
        fun level => (h.localAt level).same (by rw [hphase]; rfl) rfl⟩
      rintro mem' ⟨⟩ level
      exact elections_of_updatedMemory hmem
  | @store mem hphase =>
      have hhalf : (s.phase i).stage = .halfway := by rw [hphase]; rfl
      exact h.push_report hlocked (reads_of_alone (hturn.alone ⟨mem, by rw [hphase]; rfl⟩)
        fun mem' hno => hno) hhalf (by simp) (h.reads.writing i mem hphase)

omit [DecidableEq ι] in
/-- The record is written from outside, with the elections it has. -/
lemma Sim.place (h : Sim calls s₀ s order) (helected : state.elected = s.state.elected)
    (hmem : state.hookingMemory.Agrees s.state.hookingMemory) :
    Sim calls s₀ (s.place state) order where
  locked := ⟨h.locked.holder, h.locked.report⟩
  reads := by
    refine ⟨fun j mem hj => ?_, fun j mem hj level => ?_⟩
    · obtain ⟨hread, hshared⟩ := h.reads.granting j mem hj
      exact ⟨fun level => (hmem level).trans (hread level), hshared⟩
    · exact (h.reads.writing j mem hj level).trans (congrArg _ (hmem level).symm)
  nodup := h.nodup
  mem_order := h.mem_order
  memory level := (h.memory level).trans (hmem level).symm
  localAt level := (h.localAt level).congr (fun _ _ => rfl)
    (congrArg (fun m => m.get? level) helected) rfl

/-- A call in turn writes of the record what is its own level's. -/
lemma Reads.step_elections (h : Reads calls s) (hstep : Step calls i s s')
    (hlevel : level ≠ (calls i).level) :
    s'.state.hookingMemory.elections.get? level = s.state.hookingMemory.elections.get? level := by
  cases hstep with
  | lock => rfl
  | answer hphase hcall hlocal => simp only [move_state, clearFree_hookingMemory]
  | ask hphase hcall hlocal => simp only [move_state, clearFree_hookingMemory]
  | adopt hphase hcall hshared =>
      simp only [move_state]
      split <;> rfl
  | read => rfl
  | grant hphase hcall =>
      refine Eq.trans ?_ ((h.granting i _ hphase).1 level).symm
      rw [hcall] at hlevel
      exact KeyedMap.get?_insert_of_ne _ _ hlevel
  | finish => rfl
  | update => simp only [move_state, ArbiterState.hookingMemory, updateLocal_memory]
  | skip => rfl
  | fetch => rfl
  | store hphase =>
      exact (h.writing i _ hphase level).trans (recordAfter_of_ne hlevel)

end Steps

/-! ## Runs -/

section Runs

variable {ι : Type} [DecidableEq ι] {calls : ι → ArbiterCall} {s₀ : ArbiterState}
  {s : Arbitration ι} {i : ι}

/-- The states that can be reached, when each step is one that `turn` lets the calls take and what
comes from outside is what `brings` lets come. -/
def Arbitration.Run (calls : ι → ArbiterCall) (turn : Arbitration ι → ι → Prop)
    (brings : ArbiterState → Option HookingMemory → Prop) (s₀ : ArbiterState)
    (s : Arbitration ι) : Prop :=
  Relation.ReflTransGen (Happens calls turn brings) (.start s₀) s

/-- In a run in turn, some calls have taken effect, one after the other. -/
lemma Arbitration.Run.sim
    (hrun : Run calls (InTurn calls) ArbiterState.SameElections s₀ s) :
    ∃ order, Sim calls s₀ s order := by
  induction hrun with
  | refl => exact ⟨[], sim_start⟩
  | tail _ hstep ih =>
      obtain ⟨order, hsim⟩ := ih
      cases hstep with
      | call i hturn hstep => exact hsim.step hturn hstep
      | replicate => exact ⟨order, hsim.place rfl fun _ => rfl⟩
      | replica copy hsent hbrings => exact ⟨order, hsim.place rfl hbrings⟩
      | setMemory data hbrings => exact ⟨order, hsim.place rfl hbrings⟩

/-- A call is in turn while no other stands between its read and its write, nor halfway at its
level. -/
lemma inTurn_of_others (hread : ∀ j, j ≠ i → ∀ mem, ¬(s.phase j).Holds mem)
    (hhalf : ∀ j, j ≠ i → (s.phase j).stage = .halfway → (calls j).level ≠ (calls i).level) :
    InTurn calls s i where
  alone := by
    rintro - j mem hj
    by_contra hji
    exact hread j hji mem hj
  whole := by
    intro hlocked _ j hj
    have hji : j ≠ i := by
      rintro rfl
      simp [hlocked, CallPhase.stage] at hj
    exact hhalf j hji hj

/-- **No update is lost.**  In every run in which no call writes the record while another stands
between its read and its write, no `decide` looks at a level whose report is half done, and what is
written from outside has the elections that the record has: a step leaves the elections of the other
levels in the record; and when all calls have ended, the record is what they leave one after the
other. -/
theorem record_sequential
    (hrun : Arbitration.Run calls (InTurn calls) ArbiterState.SameElections s₀ s) :
    (∀ i s', Arbitration.Step calls i s s' → ∀ level, level ≠ (calls i).level →
      s'.state.hookingMemory.elections.get? level =
        s.state.hookingMemory.elections.get? level) ∧
    ((∀ i, s.phase i = .ended) → Sequential calls s₀ s.state) := by
  obtain ⟨order, hsim⟩ := hrun.sim
  refine ⟨fun i s' hstep level hlevel => hsim.reads.step_elections hstep hlevel, fun hend => ?_⟩
  refine ⟨order, hsim.nodup, fun i => (hsim.mem_order i).mpr (.inr (hend i)), fun level => ?_⟩
  exact (hsim.memory level).symm

end Runs

/-- A `decide` at level 1, a `release` of level 2 and a `complete` at level 3. -/
def threeCalls : Fin 3 → ArbiterCall :=
  ![.decide (.atMs 5) 1 42 1, .release 0 2, .complete (6 * 1000000) (6 * 1000000) 3]

/-- Elections stand at levels 2 and 3. -/
def electedAbove : ArbiterState :=
  .new (some ((HookingMemory.default.elect 2 ⟨7, 1, 1, none⟩).elect 3 ⟨8, 2, 2, none⟩))

/-- The reports have noted their local halves when the election is asked for; the level is given back
in the record before it is read for the election, and a copy of the record comes back; and the
completion is written at the end. -/
theorem record_sequential_three : ∃ s : Arbitration (Fin 3),
    (∀ i, s.phase i = .ended) ∧ Sequential threeCalls electedAbove s.state ∧
    s.state.hookingMemory.elections.get? 1 = some ⟨42, 1, 5, none⟩ ∧
    s.state.hookingMemory.elections.get? 2 = none ∧
    s.state.hookingMemory.elections.get? 3 = some ⟨8, 2, 2, some 6⟩ := by
  have hrun : ∃ s, Arbitration.Run threeCalls (InTurn threeCalls) ArbiterState.SameElections
      electedAbove s ∧ (∀ i, s.phase i = .ended) ∧
      s.state.hookingMemory.elections.get? 1 = some ⟨42, 1, 5, none⟩ ∧
      s.state.hookingMemory.elections.get? 2 = none ∧
      s.state.hookingMemory.elections.get? 3 = some ⟨8, 2, 2, some 6⟩ := by
    refine ⟨_, ((((((((((((((Relation.ReflTransGen.refl.tail
      (.call 1 (inTurn_of_others ?_ ?_) (.lock _ rfl rfl))).tail
      (.call 1 (inTurn_of_others ?_ ?_) (.update _ rfl trivial))).tail
      (.call 2 (inTurn_of_others ?_ ?_) (.lock _ rfl rfl))).tail
      (.call 2 (inTurn_of_others ?_ ?_) (.update _ rfl trivial))).tail
      (.call 0 (inTurn_of_others ?_ ?_) (.lock _ rfl rfl))).tail
      (.call 0 (inTurn_of_others ?_ ?_) (.ask _ rfl rfl rfl))).tail
      (.call 1 (inTurn_of_others ?_ ?_) (.fetch _ rfl rfl))).tail
      (.call 1 (inTurn_of_others ?_ ?_) (.store _ rfl))).tail
      (.replica _ _ (List.Mem.head _) fun _ => rfl)).tail
      (.call 0 (inTurn_of_others ?_ ?_) (.read _ rfl rfl rfl))).tail
      (.call 0 (inTurn_of_others ?_ ?_) (.grant _ rfl rfl))).tail
      (.call 0 (inTurn_of_others ?_ ?_) (.finish _ rfl rfl))).tail
      (.call 2 (inTurn_of_others ?_ ?_) (.fetch _ rfl rfl))).tail
      (.call 2 (inTurn_of_others ?_ ?_) (.store _ rfl))), ?_, rfl, rfl, rfl⟩
    all_goals
      intro j
      fin_cases j
      all_goals first
        | rfl
        | exact fun hne => absurd rfl hne
        | exact fun _ _ hholds => hholds
        | exact fun _ hstage => absurd hstage (by decide)
        | exact fun _ _ => by decide
  obtain ⟨s, hrun, hend, hleft⟩ := hrun
  exact ⟨s, hend, (record_sequential hrun).2 hend, hleft⟩

/-- A `release` of level 2, and a `decide` at level 1. -/
def twoCalls : Fin 2 → ArbiterCall := ![.release 0 2, .decide (.atMs 5) 1 42 1]

/-- An election stands at level 2. -/
def electedAtTwo : ArbiterState :=
  .new (some (HookingMemory.default.elect 2 ⟨7, 1, 1, none⟩))

/-- One after the other, in whatever order, the two calls leave the election of level 1. -/
lemma election_of_sequential {s : ArbiterState} (h : Sequential twoCalls electedAtTwo s) :
    s.hookingMemory.elections.get? 1 = some ⟨42, 1, 5, none⟩ := by
  obtain ⟨order, hnodup, hmem, hleft⟩ := h
  have hperm : order.Perm [0, 1] :=
    (List.perm_ext_iff_of_nodup hnodup (by simp)).mpr fun i => by
      fin_cases i <;> simp [hmem]
  rw [← List.mem_permutations'] at hperm
  simp only [List.permutations', List.permutations'Aux, List.flatMap_cons, List.flatMap_nil,
    List.map_cons, List.map_nil, List.append_nil, List.mem_cons, List.not_mem_nil,
    or_false] at hperm
  rcases hperm with rfl | rfl
  · exact (hleft 1).trans rfl
  · exact (hleft 1).trans rfl

/-- `release` reads the record, `decide` writes its election of another level, and `release` writes
back what it read: the election is lost. -/
theorem not_record_sequential : ¬ ∀ (ι : Type) [DecidableEq ι] (calls : ι → ArbiterCall)
    (s₀ : ArbiterState) (s : Arbitration ι),
    Arbitration.Run calls (fun _ _ => True) ArbiterState.SameElections s₀ s →
      (∀ i, s.phase i = .ended) → Sequential calls s₀ s.state := by
  intro h
  have hrun : ∃ s, Arbitration.Run twoCalls (fun _ _ => True) ArbiterState.SameElections
      electedAtTwo s ∧
      (∀ i, s.phase i = .ended) ∧ s.state.hookingMemory.elections.get? 1 = none := by
    refine ⟨_, (((((((((Relation.ReflTransGen.refl.tail
      (.call 0 trivial (.lock _ rfl rfl))).tail
      (.call 0 trivial (.update _ rfl trivial))).tail
      (.call 0 trivial (.fetch _ rfl rfl))).tail
      (.call 1 trivial (.lock _ rfl rfl))).tail
      (.call 1 trivial (.ask _ rfl rfl rfl))).tail
      (.call 1 trivial (.read _ rfl rfl rfl))).tail
      (.call 1 trivial (.grant _ rfl rfl))).tail
      (.call 1 trivial (.finish _ rfl rfl))).tail
      (.call 0 trivial (.store _ rfl))), fun i => ?_, rfl⟩
    fin_cases i <;> rfl
  obtain ⟨s, hrun, hend, hlost⟩ := hrun
  have hkept := election_of_sequential (h (Fin 2) twoCalls electedAtTwo s hrun hend)
  rw [hlost] at hkept
  cases hkept

/-- One call after the other, and the copy sent by the first comes back after the second: the
election is lost too. -/
lemma lost_to_replica : ∃ s, Arbitration.Run twoCalls (InTurn twoCalls) (fun _ _ => True)
    electedAtTwo s ∧ (∀ i, s.phase i = .ended) ∧ ¬ Sequential twoCalls electedAtTwo s.state := by
  have hrun : ∃ s, Arbitration.Run twoCalls (InTurn twoCalls) (fun _ _ => True) electedAtTwo s ∧
      (∀ i, s.phase i = .ended) ∧ s.state.hookingMemory.elections.get? 1 = none := by
    refine ⟨_, ((((((((((Relation.ReflTransGen.refl.tail
      (.call 0 (inTurn_of_others ?_ ?_) (.lock _ rfl rfl))).tail
      (.call 0 (inTurn_of_others ?_ ?_) (.update _ rfl trivial))).tail
      (.call 0 (inTurn_of_others ?_ ?_) (.fetch _ rfl rfl))).tail
      (.call 0 (inTurn_of_others ?_ ?_) (.store _ rfl))).tail
      (.call 1 (inTurn_of_others ?_ ?_) (.lock _ rfl rfl))).tail
      (.call 1 (inTurn_of_others ?_ ?_) (.ask _ rfl rfl rfl))).tail
      (.call 1 (inTurn_of_others ?_ ?_) (.read _ rfl rfl rfl))).tail
      (.call 1 (inTurn_of_others ?_ ?_) (.grant _ rfl rfl))).tail
      (.call 1 (inTurn_of_others ?_ ?_) (.finish _ rfl rfl))).tail
      (.replica _ _ (List.Mem.tail _ (List.Mem.head _)) trivial)), ?_, rfl⟩
    all_goals
      intro j
      fin_cases j
      all_goals first
        | rfl
        | exact fun hne => absurd rfl hne
        | exact fun _ _ hholds => hholds
        | exact fun _ hstage => absurd hstage (by decide)
  obtain ⟨s, hrun, hend, hlost⟩ := hrun
  refine ⟨s, hrun, hend, fun hseq => ?_⟩
  rw [election_of_sequential hseq] at hlost
  cases hlost

end Netsukuku.Hooking
