import Mathlib

/-!
# A lock that is asked for by message

One server keeps the lock and takes requests and releases from a queue, in the order they were sent.
A client asks, waits for its answer, and works or goes on without the lock.  A release is sent and
not waited for, so that the lock is free only when the server has come to it.

* `TryLock.Step` — one move of a client or of the server.
* `TryLock.Inv` — where the lock is: free, with one client, or on its way back; `inv_step`.
* `TryLock.Inv.exclusive` — two clients never hold it together.
-/

/-- What a client of the lock is doing. -/
inductive LockStatus where
  | idle
  | waiting
  | answered (granted : Bool)
  | holding
  deriving DecidableEq, Repr

/-- What is sent to the server. -/
inductive LockMessage (ι : Type) where
  | request (i : ι)
  | release
  deriving DecidableEq, Repr

/-- The server with its queue, and the clients. -/
structure TryLock (ι : Type) where
  held : Bool
  queue : List (LockMessage ι)
  status : ι → LockStatus

namespace TryLock

variable {ι : Type} [DecidableEq ι]

/-- One move. -/
inductive Step : TryLock ι → TryLock ι → Prop where
  | ask (s : TryLock ι) (i : ι) (h : s.status i = .idle) :
      Step s { s with
        queue := s.queue ++ [.request i], status := Function.update s.status i .waiting }
  | answer (s : TryLock ι) (i : ι) (q : List (LockMessage ι)) (h : s.queue = .request i :: q) :
      Step s ⟨true, q, Function.update s.status i (.answered !s.held)⟩
  | free (s : TryLock ι) (q : List (LockMessage ι)) (h : s.queue = .release :: q) :
      Step s ⟨false, q, s.status⟩
  | enter (s : TryLock ι) (i : ι) (h : s.status i = .answered true) :
      Step s { s with status := Function.update s.status i .holding }
  | giveUp (s : TryLock ι) (i : ι) (h : s.status i = .answered false) :
      Step s { s with status := Function.update s.status i .idle }
  | leave (s : TryLock ι) (i : ι) (h : s.status i = .holding) :
      Step s { s with
        queue := s.queue ++ [.release], status := Function.update s.status i .idle }

/-- The client has the lock, or an answer that gives it. -/
def Owns (s : TryLock ι) (i : ι) : Prop := s.status i = .holding ∨ s.status i = .answered true

/-- Where the lock is. -/
structure Inv (s : TryLock ι) : Prop where
  -- Every request in the queue is of a client that waits, and it is there once.
  asked : ∀ i, s.queue.count (.request i) = if s.status i = .waiting then 1 else 0
  free : s.held = false → (∀ i, ¬ s.Owns i) ∧ s.queue.count .release = 0
  taken : s.held = true → (∃ i, s.Owns i ∧ ∀ j, s.Owns j → j = i) ∧ s.queue.count .release = 0 ∨
    (∀ i, ¬ s.Owns i) ∧ s.queue.count .release = 1

/-- Nobody has asked yet. -/
def start : TryLock ι := ⟨false, [], fun _ => .idle⟩

lemma inv_start : Inv (start : TryLock ι) := by
  refine ⟨?_, ?_, ?_⟩
  · intro i
    simp [start]
  · intro _
    exact ⟨by intro i; simp [start, Owns], rfl⟩
  · intro h
    simp [start] at h

variable {s s' : TryLock ι} {i j : ι}

/-- Two clients never own the lock together. -/
lemma Inv.exclusive (h : s.Inv) (hi : s.Owns i) (hj : s.Owns j) : i = j := by
  cases hheld : s.held with
  | false => exact absurd hi ((h.free hheld).1 i)
  | true =>
      rcases h.taken hheld with ⟨⟨k, -, huniq⟩, -⟩ | ⟨hnone, -⟩
      · rw [huniq i hi, huniq j hj]
      · exact absurd hi (hnone i)

/-- While a client owns the lock, the server holds it as taken and no release is on its way. -/
lemma Inv.held_of_owns (h : s.Inv) (hi : s.Owns i) :
    s.held = true ∧ s.queue.count .release = 0 := by
  cases hheld : s.held with
  | false => exact absurd hi ((h.free hheld).1 i)
  | true =>
      rcases h.taken hheld with ⟨-, hcount⟩ | ⟨hnone, -⟩
      · exact ⟨rfl, hcount⟩
      · exact absurd hi (hnone i)

/-- The invariant does not look beyond who owns the lock and what is in the queue. -/
lemma Inv.of_owns {s₁ : TryLock ι} (h : s.Inv) (hheld : s₁.held = s.held)
    (howns : ∀ j, s₁.Owns j ↔ s.Owns j)
    (hrel : s₁.queue.count .release = s.queue.count .release)
    (hasked : ∀ j, s₁.queue.count (.request j) = if s₁.status j = .waiting then 1 else 0) :
    s₁.Inv := by
  refine ⟨hasked, ?_, ?_⟩
  · intro hfree
    simp only [howns, hrel]
    exact h.free (hheld.symm.trans hfree)
  · intro htaken
    simp only [howns, hrel]
    exact h.taken (hheld.symm.trans htaken)

/-- Nobody's ownership changes when a client that owns nothing goes to a state without the lock. -/
lemma owns_update {st : LockStatus} {q : List (LockMessage ι)} {b : Bool} (hi : ¬ s.Owns i)
    (hhold : st ≠ .holding) (hans : st ≠ .answered true) (j : ι) :
    (⟨b, q, Function.update s.status i st⟩ : TryLock ι).Owns j ↔ s.Owns j := by
  by_cases hji : j = i
  · subst hji
    exact iff_of_false (by simp [Owns, hhold, hans]) hi
  · simp [Owns, Function.update_of_ne hji]

/-- The requests in the queue go with the clients that wait, when one client changes. -/
lemma asked_update {st : LockStatus} {q : List (LockMessage ι)} (h : s.Inv)
    (hq : ∀ j ≠ i, q.count (.request j) = s.queue.count (.request j))
    (hi : q.count (.request i) = if st = .waiting then 1 else 0) (j : ι) :
    q.count (.request j) = if Function.update s.status i st j = .waiting then 1 else 0 := by
  by_cases hji : j = i
  · subst hji
    simpa using hi
  · rw [Function.update_of_ne hji, hq j hji]
    exact h.asked j

/-- A request at the head of the queue is of a client that waits, and no second one follows. -/
lemma Inv.head_request {q : List (LockMessage ι)} (h : s.Inv) (hq : s.queue = .request i :: q) :
    s.status i = .waiting ∧ q.count (.request i) = 0 := by
  have hcount := h.asked i
  rw [hq, List.count_cons_self] at hcount
  split_ifs at hcount with hw
  exact ⟨hw, by omega⟩

lemma inv_ask (h : s.Inv) (hidle : s.status i = .idle) :
    Inv (⟨s.held, s.queue ++ [.request i], Function.update s.status i .waiting⟩ : TryLock ι) := by
  have hown : ¬ s.Owns i := by simp [Owns, hidle]
  refine h.of_owns rfl (owns_update hown nofun nofun) (by simp) (asked_update h ?_ ?_)
  · intro j hji
    simp [hji.symm]
  · have hcount := h.asked i
    simp only [hidle, reduceCtorEq, if_false] at hcount
    simp [hcount]

lemma inv_answer {q : List (LockMessage ι)} (h : s.Inv) (hq : s.queue = .request i :: q) :
    Inv (⟨true, q, Function.update s.status i (.answered !s.held)⟩ : TryLock ι) := by
  obtain ⟨hwait, hlast⟩ := h.head_request hq
  have hown : ¬ s.Owns i := by simp [Owns, hwait]
  have hrel : q.count .release = s.queue.count .release := by simp [hq]
  have hasked : ∀ j, q.count (.request j) =
      if Function.update s.status i (.answered !s.held) j = .waiting then 1 else 0 :=
    asked_update h (fun j hji => by simp [hq, hji.symm]) (by simpa using hlast)
  cases hheld : s.held with
  | false =>
      obtain ⟨hnone, hzero⟩ := h.free hheld
      refine ⟨by simpa [hheld] using hasked, by simp, ?_⟩
      intro _
      refine Or.inl ⟨⟨i, Or.inr (by simp), ?_⟩, hrel.trans hzero⟩
      intro j hj
      by_contra hji
      have hj' : s.Owns j := by simpa [Owns, Function.update_of_ne hji] using hj
      exact hnone j hj'
  | true =>
      refine h.of_owns hheld.symm (owns_update hown nofun nofun) hrel ?_
      simpa [hheld] using hasked

lemma inv_free {q : List (LockMessage ι)} (h : s.Inv) (hq : s.queue = .release :: q) :
    Inv (⟨false, q, s.status⟩ : TryLock ι) := by
  have hrel : s.queue.count .release = q.count .release + 1 := by simp [hq]
  have hnone : (∀ i, ¬ s.Owns i) ∧ q.count .release = 0 := by
    cases hheld : s.held with
    | false =>
        have hzero := (h.free hheld).2
        omega
    | true =>
        rcases h.taken hheld with ⟨-, hzero⟩ | ⟨hnone, hone⟩
        · omega
        · exact ⟨hnone, by omega⟩
  refine ⟨?_, fun _ => hnone, by simp⟩
  intro j
  have hcount := h.asked j
  simpa [hq] using hcount

/-- A client that takes up what it was granted owned the lock before. -/
lemma inv_enter (h : s.Inv) (hans : s.status i = .answered true) :
    Inv (⟨s.held, s.queue, Function.update s.status i .holding⟩ : TryLock ι) := by
  refine h.of_owns rfl ?_ rfl (asked_update h (fun j _ => rfl) ?_)
  · intro j
    by_cases hji : j = i
    · subst hji
      simp [Owns, hans]
    · simp [Owns, Function.update_of_ne hji]
  · have hcount := h.asked i
    simpa [hans] using hcount

lemma inv_giveUp (h : s.Inv) (hans : s.status i = .answered false) :
    Inv (⟨s.held, s.queue, Function.update s.status i .idle⟩ : TryLock ι) := by
  have hown : ¬ s.Owns i := by simp [Owns, hans]
  refine h.of_owns rfl (owns_update hown nofun nofun) rfl (asked_update h (fun j _ => rfl) ?_)
  have hcount := h.asked i
  simpa [hans] using hcount

lemma inv_leave (h : s.Inv) (hhold : s.status i = .holding) :
    Inv (⟨s.held, s.queue ++ [.release], Function.update s.status i .idle⟩ : TryLock ι) := by
  obtain ⟨hheld, hzero⟩ := h.held_of_owns (Or.inl hhold)
  have hrel : (s.queue ++ [LockMessage.release]).count LockMessage.release = 1 := by simp [hzero]
  have hnone : ∀ j, ¬ (⟨s.held, s.queue ++ [.release],
      Function.update s.status i .idle⟩ : TryLock ι).Owns j := by
    intro j hj
    by_cases hji : j = i
    · subst hji
      simp [Owns] at hj
    · have hj' : s.Owns j := by simpa [Owns, Function.update_of_ne hji] using hj
      exact hji (h.exclusive hj' (Or.inl hhold))
  refine ⟨asked_update h (fun j _ => by simp) ?_, ?_, fun _ => Or.inr ⟨hnone, hrel⟩⟩
  · have hcount := h.asked i
    simpa [hhold] using hcount
  · intro hfree
    exact absurd (hheld.symm.trans hfree) nofun

/-- Every move keeps track of the lock. -/
theorem inv_step (h : s.Inv) (hstep : Step s s') : s'.Inv := by
  cases hstep with
  | ask i hidle => exact inv_ask h hidle
  | answer i q hq => exact inv_answer h hq
  | free q hq => exact inv_free h hq
  | enter i hans => exact inv_enter h hans
  | giveUp i hans => exact inv_giveUp h hans
  | leave i hhold => exact inv_leave h hhold

end TryLock
