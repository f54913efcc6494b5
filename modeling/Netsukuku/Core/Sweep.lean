import Mathlib

/-!
# Sweeps

Removing a list of items from a store one call after the other, where a call may fail.  A failure
is forgiven when the item was gone anyway; any other ends the sweep where it is.

* `andThen` — a call, and what follows if it does not fail.
* `sweep` — the loop, with what it removed.
* `sweep_inv` — what every call keeps, a sweep keeps, whether it fails or not.
* `Removes.sweep_ok` — a sweep of the items that satisfy `p`, when it does not fail, leaves the
  others and reports all of them.
* `sweep_succeeds` — when it does not fail.
-/

section Sweep

variable {σ α β ε : Type}

/-! ## One call after the other -/

/-- One call after the other; a failure ends both. -/
def andThen (r : σ × Except ε α) (f : σ → α → σ × Except ε β) : σ × Except ε β :=
  match r with
  | (s, .ok a) => f s a
  | (s, .error e) => (s, .error e)

@[simp] lemma andThen_ok (s : σ) (a : α) (f : σ → α → σ × Except ε β) :
    andThen (s, .ok a) f = f s a := rfl

@[simp] lemma andThen_error (s : σ) (e : ε) (f : σ → α → σ × Except ε β) :
    andThen (s, .error e) f = (s, .error e) := rfl

lemma andThen_eq_ok {r : σ × Except ε α} {f : σ → α → σ × Except ε β} {s : σ} {b : β} :
    andThen r f = (s, .ok b) ↔ ∃ s₁ a, r = (s₁, .ok a) ∧ f s₁ a = (s, .ok b) := by
  obtain ⟨s₁, e | a⟩ := r
  · simp
  · simp

/-- What both calls keep. -/
lemma andThen_inv {P : σ → Prop} {r : σ × Except ε α} {f : σ → α → σ × Except ε β} (hr : P r.1)
    (hf : ∀ s a, r = (s, .ok a) → P s → P (f s a).1) : P (andThen r f).1 := by
  obtain ⟨s, e | a⟩ := r
  · exact hr
  · exact hf s a rfl hr

/-! ## The loop -/

/-- Removes the items one after the other, and reports those that were removed. -/
def sweep (remove : σ → α → σ × Except ε Unit) (forgive : ε → Bool) :
    σ → List α → σ × Except ε (List α)
  | s, [] => (s, .ok [])
  | s, x :: rest =>
      match remove s x with
      | (s', .ok ()) =>
          let (s'', removed) := sweep remove forgive s' rest
          (s'', removed.map (x :: ·))
      | (s', .error e) => if forgive e then sweep remove forgive s' rest else (s', .error e)

variable {remove : σ → α → σ × Except ε Unit} {forgive : ε → Bool} {s s' : σ} {x : α}
  {rest targets : List α}

/-- The first item, and then the others. -/
lemma sweep_cons_ok (h : remove s x = (s', .ok ())) :
    sweep remove forgive s (x :: rest) =
      ((sweep remove forgive s' rest).1, (sweep remove forgive s' rest).2.map (x :: ·)) := by
  simp only [sweep, h]

lemma sweep_cons_error {e : ε} (h : remove s x = (s', .error e)) :
    sweep remove forgive s (x :: rest) =
      if forgive e then sweep remove forgive s' rest else (s', .error e) := by
  simp only [sweep, h]

/-- What every call keeps, a sweep keeps. -/
theorem sweep_inv {P : σ → Prop} :
    ∀ {targets : List α}, (∀ s, ∀ x ∈ targets, P s → P (remove s x).1) →
      ∀ {s : σ}, P s → P (sweep remove forgive s targets).1 := by
  intro targets
  induction targets with
  | nil =>
      intro _ s hs
      exact hs
  | cons x rest ih =>
      intro h s hs
      have hrest : ∀ {s' : σ}, P s' → P (sweep remove forgive s' rest).1 :=
        ih fun s' y hy => h s' y (List.mem_cons_of_mem x hy)
      have hone := h s x List.mem_cons_self hs
      rcases hcall : remove s x with ⟨s', e | _⟩
      · rw [hcall] at hone
        rw [sweep_cons_error hcall]
        split_ifs
        · exact hrest hone
        · exact hone
      · rw [hcall] at hone
        rw [sweep_cons_ok hcall]
        exact hrest hone

variable [DecidableEq α]

/-- What one call on an item that satisfies `p` does, in a store with `inv`: it removes the item, or
changes nothing and fails in a way that is not forgiven. -/
structure Removes (inv : σ → Prop) (items : σ → List α) (p : α → Bool)
    (remove : σ → α → σ × Except ε Unit) (forgive : ε → Bool) : Prop where
  keeps : ∀ {s x}, inv s → inv (remove s x).1
  removed : ∀ {s x s'}, inv s → x ∈ items s → p x = true → remove s x = (s', .ok ()) →
    items s' = (items s).erase x
  failed : ∀ {s x s' e}, inv s → x ∈ items s → p x = true → remove s x = (s', .error e) →
    forgive e = false

variable {inv : σ → Prop} {items : σ → List α} {p : α → Bool}

/-- A call removes the item, or it fails and is forgiven only where the item was gone. -/
lemma Removes.of_call (hkeeps : ∀ {s x}, inv s → inv (remove s x).1)
    (hcall : ∀ {s x s' r}, inv s → x ∈ items s → p x = true → remove s x = (s', r) →
      (r = .ok () ∧ items s' = (items s).erase x) ∨
        ∃ e, r = .error e ∧ (forgive e = true → x ∉ items s)) :
    Removes inv items p remove forgive := by
  refine ⟨hkeeps, ?_, ?_⟩
  · intro s x s' hs hx hp hrun
    rcases hcall hs hx hp hrun with ⟨-, hitems⟩ | ⟨e, he, -⟩
    · exact hitems
    · cases he
  · intro s x s' e hs hx hp hrun
    rcases hcall hs hx hp hrun with ⟨hok, -⟩ | ⟨e', he, hgone⟩
    · cases hok
    · cases he
      exact Bool.eq_false_iff.mpr fun hforgive => hgone hforgive hx

/-- Removing the first of the items that satisfy `p`. -/
lemma filter_of_removed (hx : (items s).filter p = x :: rest)
    (h : items s' = (items s).erase x) :
    (items s').filter p = rest ∧ (items s').filter (!p ·) = (items s).filter (!p ·) := by
  have hp : p x = true := List.of_mem_filter (hx ▸ List.mem_cons_self)
  constructor
  · rw [h, ← List.erase_filter, hx, List.erase_cons_head]
  · rw [h, ← List.erase_filter, List.erase_of_not_mem]
    simp [hp]

/-- **A sweep of the items that satisfy `p`**, when it does not fail. -/
theorem Removes.sweep_ok (h : Removes inv items p remove forgive) :
    ∀ {targets : List α} {s s' : σ} {removed : List α}, inv s → (items s).filter p = targets →
      sweep remove forgive s targets = (s', .ok removed) →
      removed = targets ∧ items s' = (items s).filter (!p ·) := by
  intro targets
  induction targets with
  | nil =>
      intro s s' removed _ htargets hsweep
      cases hsweep
      refine ⟨rfl, (List.filter_eq_self.mpr ?_).symm⟩
      intro x hx
      simpa using List.filter_eq_nil_iff.mp htargets x hx
  | cons x rest ih =>
      intro s s' removed hs htargets hsweep
      obtain ⟨hmem, hp⟩ : x ∈ items s ∧ p x = true := by
        rw [← List.mem_filter, htargets]
        exact List.mem_cons_self
      rcases hcall : remove s x with ⟨s₁, e | _⟩
      · rw [sweep_cons_error hcall, if_neg (by simp [h.failed hs hmem hp hcall])] at hsweep
        cases hsweep
      · rw [sweep_cons_ok hcall] at hsweep
        obtain ⟨hrest, hothers⟩ := filter_of_removed htargets (h.removed hs hmem hp hcall)
        have hs₁ : inv s₁ := by
          have hkeeps := h.keeps (x := x) hs
          rwa [hcall] at hkeeps
        rcases hrun : sweep remove forgive s₁ rest with ⟨s₂, e | l⟩
        · simp [hrun, Except.map] at hsweep
        · simp only [hrun, Except.map, Prod.mk.injEq, Except.ok.injEq] at hsweep
          obtain ⟨rfl, rfl⟩ := hsweep
          obtain ⟨rfl, hitems⟩ := ih hs₁ hrest hrun
          exact ⟨rfl, hitems.trans hothers⟩

/-- A sweep whose calls all succeed on the items it meets. -/
theorem sweep_succeeds
    (h : ∀ s x, inv s → x ∈ items s → p x = true →
      ∃ s', remove s x = (s', .ok ()) ∧ inv s' ∧ items s' = (items s).erase x) :
    ∀ {targets : List α} {s : σ}, inv s → (items s).filter p = targets →
      ∃ s', sweep remove forgive s targets = (s', .ok targets) ∧ inv s' := by
  intro targets
  induction targets with
  | nil =>
      intro s hs _
      exact ⟨s, rfl, hs⟩
  | cons x rest ih =>
      intro s hs htargets
      obtain ⟨hmem, hp⟩ : x ∈ items s ∧ p x = true := by
        rw [← List.mem_filter, htargets]
        exact List.mem_cons_self
      obtain ⟨s₁, hcall, hs₁, hitems⟩ := h s x hs hmem hp
      obtain ⟨s₂, hrun, hs₂⟩ := ih hs₁ (filter_of_removed htargets hitems).1
      refine ⟨s₂, ?_, hs₂⟩
      rw [sweep_cons_ok hcall, hrun]
      rfl

end Sweep
