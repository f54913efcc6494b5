import Mathlib

/-!
# Computations that return, fail or panic

A fallible function of the source ends in one of three ways: it returns a value, it returns
`Err(e)`, or it panics (a failed `expect`, an assertion, an index out of bounds).  The first two
are ordinary results the caller sees; the third ends the task.  `Outcome ε α` keeps the three
apart, so that "never returns `Err` and never panics" is a statement about one value.

* `Outcome.expect`, `Outcome.index`, `Outcome.slice`, `Outcome.assert`, and the checked arithmetic —
  the panicking primitives, each naming its site.
* `Outcome.mapErr` — change the error type and leave a panic alone (`map_err`).
* `PanicsOnly` — the sites at which a computation can panic; `OverflowOnly` is that of the checked
  additions and multiplications.
* `foldlM_ok`, `loop_ok` — the loop rules: a loop whose body cannot fail on the states an
  invariant allows does not fail, and ends in such a state.  `foldlM` discards its accumulator on
  failure, `Outcome.loop` keeps it, as a loop over `&mut self` does.
-/

/-- Why a computation did not return a value. -/
inductive Fault (ε : Type) where
  | err (e : ε)
  | panic (site : String)
  deriving DecidableEq, Repr

/-- A computation that returns `α`, fails with `ε`, or panics. -/
abbrev Outcome (ε α : Type) := Except (Fault ε) α

namespace Outcome

variable {ε δ α β σ : Type}

/-- `Err(e)`. -/
def fail (e : ε) : Outcome ε α := .error (.err e)

/-- `expect`: a missing value is a panic. -/
def expect (site : String) : Option α → Outcome ε α
  | some a => .ok a
  | none => .error (.panic site)

/-- `l[i]`: an index out of bounds is a panic. -/
def index (l : List α) (i : ℕ) : Outcome ε α := expect "index out of bounds" l[i]?

/-- `assert!`. -/
def assert (site : String) (c : Bool) : Outcome ε Unit :=
  if c then .ok () else .error (.panic site)

/-- `expect` on a result: an error is a panic too. -/
def unwrap (site : String) : Outcome δ α → Outcome ε α
  | .ok a => .ok a
  | .error (.err _) => .error (.panic site)
  | .error (.panic s) => .error (.panic s)

/-- A result that is only logged: an error leaves the mutated state, a panic still ends the
task. -/
def attempt : σ × Outcome δ α → Outcome ε (σ × Option α)
  | (s, .ok a) => .ok (s, some a)
  | (s, .error (.err _)) => .ok (s, none)
  | (_, .error (.panic site)) => .error (.panic site)

/-- Addition of `w`-bit unsigned integers: overflow is a panic. -/
def checkedAdd (w a b : ℕ) : Outcome ε ℕ :=
  if a + b < 2 ^ w then .ok (a + b) else .error (.panic "attempt to add with overflow")

/-- Subtraction of unsigned integers: a negative result is a panic. -/
def checkedSub (a b : ℕ) : Outcome ε ℕ :=
  if b ≤ a then .ok (a - b) else .error (.panic "attempt to subtract with overflow")

/-- Multiplication of `w`-bit unsigned integers: overflow is a panic. -/
def checkedMul (w a b : ℕ) : Outcome ε ℕ :=
  if a * b < 2 ^ w then .ok (a * b) else .error (.panic "attempt to multiply with overflow")

/-- `a << b` on `w`-bit unsigned integers: the bits shifted out are lost, and a shift by the
whole width is a panic. -/
def checkedShl (w a b : ℕ) : Outcome ε ℕ :=
  if b < w then .ok ((a <<< b) % 2 ^ w) else .error (.panic "attempt to shift left with overflow")

/-- `l[start..stop]`: a range that does not lie in the list is a panic. -/
def slice (l : List α) (start stop : ℕ) : Outcome ε (List α) :=
  if start ≤ stop ∧ stop ≤ l.length then .ok ((l.take stop).drop start)
  else .error (.panic "range end index out of range")

/-- A loop that mutates `σ`: a failing iteration ends it, and what the earlier iterations did to
the state stays. -/
def loop (body : σ → α → σ × Outcome ε β) : σ → List α → σ × Outcome ε (List β)
  | s, [] => (s, .ok [])
  | s, a :: l =>
      match body s a with
      | (s', .error e) => (s', .error e)
      | (s', .ok b) =>
          match loop body s' l with
          | (s'', .error e) => (s'', .error e)
          | (s'', .ok bs) => (s'', .ok (b :: bs))

/-- `map_err`: only `Err` is rewritten, a panic passes through. -/
def mapErr (f : ε → δ) : Outcome ε α → Outcome δ α
  | .ok a => .ok a
  | .error (.err e) => .error (.err (f e))
  | .error (.panic s) => .error (.panic s)

@[simp] lemma expect_some (s : String) (a : α) : (expect s (some a) : Outcome ε α) = .ok a := rfl

@[simp] lemma unwrap_ok (s : String) (a : α) :
    (unwrap s (.ok a : Outcome δ α) : Outcome ε α) = .ok a := rfl

/-- An attempt that returned: the state it left, and the value unless it reported an error. -/
lemma attempt_eq_ok {x : σ × Outcome δ α} {s : σ} {o : Option α} :
    (attempt x : Outcome ε (σ × Option α)) = .ok (s, o) ↔
      x.1 = s ∧ ((∃ a, x.2 = .ok a ∧ o = some a) ∨ (∃ e, x.2 = .error (.err e)) ∧ o = none) := by
  obtain ⟨s', r⟩ := x
  cases r with
  | ok a => simp [attempt, eq_comm]
  | error e => cases e <;> simp [attempt, eq_comm]

lemma checkedAdd_of_lt {w a b : ℕ} (h : a + b < 2 ^ w) :
    (checkedAdd w a b : Outcome ε ℕ) = .ok (a + b) := if_pos h

/-- A sum that was returned did not overflow. -/
lemma checkedAdd_eq_ok {w a b c : ℕ} (h : (checkedAdd w a b : Outcome ε ℕ) = .ok c) :
    c = a + b := by
  unfold checkedAdd at h
  split_ifs at h
  exact (Except.ok.inj h).symm

lemma checkedSub_of_le {a b : ℕ} (h : b ≤ a) : (checkedSub a b : Outcome ε ℕ) = .ok (a - b) :=
  if_pos h

lemma checkedMul_of_lt {w a b : ℕ} (h : a * b < 2 ^ w) :
    (checkedMul w a b : Outcome ε ℕ) = .ok (a * b) := if_pos h

lemma checkedShl_of_lt {w a b : ℕ} (hb : b < w) (h : a * 2 ^ b < 2 ^ w) :
    (checkedShl w a b : Outcome ε ℕ) = .ok (a * 2 ^ b) := by
  rw [checkedShl, if_pos hb, Nat.shiftLeft_eq, Nat.mod_eq_of_lt h]

lemma slice_of_le {l : List α} {start stop : ℕ} (h : start ≤ stop) (h' : stop ≤ l.length) :
    (slice l start stop : Outcome ε (List α)) = .ok ((l.take stop).drop start) := if_pos ⟨h, h'⟩

@[simp] lemma mapErr_ok (f : ε → δ) (a : α) : mapErr f (.ok a) = .ok a := rfl

@[simp] lemma assert_true (s : String) : (assert s true : Outcome ε Unit) = .ok () := rfl

lemma index_of_lt {l : List α} {i : ℕ} (h : i < l.length) :
    (index l i : Outcome ε α) = .ok l[i] := by
  rw [index, List.getElem?_eq_getElem h, expect_some]

lemma expect_eq_ok {s : String} {o : Option α} {a : α} :
    (expect s o : Outcome ε α) = .ok a ↔ o = some a := by
  cases o <;> simp [expect]

lemma unwrap_eq_ok {s : String} {x : Outcome δ α} {a : α} :
    (unwrap s x : Outcome ε α) = .ok a ↔ x = .ok a := by
  rcases x with (_ | _) | _ <;> simp [unwrap]

lemma slice_eq_ok {l r : List α} {start stop : ℕ} :
    (slice l start stop : Outcome ε (List α)) = .ok r ↔
      (start ≤ stop ∧ stop ≤ l.length) ∧ (l.take stop).drop start = r := by
  unfold slice
  split_ifs with h <;> simp [h]

lemma index_eq_ok {l : List α} {i : ℕ} {a : α} :
    (index l i : Outcome ε α) = .ok a ↔ l[i]? = some a := expect_eq_ok

lemma assert_eq_ok {s : String} {c : Bool} :
    (assert s c : Outcome ε Unit) = .ok () ↔ c = true := by
  cases c <;> simp [assert]

lemma mapErr_eq_ok {f : ε → δ} {x : Outcome ε α} {a : α} :
    mapErr f x = .ok a ↔ x = .ok a := by
  cases x with
  | ok b => simp
  | error e => cases e <;> simp [mapErr]

@[simp] lemma ok_bind (a : α) (f : α → Outcome ε β) :
    ((Except.ok a : Outcome ε α) >>= f) = f a := rfl

@[simp] lemma error_bind (e : Fault ε) (f : α → Outcome ε β) :
    ((Except.error e : Outcome ε α) >>= f) = .error e := rfl

@[simp] lemma pure_eq_ok (a : α) : (pure a : Outcome ε α) = .ok a := rfl

/-- Peels one step off a computation that returned. -/
lemma bind_eq_ok {x : Outcome ε α} {f : α → Outcome ε β} {b : β} :
    (x >>= f) = .ok b ↔ ∃ a, x = .ok a ∧ f a = .ok b := by
  cases x with
  | ok a => simp
  | error e => simp

/-- Two steps that return, one after the other. -/
lemma bind_ok {x : Outcome ε α} {f : α → Outcome ε β} (hx : ∃ a, x = .ok a)
    (hf : ∀ a, x = .ok a → ∃ b, f a = .ok b) : ∃ b, (x >>= f) = .ok b := by
  obtain ⟨a, ha⟩ := hx
  obtain ⟨b, hb⟩ := hf a ha
  exact ⟨b, bind_eq_ok.mpr ⟨a, ha, hb⟩⟩

/-- A traversal returns exactly when every element's computation does. -/
lemma mapM_eq_ok {f : α → Outcome ε β} :
    ∀ {l : List α} {r : List β}, l.mapM f = .ok r ↔ List.Forall₂ (fun a b => f a = .ok b) l r
  | [], r => by
      rw [List.mapM_nil, pure_eq_ok, Except.ok.injEq, List.forall₂_nil_left_iff, eq_comm]
  | a :: l, r => by
      rw [List.mapM_cons, bind_eq_ok, List.forall₂_cons_left_iff]
      constructor
      · rintro ⟨b, hb, h⟩
        obtain ⟨bs, hbs, h⟩ := bind_eq_ok.mp h
        cases h
        exact ⟨b, bs, hb, mapM_eq_ok.mp hbs, rfl⟩
      · rintro ⟨b, bs, hb, hbs, rfl⟩
        exact ⟨b, hb, bind_eq_ok.mpr ⟨bs, mapM_eq_ok.mpr hbs, rfl⟩⟩

/-- The results of a traversal are the results of its elements. -/
lemma mem_of_mapM {f : α → Outcome ε β} :
    ∀ {l : List α} {r : List β}, l.mapM f = .ok r → ∀ b, b ∈ r ↔ ∃ a ∈ l, f a = .ok b
  | [], r, h, b => by
      cases h
      simp
  | a :: l, r, h, b => by
      rw [List.mapM_cons, bind_eq_ok] at h
      obtain ⟨c, hc, h⟩ := h
      obtain ⟨cs, hcs, h⟩ := bind_eq_ok.mp h
      cases h
      rw [List.mem_cons, mem_of_mapM hcs b]
      constructor
      · rintro (rfl | ⟨x, hx, hf⟩)
        · exact ⟨a, List.mem_cons_self, hc⟩
        · exact ⟨x, List.mem_cons_of_mem a hx, hf⟩
      · rintro ⟨x, hx, hf⟩
        rcases List.mem_cons.mp hx with rfl | hx
        · exact Or.inl (Except.ok.inj (hf.symm.trans hc))
        · exact Or.inr ⟨x, hx, hf⟩

/-- A traversal whose body is total is a map. -/
lemma mapM_of_forall {f : α → Outcome ε β} {g : α → β} {l : List α}
    (h : ∀ a ∈ l, f a = .ok (g a)) : l.mapM f = .ok (l.map g) := by
  rw [mapM_eq_ok, List.forall₂_map_right_iff, List.forall₂_same]
  exact h

/-- In a traversal that returned, every element's computation did. -/
lemma exists_of_mapM {f : α → Outcome ε β} :
    ∀ {l : List α} {r : List β}, l.mapM f = .ok r → ∀ a ∈ l, ∃ b ∈ r, f a = .ok b
  | [], _, _, _, ha => absurd ha List.not_mem_nil
  | a :: l, r, h, a', ha' => by
      rw [List.mapM_cons, bind_eq_ok] at h
      obtain ⟨b, hb, h⟩ := h
      obtain ⟨bs, hbs, h⟩ := bind_eq_ok.mp h
      cases h
      rcases List.mem_cons.mp ha' with rfl | ha'
      · exact ⟨b, List.mem_cons_self, hb⟩
      · obtain ⟨b', hb', hf⟩ := exists_of_mapM hbs a' ha'
        exact ⟨b', List.mem_cons_of_mem b hb', hf⟩

/-- A traversal whose body never fails does not fail. -/
lemma mapM_ok {f : α → Outcome ε β} :
    ∀ {l : List α}, (∀ a ∈ l, ∃ b, f a = .ok b) → ∃ r, l.mapM f = .ok r
  | [], _ => ⟨[], rfl⟩
  | a :: l, h => by
      obtain ⟨b, hb⟩ := h a List.mem_cons_self
      obtain ⟨bs, hbs⟩ := mapM_ok fun c hc => h c (List.mem_cons_of_mem a hc)
      exact ⟨b :: bs, by rw [List.mapM_cons, hb, ok_bind, hbs, ok_bind, pure_eq_ok]⟩

/-- **The loop rule.**  If the body returns on every state satisfying `P`, and re-establishes
`P`, then the loop returns and ends in a state satisfying `P`. -/
theorem foldlM_ok {f : σ → α → Outcome ε σ} {P : σ → Prop} {l : List α} :
    ∀ {s : σ}, P s → (∀ s a, P s → a ∈ l → ∃ s', f s a = .ok s' ∧ P s') →
      ∃ s', l.foldlM f s = .ok s' ∧ P s' := by
  induction l with
  | nil => intro s hs _; exact ⟨s, rfl, hs⟩
  | cons a l ih =>
      intro s hs step
      obtain ⟨s₁, h₁, hs₁⟩ := step s a hs List.mem_cons_self
      obtain ⟨s₂, h₂, hs₂⟩ := ih hs₁ fun s b hb hbl => step s b hb (List.mem_cons_of_mem a hbl)
      exact ⟨s₂, by rw [List.foldlM_cons, h₁, ok_bind, h₂], hs₂⟩

/-- What each step of a fold that returned preserves, the fold preserves. -/
theorem foldlM_preserves {f : σ → α → Outcome ε σ} {P : σ → Prop} {l : List α} :
    ∀ {s s' : σ}, P s → (∀ s a s', P s → a ∈ l → f s a = .ok s' → P s') →
      l.foldlM f s = .ok s' → P s' := by
  induction l with
  | nil =>
      intro s s' hs _ h
      cases h
      exact hs
  | cons a l ih =>
      intro s s' hs step h
      rw [List.foldlM_cons, bind_eq_ok] at h
      obtain ⟨s₁, h₁, h⟩ := h
      exact ih (step s a s₁ hs List.mem_cons_self h₁)
        (fun s c s' hc hcl => step s c s' hc (List.mem_cons_of_mem a hcl)) h

/-- A loop none of whose steps changes the state. -/
lemma foldlM_fixed {f : σ → α → Outcome ε σ} {s : σ} {l : List α} (h : ∀ a ∈ l, f s a = .ok s) :
    l.foldlM f s = .ok s := by
  induction l with
  | nil => rfl
  | cons a l ih =>
      rw [List.foldlM_cons, h a List.mem_cons_self, ok_bind]
      exact ih fun b hb => h b (List.mem_cons_of_mem a hb)

/-- A loop in which only `b` does anything, and nothing more the second time. -/
lemma foldlM_only {f : σ → α → Outcome ε σ} {s : σ} {b : α} {l : List α}
    (hothers : ∀ a ∈ l, a ≠ b → ∀ s, f s a = .ok s)
    (hagain : ∀ s', f s b = .ok s' → f s' b = .ok s') (hb : b ∈ l) : l.foldlM f s = f s b := by
  induction l with
  | nil => exact absurd hb List.not_mem_nil
  | cons a l ih =>
      have hrest : ∀ c ∈ l, c ≠ b → ∀ s, f s c = .ok s :=
        fun c hc => hothers c (List.mem_cons_of_mem a hc)
      rw [List.foldlM_cons]
      by_cases hab : a = b
      · subst hab
        cases hrun : f s a with
        | error e => rw [error_bind]
        | ok s' =>
            rw [ok_bind]
            refine foldlM_fixed fun c hc => ?_
            by_cases hca : c = a
            · rw [hca]
              exact hagain s' hrun
            · exact hrest c hc hca s'
      · rw [hothers a List.mem_cons_self hab, ok_bind]
        exact ih hrest ((List.mem_cons.mp hb).resolve_left (Ne.symm hab))

/-- **The loop rule for a mutated state.**  If the body returns on every state satisfying `P`,
re-establishes `P` and returns something satisfying `Q`, so does the loop. -/
theorem loop_ok {body : σ → α → σ × Outcome ε β} {P : σ → Prop} {Q : β → Prop} {l : List α} :
    ∀ {s : σ}, P s → (∀ s a, P s → a ∈ l → ∃ s' b, body s a = (s', .ok b) ∧ P s' ∧ Q b) →
      ∃ s' bs, loop body s l = (s', .ok bs) ∧ P s' ∧ ∀ b ∈ bs, Q b := by
  induction l with
  | nil => intro s hs _; exact ⟨s, [], rfl, hs, by simp⟩
  | cons a l ih =>
      intro s hs step
      obtain ⟨s₁, b, h₁, hs₁, hb⟩ := step s a hs List.mem_cons_self
      obtain ⟨s₂, bs, h₂, hs₂, hbs⟩ := ih hs₁ fun s c hc hcl =>
        step s c hc (List.mem_cons_of_mem a hcl)
      refine ⟨s₂, b :: bs, by simp only [loop, h₁, h₂], hs₂, ?_⟩
      rintro c (_ | ⟨_, hc⟩)
      · exact hb
      · exact hbs c hc

/-- What the body preserves, the loop preserves, whether or not it fails on the way. -/
theorem loop_preserves {body : σ → α → σ × Outcome ε β} {P : σ → Prop} {l : List α} :
    ∀ {s : σ}, P s → (∀ s a, P s → a ∈ l → P (body s a).1) → P (loop body s l).1 := by
  induction l with
  | nil => exact fun hs _ => hs
  | cons a l ih =>
      intro s hs step
      have hs₁ := step s a hs List.mem_cons_self
      rw [loop]
      rcases h : body s a with ⟨s₁, e | b⟩
      · rw [h] at hs₁
        exact hs₁
      · rw [h] at hs₁
        have hs₂ := ih hs₁ fun s c hc hcl => step s c hc (List.mem_cons_of_mem a hcl)
        simp only
        rcases h₂ : loop body s₁ l with ⟨s₂, e | bs⟩ <;> rw [h₂] at hs₂ <;> exact hs₂

/-- A loop that returned, taken apart at its first iteration. -/
lemma loop_cons_eq_ok {body : σ → α → σ × Outcome ε β} {s s' : σ} {a : α} {l : List α}
    {bs : List β} (h : loop body s (a :: l) = (s', .ok bs)) :
    ∃ s₁ b bs', body s a = (s₁, .ok b) ∧ loop body s₁ l = (s', .ok bs') ∧ bs = b :: bs' := by
  rw [loop] at h
  rcases h₁ : body s a with ⟨s₁, e | b⟩
  · rw [h₁] at h; cases h
  · simp only [h₁] at h
    rcases h₂ : loop body s₁ l with ⟨s₂, e | bs'⟩
    · simp only [h₂] at h; cases h
    · simp only [h₂] at h
      cases h
      exact ⟨s₁, b, bs', rfl, h₂, rfl⟩

/-- A loop that returned: each result comes from an iteration started in a state the body's
invariant allows. -/
theorem loop_results {body : σ → α → σ × Outcome ε β} {P : σ → Prop} {Q : β → Prop}
    {l : List α} :
    ∀ {s s' : σ} {bs : List β}, P s → (∀ s a, P s → a ∈ l → P (body s a).1) →
      (∀ s a b, P s → a ∈ l → (body s a).2 = .ok b → Q b) →
      loop body s l = (s', .ok bs) → ∀ b ∈ bs, Q b := by
  induction l with
  | nil =>
      intro s s' bs _ _ _ h
      cases h
      simp
  | cons a l ih =>
      intro s s' bs hs step res h
      obtain ⟨s₁, b, bs', h₁, h₂, rfl⟩ := loop_cons_eq_ok h
      have hs₁ := step s a hs List.mem_cons_self
      have hb := res s a
      rw [h₁] at hs₁ hb
      rintro c (_ | ⟨_, hc⟩)
      · exact hb b hs List.mem_cons_self rfl
      · exact ih hs₁ (fun s d hd hdl => step s d hd (List.mem_cons_of_mem a hdl))
          (fun s d x hd hdl => res s d x hd (List.mem_cons_of_mem a hdl)) h₂ c hc

/-! ## Which panics can be reached -/

/-- The computation returns or fails, or panics at one of the sites. -/
def PanicsOnly (sites : List String) (x : Outcome ε α) : Prop :=
  ∀ site, x = .error (.panic site) → site ∈ sites

namespace PanicsOnly

variable {sites : List String}

lemma ok (a : α) : PanicsOnly sites (.ok a : Outcome ε α) := by
  intro site h
  cases h

lemma of_eq_ok {x : Outcome ε α} {a : α} (h : x = .ok a) : PanicsOnly sites x := h ▸ ok a

lemma of_exists {x : Outcome ε α} (h : ∃ a, x = .ok a) : PanicsOnly sites x := by
  obtain ⟨a, ha⟩ := h
  exact of_eq_ok ha

lemma mono {x : Outcome ε α} {more : List String} (h : PanicsOnly sites x) (hsub : sites ⊆ more) :
    PanicsOnly more x := fun site hx => hsub (h site hx)

lemma bind {x : Outcome ε α} {f : α → Outcome ε β} (hx : PanicsOnly sites x)
    (hf : ∀ a, x = .ok a → PanicsOnly sites (f a)) : PanicsOnly sites (x >>= f) := by
  intro site h
  cases x with
  | error e =>
      cases h
      exact hx site rfl
  | ok a => exact hf a rfl site h

lemma of_bind {x : Outcome ε α} {f : α → Outcome ε β} (h : PanicsOnly sites (x >>= f)) :
    PanicsOnly sites x := by
  intro site hx
  exact h site (by rw [hx, error_bind])

lemma expect {site : String} (hsite : site ∈ sites) (o : Option α) :
    PanicsOnly sites (Outcome.expect site o : Outcome ε α) := by
  intro site' h
  cases o with
  | none =>
      cases h
      exact hsite
  | some a => cases h

/-- An error that is not expected is a panic at its own site. -/
lemma unwrap {site : String} {x : Outcome δ α} (hx : PanicsOnly sites x)
    (hsite : (∃ a, x = .ok a) ∨ site ∈ sites) :
    PanicsOnly sites (Outcome.unwrap site x : Outcome ε α) := by
  intro site' h
  rcases x with (e | s) | a
  · cases h
    rcases hsite with ⟨a, ha⟩ | hmem
    · cases ha
    · exact hmem
  · cases h
    exact hx site' rfl
  · cases h

/-- A loop whose body reaches no other panic. -/
lemma foldlM {f : σ → α → Outcome ε σ} {l : List α} {s : σ}
    (h : ∀ s, ∀ a ∈ l, PanicsOnly sites (f s a)) : PanicsOnly sites (l.foldlM f s) := by
  induction l generalizing s with
  | nil => exact ok s
  | cons a l ih =>
      rw [List.foldlM_cons]
      exact (h s a List.mem_cons_self).bind fun s' _ =>
        ih fun s b hb => h s b (List.mem_cons_of_mem a hb)

lemma mapM {f : α → Outcome ε β} {l : List α} (h : ∀ a ∈ l, PanicsOnly sites (f a)) :
    PanicsOnly sites (l.mapM f) := by
  induction l with
  | nil => exact ok []
  | cons a l ih =>
      rw [List.mapM_cons]
      refine (h a List.mem_cons_self).bind fun b _ => ?_
      exact (ih fun c hc => h c (List.mem_cons_of_mem a hc)).bind fun bs _ => ok _

end PanicsOnly

/-- The sites of the checked additions and multiplications. -/
def overflowSites : List String :=
  ["attempt to add with overflow", "attempt to multiply with overflow"]

/-- The computation returns, fails, or overflows; it reaches no other panic. -/
def OverflowOnly (x : Outcome ε α) : Prop :=
  ∀ site, x = .error (.panic site) → site ∈ overflowSites

namespace OverflowOnly

lemma panicsOnly {x : Outcome ε α} (h : OverflowOnly x) : PanicsOnly overflowSites x := h

lemma ok (a : α) : OverflowOnly (.ok a : Outcome ε α) := PanicsOnly.ok a

lemma of_eq_ok {x : Outcome ε α} {a : α} (h : x = .ok a) : OverflowOnly x := PanicsOnly.of_eq_ok h

lemma not_of_panic {x : Outcome ε α} (site : String) (h : x = .error (.panic site))
    (hsite : site ∉ overflowSites) : ¬ OverflowOnly x :=
  fun hx => hsite (hx site h)

lemma bind {x : Outcome ε α} {f : α → Outcome ε β} (hx : OverflowOnly x)
    (hf : ∀ a, x = .ok a → OverflowOnly (f a)) : OverflowOnly (x >>= f) := PanicsOnly.bind hx hf

lemma of_bind {x : Outcome ε α} {f : α → Outcome ε β} (h : OverflowOnly (x >>= f)) :
    OverflowOnly x := PanicsOnly.of_bind h

lemma checkedAdd (w a b : ℕ) : OverflowOnly (Outcome.checkedAdd w a b : Outcome ε ℕ) := by
  intro site h
  rw [Outcome.checkedAdd] at h
  split at h
  · cases h
  · cases h
    simp [overflowSites]

lemma checkedMul (w a b : ℕ) : OverflowOnly (Outcome.checkedMul w a b : Outcome ε ℕ) := by
  intro site h
  rw [Outcome.checkedMul] at h
  split at h
  · cases h
  · cases h
    simp [overflowSites]

lemma foldlM {f : σ → α → Outcome ε σ} {l : List α} {s : σ}
    (h : ∀ s, ∀ a ∈ l, OverflowOnly (f s a)) : OverflowOnly (l.foldlM f s) := PanicsOnly.foldlM h

lemma mapM {f : α → Outcome ε β} {l : List α} (h : ∀ a ∈ l, OverflowOnly (f a)) :
    OverflowOnly (l.mapM f) := PanicsOnly.mapM h

end OverflowOnly

end Outcome
