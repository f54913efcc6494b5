import Mathlib

/-!
# Mixed-radix numbers

A number is written with one digit per level, level `i` in radix `g i`, the highest level first:
Horner's rule reads it off.  Nothing below a level can outweigh a difference at that level, so the
values of two digit strings compare as the strings do at the highest level where they differ.

* `horner`, `value` — the value of a digit string.
* `horner_lt_mul` — it stays below the product of the radices.
* `value_lt_iff` — comparing values is comparing the highest differing digits.
* `value_injective` — equal values have equal digits.
* `value_div_eq_iff` — what is left of a value without its low digits is its high digits.
* `circular` — the digit of a one-directional distance on a ring of size `g`.
-/

namespace MixedRadix

variable {g d e : ℕ → ℕ}

/-- Horner's rule from level `n - 1` down to 0, with the levels above read into `acc` already. -/
def horner (g d : ℕ → ℕ) : ℕ → ℕ → ℕ
  | 0, acc => acc
  | n + 1, acc => horner g d n (acc * g n + d n)

/-- The value of the digits of levels `0..n`. -/
def value (g d : ℕ → ℕ) (n : ℕ) : ℕ := horner g d n 0

/-- A difference above the levels still to read decides. -/
lemma horner_lt_horner {n a b : ℕ} (hd : ∀ i < n, d i < g i) (hab : a < b) :
    horner g d n a < horner g e n b := by
  induction n generalizing a b with
  | zero => exact hab
  | succ n ih =>
      refine ih (fun i hi => hd i (hi.trans (Nat.lt_succ_self n))) ?_
      have hn : d n < g n := hd n (Nat.lt_succ_self n)
      calc a * g n + d n < a * g n + g n := by omega
        _ = (a + 1) * g n := by ring
        _ ≤ b * g n := Nat.mul_le_mul_right _ hab
        _ ≤ b * g n + e n := Nat.le_add_right _ _

/-- Only the digits below `n` are read. -/
lemma horner_congr {n : ℕ} (h : ∀ i < n, d i = e i) (acc : ℕ) :
    horner g d n acc = horner g e n acc := by
  induction n generalizing acc with
  | zero => rfl
  | succ n ih =>
      rw [horner, horner, h n (Nat.lt_succ_self n)]
      exact ih (fun i hi => h i (hi.trans (Nat.lt_succ_self n))) _

/-- What is read stays below the product of the radices. -/
lemma horner_lt_mul {n a b : ℕ} (hd : ∀ i < n, d i < g i) (hab : a < b) :
    horner g d n a < b * ∏ i ∈ Finset.range n, g i := by
  induction n generalizing a b with
  | zero => simpa [horner] using hab
  | succ n ih =>
      have hn : d n < g n := hd n (Nat.lt_succ_self n)
      have hstep : a * g n + d n < b * g n := by
        calc a * g n + d n < a * g n + g n := by omega
          _ = (a + 1) * g n := by ring
          _ ≤ b * g n := Nat.mul_le_mul_right _ hab
      have hlt := ih (fun i hi => hd i (hi.trans (Nat.lt_succ_self n))) hstep
      rw [Finset.prod_range_succ, mul_comm _ (g n), ← mul_assoc]
      exact hlt

/-- A smaller digit at `l`, below equal ones, makes a smaller number. -/
lemma horner_lt_of_lt {n l a : ℕ} (hl : l < n) (hd : ∀ i < n, d i < g i)
    (habove : ∀ i, l < i → i < n → d i = e i) (hlt : d l < e l) :
    horner g d n a < horner g e n a := by
  induction n generalizing a with
  | zero => exact absurd hl (Nat.not_lt_zero l)
  | succ n ih =>
      have hd' : ∀ i < n, d i < g i := fun i hi => hd i (hi.trans (Nat.lt_succ_self n))
      rw [horner, horner]
      rcases Nat.lt_succ_iff_lt_or_eq.mp hl with hln | rfl
      · rw [habove n hln (Nat.lt_succ_self n)]
        exact ih hln hd' fun i hi hin => habove i hi (hin.trans (Nat.lt_succ_self n))
      · exact horner_lt_horner hd' (Nat.add_lt_add_left hlt _)

/-- **Values compare as the digits do** at the highest level where they differ. -/
theorem value_lt_iff {n l : ℕ} (hl : l < n) (hd : ∀ i < n, d i < g i) (he : ∀ i < n, e i < g i)
    (habove : ∀ i, l < i → i < n → d i = e i) (hne : d l ≠ e l) :
    value g d n < value g e n ↔ d l < e l := by
  constructor
  · intro hlt
    by_contra hge
    have hgt : e l < d l := lt_of_le_of_ne (not_lt.mp hge) hne.symm
    have hvalue : value g e n < value g d n :=
      horner_lt_of_lt hl he (fun i hi hin => (habove i hi hin).symm) hgt
    exact lt_asymm hlt hvalue
  · exact horner_lt_of_lt hl hd habove

/-- Two strings that differ somewhere differ somewhere highest. -/
lemma exists_highest_ne {α : Type} {a b : ℕ → α} {n : ℕ} (h : ∃ i < n, a i ≠ b i) :
    ∃ l < n, a l ≠ b l ∧ ∀ i, l < i → i < n → a i = b i := by
  induction n with
  | zero =>
      obtain ⟨i, hi, -⟩ := h
      exact absurd hi (Nat.not_lt_zero i)
  | succ n ih =>
      by_cases hn : a n = b n
      · obtain ⟨i, hi, hne⟩ := h
        have hin : i < n := by
          refine lt_of_le_of_ne (Nat.lt_succ_iff.mp hi) ?_
          rintro rfl
          exact hne hn
        obtain ⟨l, hl, hne', habove⟩ := ih ⟨i, hin, hne⟩
        refine ⟨l, hl.trans (Nat.lt_succ_self n), hne', fun j hj hjn => ?_⟩
        rcases Nat.lt_succ_iff_lt_or_eq.mp hjn with hjn | rfl
        · exact habove j hj hjn
        · exact hn
      · exact ⟨n, Nat.lt_succ_self n, hn, fun i hi hin => absurd (Nat.lt_succ_iff.mp hin) (by omega)⟩

/-- Equal values have equal digits. -/
theorem value_injective {n : ℕ} (hd : ∀ i < n, d i < g i) (he : ∀ i < n, e i < g i)
    (h : value g d n = value g e n) : ∀ i < n, d i = e i := by
  by_contra hne
  obtain ⟨l, hl, hdl, habove⟩ := exists_highest_ne (by simpa using hne)
  rcases Nat.lt_or_gt_of_ne hdl with hlt | hgt
  · exact absurd h ((value_lt_iff hl hd he habove hdl).mpr hlt).ne
  · have habove' : ∀ i, l < i → i < n → e i = d i := fun i hi hin => (habove i hi hin).symm
    exact absurd h ((value_lt_iff hl he hd habove' hdl.symm).mpr hgt).ne'

/-- Digits bounded by sums of digits make a value bounded by the sum of the values. -/
lemma horner_le_add {f : ℕ → ℕ} {n a b c : ℕ} (h : ∀ i < n, d i ≤ e i + f i) (habc : a ≤ b + c) :
    horner g d n a ≤ horner g e n b + horner g f n c := by
  induction n generalizing a b c with
  | zero => exact habc
  | succ n ih =>
      refine ih (fun i hi => h i (hi.trans (Nat.lt_succ_self n))) ?_
      have hn : d n ≤ e n + f n := h n (Nat.lt_succ_self n)
      calc a * g n + d n ≤ (b + c) * g n + (e n + f n) := by gcongr
        _ = b * g n + e n + (c * g n + f n) := by ring

/-! ## Cutting off the low digits -/

/-- The levels from `k` on are read first, and what they give starts the levels below `k`. -/
lemma horner_add (k m a : ℕ) :
    horner g d (k + m) a = horner g d k (horner (fun i => g (k + i)) (fun i => d (k + i)) m a) := by
  induction m generalizing a with
  | zero => rfl
  | succ m ih => exact ih (a * g (k + m) + d (k + m))

/-- Digits in range leave no trace of themselves above. -/
lemma horner_div {k : ℕ} (hd : ∀ i < k, d i < g i) (a : ℕ) :
    horner g d k a / ∏ i ∈ Finset.range k, g i = a := by
  induction k generalizing a with
  | zero => simp [horner]
  | succ k ih =>
      have hk : d k < g k := hd k (Nat.lt_succ_self k)
      rw [horner, Finset.prod_range_succ, ← Nat.div_div_eq_div_mul,
        ih fun i hi => hd i (hi.trans (Nat.lt_succ_self k))]
      rw [mul_comm, Nat.mul_add_div (by omega), Nat.div_eq_of_lt hk, Nat.add_zero]

/-- Zero digits only shift. -/
lemma horner_of_zero {k : ℕ} (hd : ∀ i < k, d i = 0) (a : ℕ) :
    horner g d k a = a * ∏ i ∈ Finset.range k, g i := by
  induction k generalizing a with
  | zero => simp [horner]
  | succ k ih =>
      rw [horner, hd k (Nat.lt_succ_self k), ih fun i hi => hd i (hi.trans (Nat.lt_succ_self k)),
        Finset.prod_range_succ]
      ring

/-- Only zero digits make zero. -/
lemma value_eq_zero_iff {n : ℕ} (hd : ∀ i < n, d i < g i) :
    value g d n = 0 ↔ ∀ i < n, d i = 0 := by
  constructor
  · intro hzero
    have hg : ∀ i < n, 0 < g i := fun i hi => (Nat.zero_le _).trans_lt (hd i hi)
    refine value_injective hd hg ?_
    rw [hzero, value, horner_of_zero fun _ _ => rfl, Nat.zero_mul]
  · intro hzero
    rw [value, horner_of_zero hzero, Nat.zero_mul]

lemma dvd_value {k n : ℕ} (hkn : k ≤ n) (hd : ∀ i < k, d i = 0) :
    ∏ i ∈ Finset.range k, g i ∣ value g d n := by
  obtain ⟨m, rfl⟩ := Nat.exists_eq_add_of_le hkn
  rw [value, horner_add, horner_of_zero hd]
  exact dvd_mul_left _ _

/-- **Values agree above `k` as the digits do** from level `k` on. -/
theorem value_div_eq_iff {k n : ℕ} (hkn : k ≤ n) (hd : ∀ i < n, d i < g i)
    (he : ∀ i < n, e i < g i) :
    value g d n / ∏ i ∈ Finset.range k, g i = value g e n / ∏ i ∈ Finset.range k, g i ↔
      ∀ i, k ≤ i → i < n → d i = e i := by
  obtain ⟨m, rfl⟩ := Nat.exists_eq_add_of_le hkn
  rw [value, value, horner_add, horner_add, horner_div fun i hi => hd i (by omega),
    horner_div fun i hi => he i (by omega)]
  constructor
  · intro h i hki hin
    obtain ⟨j, rfl⟩ := Nat.exists_eq_add_of_le hki
    exact value_injective (fun i hi => hd (k + i) (by omega)) (fun i hi => he (k + i) (by omega))
      h j (by omega)
  · exact fun h => horner_congr (fun i hi => h (k + i) (by omega) (by omega)) 0

/-! ## Circular digits -/

/-- How far `y` is past `x` on a ring of size `g`. -/
def circular (g x y : ℕ) : ℕ := if x ≤ y then y - x else y + g - x

lemma circular_lt {g x y : ℕ} (hx : x < g) (hy : y < g) : circular g x y < g := by
  unfold circular
  split_ifs <;> omega

lemma circular_eq_zero_iff {g x y : ℕ} (hx : x < g) : circular g x y = 0 ↔ x = y := by
  unfold circular
  split_ifs <;> omega

/-- Going by way of `y` is no shorter. -/
lemma circular_le_add {g x y z : ℕ} (hx : x < g) (hy : y < g) :
    circular g x z ≤ circular g x y + circular g y z := by
  unfold circular
  split_ifs <;> omega

lemma circular_inj {g x y z : ℕ} (hx : x < g) (hy : y < g) (hz : z < g) :
    circular g x y = circular g x z ↔ y = z := by
  unfold circular
  split_ifs <;> omega

end MixedRadix
