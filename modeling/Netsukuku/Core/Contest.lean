import Mathlib
import Netsukuku.Core.Scan

/-!
# Contests

A winner is found by letting each element of a list challenge whoever has won so far.  If a
challenger wins exactly by its rank the result is a minimum whatever the order; a contest that
also looks at who meets whom may depend on it.

* `winner` — whoever is left after all challenges.
* `rank_winner_le` — a contest of rank ends in a minimum.
* `outranks` — the contest in which an element does not challenge one of its own key.
* `elect_perm_iff` — when the key of its winner does not depend on the order.
-/

namespace Contest

variable {α κ ρ : Type} {beats : α → α → Bool} {w : α} {l : List α}

/-- Who is left after each element of `l` has challenged the winner so far, at first `w`. -/
def winner (beats : α → α → Bool) (w : α) (l : List α) : α :=
  l.foldl (fun w x => if beats x w then x else w) w

@[simp] lemma winner_nil : winner beats w [] = w := rfl

@[simp] lemma winner_cons (x : α) :
    winner beats w (x :: l) = winner beats (if beats x w then x else w) l := rfl

lemma winner_append (l' : List α) : winner beats w (l ++ l') = winner beats (winner beats w l) l' :=
  List.foldl_append

/-- What every successful challenger has, the winner has. -/
lemma winner_preserves {P : α → Prop} (hw : P w)
    (h : ∀ x ∈ l, ∀ v, P v → beats x v = true → P x) : P (winner beats w l) := by
  induction l generalizing w with
  | nil => exact hw
  | cons x l ih =>
      rw [winner_cons]
      refine ih ?_ fun y hy => h y (List.mem_cons_of_mem x hy)
      split_ifs with hbeats
      · exact h x List.mem_cons_self w hw hbeats
      · exact hw

lemma winner_mem : winner beats w l ∈ w :: l :=
  winner_preserves (P := fun v => v ∈ w :: l) List.mem_cons_self
    fun _ hx _ _ _ => List.mem_cons_of_mem w hx

/-- Nobody is deposed if no challenge succeeds against `w`. -/
lemma winner_of_not_beats (h : ∀ x ∈ l, beats x w = false) : winner beats w l = w := by
  induction l with
  | nil => rfl
  | cons x l ih =>
      rw [winner_cons, h x List.mem_cons_self]
      exact ih fun y hy => h y (List.mem_cons_of_mem x hy)

/-- Who never succeeds can stay away. -/
lemma winner_filter (p : α → Bool) (h : ∀ x v, p x = false → beats x v = false) :
    winner beats w (l.filter p) = winner beats w l := by
  induction l generalizing w with
  | nil => rfl
  | cons x l ih =>
      cases hx : p x with
      | true => rw [List.filter_cons_of_pos hx, winner_cons, winner_cons, ih]
      | false =>
          rw [List.filter_cons_of_neg (by simp [hx]), winner_cons, h x w hx]
          exact ih

section Rank

variable [LinearOrder ρ] {rank : α → ρ}

/-- **A contest of rank ends in a minimum.** -/
lemma rank_winner_le (htrue : ∀ x ∈ l, ∀ v, beats x v = true → rank x ≤ rank v)
    (hfalse : ∀ x ∈ l, ∀ v, beats x v = false → rank v ≤ rank x) :
    ∀ x ∈ w :: l, rank (winner beats w l) ≤ rank x := by
  induction l generalizing w with
  | nil => simp
  | cons y l ih =>
      have hle := fun v => ih (w := v) (fun x hx => htrue x (List.mem_cons_of_mem y hx))
        fun x hx => hfalse x (List.mem_cons_of_mem y hx)
      intro x hx
      rw [winner_cons]
      cases hbeats : beats y w with
      | true =>
          rcases List.mem_cons.mp hx with rfl | hx
          · exact (hle y y List.mem_cons_self).trans (htrue y List.mem_cons_self x hbeats)
          · exact hle y x hx
      | false =>
          rcases List.mem_cons.mp hx with rfl | hx
          · exact hle x x List.mem_cons_self
          rcases List.mem_cons.mp hx with rfl | hx
          · exact (hle w w List.mem_cons_self).trans (hfalse x List.mem_cons_self w hbeats)
          · exact hle w x (List.mem_cons_of_mem w hx)

end Rank

/-! ## Contests between keys -/

section Key

variable [DecidableEq κ] [LinearOrder ρ] {key : α → κ} {rank : α → ρ} {k : κ}

/-- A challenger of another key wins by its rank; one of the same key does not challenge. -/
def outranks (key : α → κ) (rank : α → ρ) (x w : α) : Bool :=
  decide (key x ≠ key w) && decide (rank x < rank w)

@[simp] lemma outranks_eq_true {x : α} :
    outranks key rank x w = true ↔ key x ≠ key w ∧ rank x < rank w := by
  simp [outranks]

/-- The winner of a list, if it is not empty. -/
def elect (key : α → κ) (rank : α → ρ) : List α → Option α
  | [] => none
  | w :: l => some (winner (outranks key rank) w l)

/-- Whatever has the key `k` is ahead of whatever has not. -/
def Ahead (key : α → κ) (rank : α → ρ) (k : κ) (l : List α) : Prop :=
  ∀ x ∈ l, key x = k → ∀ y ∈ l, key y ≠ k → rank x < rank y

/-- A key that is ahead wins. -/
lemma key_winner_of_ahead (hahead : Ahead key rank k (w :: l)) (hmem : ∃ x ∈ w :: l, key x = k) :
    key (winner (outranks key rank) w l) = k := by
  induction l generalizing w with
  | nil =>
      obtain ⟨x, hx, hkey⟩ := hmem
      rwa [List.mem_singleton.mp hx] at hkey
  | cons y l ih =>
      have hsub : ∀ {v : α}, v ∈ w :: y :: l → ∀ x ∈ v :: l, x ∈ w :: y :: l := by
        intro v hv x hx
        rcases List.mem_cons.mp hx with rfl | hx
        · exact hv
        · exact List.mem_cons_of_mem w (List.mem_cons_of_mem y hx)
      have hnext : ∀ {v : α}, v ∈ w :: y :: l → Ahead key rank k (v :: l) :=
        fun hv x hx hkx z hz hkz => hahead x (hsub hv x hx) hkx z (hsub hv z hz) hkz
      have hw : w ∈ w :: y :: l := List.mem_cons_self
      have hy : y ∈ w :: y :: l := List.mem_cons_of_mem w List.mem_cons_self
      rw [winner_cons]
      split_ifs with hbeats
      · rw [outranks_eq_true] at hbeats
        refine ih (hnext hy) ?_
        -- who was deposed does not have the key
        have hwk : key w ≠ k := fun hwk =>
          lt_asymm hbeats.2 (hahead w hw hwk y hy fun hyk => hbeats.1 (hyk.trans hwk.symm))
        obtain ⟨x, hx, hkey⟩ := hmem
        rcases List.mem_cons.mp hx with rfl | hx
        · exact absurd hkey hwk
        · exact ⟨x, hx, hkey⟩
      · refine ih (hnext hw) ?_
        obtain ⟨x, hx, hkey⟩ := hmem
        rcases List.mem_cons.mp hx with rfl | hx
        · exact ⟨x, List.mem_cons_self, hkey⟩
        rcases List.mem_cons.mp hx with rfl | hx
        · -- the challenger that failed has the key, so the winner so far has it too
          by_cases hwk : key w = k
          · exact ⟨w, List.mem_cons_self, hwk⟩
          · refine absurd (outranks_eq_true.mpr ⟨fun heq => hwk (heq.symm.trans hkey), ?_⟩) hbeats
            exact hahead x hy hkey w hw hwk
        · exact ⟨x, List.mem_cons_of_mem w hx, hkey⟩

/-- A key loses for good to a challenger of lower rank, once nobody with it is left. -/
lemma key_winner_ne (hl : ∀ x ∈ l, key x ≠ k) (h : key w ≠ k ∨ ∃ x ∈ l, rank x < rank w) :
    key (winner (outranks key rank) w l) ≠ k := by
  induction l generalizing w with
  | nil => exact h.resolve_right fun ⟨x, hx, _⟩ => List.not_mem_nil hx
  | cons y l ih =>
      have hl' : ∀ x ∈ l, key x ≠ k := fun x hx => hl x (List.mem_cons_of_mem y hx)
      rw [winner_cons]
      split_ifs with hbeats
      · exact ih hl' (.inl (hl y List.mem_cons_self))
      · refine ih hl' ?_
        by_cases hwk : key w = k
        · obtain ⟨x, hx, hlt⟩ := h.resolve_left fun hne => hne hwk
          rcases List.mem_cons.mp hx with rfl | hx
          · refine absurd (outranks_eq_true.mpr ⟨fun heq => ?_, hlt⟩) hbeats
            exact hl x List.mem_cons_self (heq.trans hwk)
          · exact .inr ⟨x, hx, hlt⟩
        · exact .inl hwk

/-- **When the order does not matter.**  Where different keys have different ranks, the key that
wins is the same in every order if and only if some key is ahead of all others. -/
theorem elect_perm_iff (hties : ∀ x ∈ l, ∀ y ∈ l, key x ≠ key y → rank x ≠ rank y) :
    (∀ l', l.Perm l' → (elect key rank l').map key = (elect key rank l).map key) ↔
      l = [] ∨ ∃ e ∈ l, Ahead key rank (key e) l := by
  constructor
  · intro h
    by_cases hnil : l = []
    · exact .inl hnil
    -- the eldest, which wins if it comes first
    obtain ⟨e, hmin⟩ := Scan.exists_firstMin rank hnil
    have he := Scan.firstMin_mem hmin
    refine .inr ⟨e, he, fun x hx hkx y hy hky => ?_⟩
    by_contra hge
    have hne : rank x ≠ rank y := hties x hx y hy fun heq => hky (heq.symm.trans hkx)
    have hlt : rank y < rank x := lt_of_le_of_ne (not_lt.mp hge) hne.symm
    have hfirst : ∃ l', l.Perm l' ∧ (elect key rank l').map key = some (key e) := by
      obtain ⟨s, t, rfl⟩ := List.append_of_mem he
      refine ⟨e :: (s ++ t), List.perm_middle, ?_⟩
      rw [elect, winner_of_not_beats, Option.map_some]
      intro z hz
      have hz' : z ∈ s ++ e :: t := List.perm_middle.mem_iff.mpr (List.mem_cons_of_mem e hz)
      simp [outranks, not_lt.mpr (Scan.firstMin_le hmin z hz')]
    -- the younger of its key first, then its others, then everyone else
    have hlast : ∃ l', l.Perm l' ∧ (elect key rank l').map key ≠ some (key e) := by
      obtain ⟨s, t, rfl⟩ := List.append_of_mem hx
      have hperm := (List.filter_append_perm (fun z => decide (key z = key e)) (s ++ t)).symm
      refine ⟨_, List.perm_middle.trans (hperm.cons x), ?_⟩
      rw [elect, Option.map_some, winner_append, winner_of_not_beats (w := x)]
      · intro heq
        refine key_winner_ne (fun z hz => ?_) (.inr ⟨y, ?_, hlt⟩) (Option.some.inj heq)
        · simpa using (List.mem_filter.mp hz).2
        · rcases List.mem_cons.mp (List.perm_middle.mem_iff.mp hy) with rfl | hy
          · exact absurd hkx hky
          · exact List.mem_filter.mpr ⟨hy, by simpa using hky⟩
      · intro z hz
        have hkz : key z = key e := by simpa using (List.mem_filter.mp hz).2
        simp [outranks, hkz, hkx]
    obtain ⟨l₁, hperm₁, h₁⟩ := hfirst
    obtain ⟨l₂, hperm₂, h₂⟩ := hlast
    exact h₂ ((h l₂ hperm₂).trans ((h l₁ hperm₁).symm.trans h₁))
  · rintro (rfl | ⟨e, he, hahead⟩) l' hperm
    · rw [List.nil_perm.mp hperm]
    · have hkey : ∀ l', l.Perm l' → (elect key rank l').map key = some (key e) := by
        intro l' hperm
        have hahead' : Ahead key rank (key e) l' := fun x hx hkx y hy hky =>
          hahead x (hperm.mem_iff.mpr hx) hkx y (hperm.mem_iff.mpr hy) hky
        have he' := hperm.mem_iff.mp he
        cases l' with
        | nil => exact absurd he' List.not_mem_nil
        | cons w l' =>
            rw [elect, Option.map_some, key_winner_of_ahead hahead' ⟨e, he', rfl⟩]
      rw [hkey l' hperm, hkey l (List.Perm.refl l)]

end Key

end Contest
