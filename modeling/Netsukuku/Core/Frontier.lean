import Mathlib

/-!
# Breadth-first search

A search knows some vertices of a graph, each with the number of steps it was found at.  Some are
expanded: all their neighbours are known.  The others wait, nearest first.

* `Walk adj root k g` — `g` is `k` steps from the root.
* `Frontier` — what holds of the expanded and the waiting vertices.
* `Frontier.expand` — the nearest one that waits is expanded.
* `Frontier.covers` — a walk ends at an expanded vertex, or is no shorter than some way to a waiting
  one.
-/

variable {α : Type} {adj : α → α → Prop} {root : α}

/-- `g` is `k` steps from the root. -/
inductive Walk (adj : α → α → Prop) (root : α) : ℕ → α → Prop
  | root : Walk adj root 0 root
  | step {k : ℕ} {g g' : α} (walk : Walk adj root k g) (h : adj g g') : Walk adj root (k + 1) g'

/-- The expanded vertices and those that wait, each with its number of steps. -/
structure Frontier (adj : α → α → Prop) (root : α) (expanded waiting : List (ℕ × α)) : Prop where
  walk : ∀ e ∈ expanded ++ waiting, Walk adj root e.1 e.2
  root : ∃ e ∈ expanded ++ waiting, e.1 = 0 ∧ e.2 = root
  closed : ∀ e ∈ expanded, ∀ g, adj e.2 g → ∃ e' ∈ expanded ++ waiting, e'.2 = g ∧ e'.1 ≤ e.1 + 1
  nearer : ∀ e ∈ expanded, ∀ w ∈ waiting, e.1 ≤ w.1
  sorted : waiting.Pairwise fun w w' => w.1 ≤ w'.1 ∧ w'.1 ≤ w.1 + 1

namespace Frontier

variable {expanded waiting new : List (ℕ × α)} {e : ℕ × α}

/-- Only the root waits. -/
lemma start (adj : α → α → Prop) (root : α) : Frontier adj root [] [(0, root)] where
  walk e he := by
    rw [List.nil_append, List.mem_singleton] at he
    rw [he]
    exact .root
  root := ⟨_, List.mem_singleton_self _, rfl, rfl⟩
  closed e he := by cases he
  nearer e he := by cases he
  sorted := List.pairwise_singleton _ _

/-- **One vertex is expanded.**  Its neighbours are known already, or are new and wait. -/
lemma expand (h : Frontier adj root expanded (e :: waiting))
    (hnew : ∀ w ∈ new, w.1 = e.1 + 1 ∧ adj e.2 w.2)
    (hall : ∀ g, adj e.2 g → ∃ w ∈ expanded ++ e :: waiting ++ new, w.2 = g) :
    Frontier adj root (e :: expanded) (waiting ++ new) := by
  have hmem : ∀ w, w ∈ e :: expanded ++ (waiting ++ new) ↔
      w ∈ expanded ++ e :: waiting ++ new := by
    intro w
    simp only [List.cons_append, List.mem_cons, List.mem_append, List.append_assoc]
    tauto
  have hold : ∀ w ∈ expanded ++ e :: waiting, w ∈ e :: expanded ++ (waiting ++ new) :=
    fun w hw => (hmem w).mpr (List.mem_append_left _ hw)
  have hsorted := List.pairwise_cons.mp h.sorted
  -- nothing known is more than one step farther than `e`
  have hnear : ∀ w ∈ expanded ++ e :: waiting ++ new, w.1 ≤ e.1 + 1 := by
    intro w hw
    simp only [List.mem_append, List.mem_cons] at hw
    rcases hw with (hw | rfl | hw) | hw
    · have := h.nearer w hw e List.mem_cons_self
      omega
    · omega
    · exact (hsorted.1 w hw).2
    · exact (hnew w hw).1.le
  refine ⟨fun w hw => ?_, ?_, fun w hw g hg => ?_, fun w hw w' hw' => ?_, ?_⟩
  · rcases List.mem_append.mp ((hmem w).mp hw) with hw | hw
    · exact h.walk w hw
    · obtain ⟨hsteps, hadj⟩ := hnew w hw
      have hwalk := (h.walk e (List.mem_append_right _ List.mem_cons_self)).step hadj
      rwa [← hsteps] at hwalk
  · obtain ⟨w, hw, heq⟩ := h.root
    exact ⟨w, hold w hw, heq⟩
  · rcases List.mem_cons.mp hw with rfl | hw
    · obtain ⟨w', hw', rfl⟩ := hall g hg
      exact ⟨w', (hmem w').mpr hw', rfl, hnear w' hw'⟩
    · obtain ⟨w', hw', heq⟩ := h.closed w hw g hg
      exact ⟨w', hold w' hw', heq⟩
  · have hle : w.1 ≤ e.1 := by
      rcases List.mem_cons.mp hw with rfl | hw
      · exact le_rfl
      · exact h.nearer w hw e List.mem_cons_self
    rcases List.mem_append.mp hw' with hw' | hw'
    · exact hle.trans (hsorted.1 w' hw').1
    · have := (hnew w' hw').1
      omega
  · refine List.pairwise_append.mpr ⟨hsorted.2, ?_, fun w hw w' hw' => ?_⟩
    · refine List.pairwise_of_forall_mem_list fun w hw w' hw' => ?_
      have := (hnew w hw).1
      have := (hnew w' hw').1
      omega
    · have := hsorted.1 w hw
      have := (hnew w' hw').1
      omega

/-- **Where walks end.** -/
theorem covers (h : Frontier adj root expanded waiting) {k : ℕ} {g : α} (walk : Walk adj root k g) :
    (∃ w ∈ expanded, w.2 = g ∧ w.1 ≤ k) ∨ ∃ w ∈ waiting, w.1 ≤ k := by
  have hsplit : ∀ w ∈ expanded ++ waiting, ∀ k g, w.2 = g → w.1 ≤ k →
      (∃ w ∈ expanded, w.2 = g ∧ w.1 ≤ k) ∨ ∃ w ∈ waiting, w.1 ≤ k := by
    intro w hw k g hg hk
    rcases List.mem_append.mp hw with hw | hw
    · exact .inl ⟨w, hw, hg, hk⟩
    · exact .inr ⟨w, hw, hk⟩
  induction walk with
  | root =>
      obtain ⟨w, hw, hsteps, hg⟩ := h.root
      exact hsplit w hw 0 root hg hsteps.le
  | @step k g g' _ hadj ih =>
      rcases ih with ⟨w, hw, rfl, hk⟩ | ⟨w, hw, hk⟩
      · obtain ⟨w', hw', hg', hsteps⟩ := h.closed w hw g' hadj
        exact hsplit w' hw' (k + 1) g' hg' (by omega)
      · exact .inr ⟨w, hw, by omega⟩

/-- A walk to what is not expanded is no shorter than the way to the first that waits. -/
lemma le_of_walk (h : Frontier adj root expanded (e :: waiting)) {k : ℕ} {g : α}
    (walk : Walk adj root k g) (hg : ∀ w ∈ expanded, w.2 ≠ g) : e.1 ≤ k := by
  rcases h.covers walk with ⟨w, hw, heq, -⟩ | ⟨w, hw, hk⟩
  · exact absurd heq (hg w hw)
  · rcases List.mem_cons.mp hw with rfl | hw
    · exact hk
    · exact ((List.pairwise_cons.mp h.sorted).1 w hw).1.trans hk

/-- When nothing waits any more, everything that can be reached is expanded. -/
lemma expanded_of_walk (h : Frontier adj root expanded []) {k : ℕ} {g : α}
    (walk : Walk adj root k g) : ∃ w ∈ expanded, w.2 = g := by
  rcases h.covers walk with ⟨w, hw, heq, -⟩ | ⟨w, hw, -⟩
  · exact ⟨w, hw, heq⟩
  · cases hw

end Frontier
