import Mathlib

/-!
# Minimum, stable sort and first-of-a-kind on lists

The list idioms an admission loop is made of, with the fact that ties three of them together.

* `firstMin key l` — the first element of least key (`min_by_key`).
* `List.insertionSort` by key — a stable sort (`sort_by_key`).
* `dedupOn key seen l` — keep the first element of each key, given the keys already seen.
* `representatives same l` — keep an element unless it is the same as one already kept, for a
  sameness that need not be transitive.

`find?_insertionSort` is the tie: in a stably sorted list, the first element satisfying `p` is
the first cheapest among the elements that satisfied `p` before the sort.
-/

namespace Scan

variable {α β κ ω : Type}

section Minimum

variable [LinearOrder ω]

/-- The first element of least key. -/
def firstMin (key : α → ω) : List α → Option α
  | [] => none
  | a :: l =>
      match firstMin key l with
      | none => some a
      | some b => if key b < key a then some b else some a

lemma firstMin_mem {key : α → ω} :
    ∀ {l : List α} {a : α}, firstMin key l = some a → a ∈ l
  | [], _, h => by simp [firstMin] at h
  | b :: l, a, h => by
      rw [firstMin] at h
      cases hl : firstMin key l with
      | none =>
          rw [hl] at h
          exact List.mem_cons.mpr (Or.inl (Option.some.inj h).symm)
      | some c =>
          simp only [hl] at h
          split_ifs at h
          · exact List.mem_cons_of_mem b (firstMin_mem (hl.trans h))
          · exact List.mem_cons.mpr (Or.inl (Option.some.inj h).symm)

lemma firstMin_eq_none {key : α → ω} {l : List α} : firstMin key l = none ↔ l = [] := by
  cases l with
  | nil => simp [firstMin]
  | cons a l =>
      rw [firstMin]
      cases firstMin key l with
      | none => simp
      | some b => by_cases h : key b < key a <;> simp [h]

lemma exists_firstMin (key : α → ω) {l : List α} (h : l ≠ []) : ∃ a, firstMin key l = some a :=
  Option.ne_none_iff_exists'.mp fun hn => h (firstMin_eq_none.mp hn)

lemma firstMin_le {key : α → ω} :
    ∀ {l : List α} {a : α}, firstMin key l = some a → ∀ b ∈ l, key a ≤ key b
  | [], _, h => by simp [firstMin] at h
  | c :: l, a, h => by
      intro b hb
      rw [firstMin] at h
      cases hl : firstMin key l with
      | none =>
          rw [firstMin_eq_none] at hl
          subst hl
          simp only [firstMin, Option.some.injEq] at h
          subst h
          rw [List.mem_singleton.mp hb]
      | some d =>
          simp only [hl] at h
          have hd := firstMin_le hl
          split_ifs at h with hlt
          · obtain rfl := Option.some.inj h
            rcases List.mem_cons.mp hb with rfl | hb
            · exact hlt.le
            · exact hd b hb
          · obtain rfl := Option.some.inj h
            rcases List.mem_cons.mp hb with rfl | hb
            · exact le_refl _
            · exact (not_lt.mp hlt).trans (hd b hb)

/-- A head no later element undercuts is the first minimum. -/
lemma firstMin_cons_of_le {key : α → ω} {a : α} {l : List α} (h : ∀ b ∈ l, key a ≤ key b) :
    firstMin key (a :: l) = some a := by
  rw [firstMin]
  cases hl : firstMin key l with
  | none => rfl
  | some b => exact if_neg (not_lt.mpr (h b (firstMin_mem hl)))

lemma firstMin_map {key : β → ω} (f : α → β) (l : List α) :
    firstMin key (l.map f) = (firstMin (fun a => key (f a)) l).map f := by
  induction l with
  | nil => rfl
  | cons a l ih =>
      rw [List.map_cons, firstMin, ih, firstMin]
      cases firstMin (fun a => key (f a)) l with
      | none => rfl
      | some b =>
          simp only [Option.map_some]
          split_ifs <;> rfl

lemma firstMin_congr {key key' : α → ω} {l : List α} (h : ∀ a ∈ l, key a = key' a) :
    firstMin key l = firstMin key' l := by
  induction l with
  | nil => rfl
  | cons a l ih =>
      rw [firstMin, firstMin, ← ih fun b hb => h b (List.mem_cons_of_mem a hb)]
      cases hl : firstMin key l with
      | none => rfl
      | some b =>
          simp only
          rw [h a List.mem_cons_self, h b (List.mem_cons_of_mem a (firstMin_mem hl))]

/-- Inserting into a sorted list: what the first match becomes. -/
lemma find?_orderedInsert {key : α → ω} (p : α → Bool) (a : α) :
    ∀ {l : List α}, l.Pairwise (fun x y => key x ≤ key y) →
      (l.orderedInsert (fun x y => key x ≤ key y) a).find? p
        = if p a then
            match l.find? p with
            | none => some a
            | some b => if key b < key a then some b else some a
          else l.find? p
  | [], _ => by cases hp : p a <;> simp [hp]
  | c :: l, hs => by
      obtain ⟨hc, hl⟩ := List.pairwise_cons.mp hs
      by_cases hle : key a ≤ key c
      · have hins : (c :: l).orderedInsert (fun x y => key x ≤ key y) a = a :: c :: l := by
          rw [List.orderedInsert_cons, if_pos hle]
        rw [hins, List.find?_cons]
        cases hp : p a with
        | false => simp
        | true =>
            cases hf : (c :: l).find? p with
            | none => simp
            | some b =>
                have hcb : key c ≤ key b := by
                  rcases List.mem_cons.mp (List.mem_of_find?_eq_some hf) with rfl | hb
                  · exact le_refl _
                  · exact hc b hb
                simp [not_lt.mpr (hle.trans hcb)]
      · rw [List.orderedInsert_cons, if_neg hle, List.find?_cons, List.find?_cons,
          find?_orderedInsert p a hl]
        cases hpc : p c with
        | false => simp
        | true => simp [not_le.mp hle]

/-- **A stable sort brings the first cheapest match forward.** -/
theorem find?_insertionSort {key : α → ω} (p : α → Bool) (l : List α) :
    (l.insertionSort fun x y => key x ≤ key y).find? p = firstMin key (l.filter p) := by
  induction l with
  | nil => rfl
  | cons a l ih =>
      have hs : (l.insertionSort fun x y => key x ≤ key y).Pairwise fun x y => key x ≤ key y :=
        List.pairwise_insertionSort (fun x y => key x ≤ key y) l
      rw [List.insertionSort_cons, find?_orderedInsert p a hs, ih]
      cases hp : p a with
      | false => simp [hp]
      | true => simp [hp, firstMin]

/-- The head of a stable sort is the first minimum. -/
lemma head?_insertionSort {key : α → ω} {l : List α} :
    (l.insertionSort fun x y => key x ≤ key y).head? = firstMin key l := by
  have hfind := @find?_insertionSort _ _ _ key (fun _ => true) l
  rw [List.filter_true] at hfind
  rw [← hfind, ← List.head?_filter, List.filter_true]

/-- The first minimum stays where it is let through. -/
lemma firstMin_filter {key : α → ω} {l : List α} {a : α} (p : α → Bool)
    (h : firstMin key l = some a) (hp : p a = true) :
    firstMin key (l.filter p) = some a := by
  rw [← head?_insertionSort] at h
  rw [← find?_insertionSort]
  cases hsorted : l.insertionSort fun x y => key x ≤ key y with
  | nil =>
      rw [hsorted] at h
      cases h
  | cons b rest =>
      rw [hsorted, List.head?_cons] at h
      rw [Option.some.inj h]
      exact List.find?_cons_of_pos hp

end Minimum

section Dedup

variable [DecidableEq κ]

/-- Keeps the first element of each key, skipping the keys already `seen`. -/
def dedupOn (key : α → κ) : List κ → List α → List α
  | _, [] => []
  | seen, a :: l =>
      if key a ∈ seen then dedupOn key seen l else a :: dedupOn key (seen ++ [key a]) l

lemma dedupOn_sublist (key : α → κ) :
    ∀ (seen : List κ) (l : List α), (dedupOn key seen l).Sublist l
  | _, [] => List.Sublist.refl _
  | seen, a :: l => by
      rw [dedupOn]
      split_ifs
      · exact (dedupOn_sublist key seen l).cons a
      · exact (dedupOn_sublist key _ l).cons_cons a

lemma notMem_seen_of_mem_dedupOn {key : α → κ} :
    ∀ {seen : List κ} {l : List α} {a : α}, a ∈ dedupOn key seen l → key a ∉ seen
  | seen, [], a, h => by simp [dedupOn] at h
  | seen, b :: l, a, h => by
      rw [dedupOn] at h
      split_ifs at h with hb
      · exact notMem_seen_of_mem_dedupOn h
      · rcases List.mem_cons.mp h with rfl | h
        · exact hb
        · exact fun hs => notMem_seen_of_mem_dedupOn h (List.mem_append_left _ hs)

/-- The kept elements have pairwise distinct keys. -/
lemma nodup_dedupOn (key : α → κ) :
    ∀ (seen : List κ) (l : List α), ((dedupOn key seen l).map key).Nodup
  | _, [] => List.nodup_nil
  | seen, a :: l => by
      rw [dedupOn]
      split_ifs
      · exact nodup_dedupOn key seen l
      · rw [List.map_cons, List.nodup_cons]
        refine ⟨fun h => ?_, nodup_dedupOn key _ l⟩
        obtain ⟨b, hb, hba⟩ := List.mem_map.mp h
        exact notMem_seen_of_mem_dedupOn hb (by simp [hba])

/-- Looking for any kind of key, the first element found is the one that is kept. -/
lemma find?_dedupOn_of_key (key : α → κ) (P : κ → Bool) :
    ∀ (seen : List κ) (l : List α), (∀ k ∈ seen, P k = false) →
      (dedupOn key seen l).find? (fun a => P (key a)) = l.find? (fun a => P (key a))
  | _, [], _ => rfl
  | seen, a :: l, hseen => by
      rw [dedupOn]
      cases ha : P (key a) with
      | true =>
          have hnew : key a ∉ seen := by
            intro hmem
            rw [hseen _ hmem] at ha
            cases ha
          rw [if_neg hnew, List.find?_cons_of_pos (by simpa using ha),
            List.find?_cons_of_pos (by simpa using ha)]
      | false =>
          rw [List.find?_cons_of_neg (by simpa using ha)]
          split_ifs with hs
          · exact find?_dedupOn_of_key key P seen l hseen
          · rw [List.find?_cons_of_neg (by simpa using ha)]
            refine find?_dedupOn_of_key key P _ l fun k hk => ?_
            rcases List.mem_append.mp hk with hk | hk
            · exact hseen k hk
            · rw [List.mem_singleton.mp hk, ha]

/-- What is kept for a key is the first element carrying it. -/
lemma find?_dedupOn (key : α → κ) (k : κ) (seen : List κ) (l : List α) (hk : k ∉ seen) :
    (dedupOn key seen l).find? (fun a => key a = k) = l.find? (fun a => key a = k) := by
  refine find?_dedupOn_of_key key (fun k' => decide (k' = k)) seen l fun k' hk' => ?_
  exact decide_eq_false fun he => hk (he ▸ hk')

/-- Listing each element once loses none. -/
lemma mem_dedupOn_id [DecidableEq α] {l : List α} {a : α} : a ∈ dedupOn id [] l ↔ a ∈ l := by
  refine ⟨fun h => (dedupOn_sublist _ _ _).subset h, fun h => ?_⟩
  have hsome : (l.find? fun b => id b = a).isSome := by
    rw [List.find?_isSome]
    exact ⟨a, h, by simp⟩
  rw [← find?_dedupOn id a [] l (by simp), List.find?_isSome] at hsome
  obtain ⟨b, hb, hba⟩ := hsome
  have hab : b = a := by simpa using hba
  exact hab ▸ hb

end Dedup

section Keyed

variable [DecidableEq κ]

/-- In a list with distinct keys, the first element of a key is the only one. -/
lemma find?_eq_some_of_nodup {key : α → κ} :
    ∀ {l : List α} {a : α}, (l.map key).Nodup → a ∈ l →
      l.find? (fun b => key b = key a) = some a
  | [], _, _, h => by simp at h
  | b :: l, a, hnd, h => by
      rw [List.map_cons, List.nodup_cons] at hnd
      rcases List.mem_cons.mp h with rfl | h
      · simp
      · have hne : key b ≠ key a := fun he => hnd.1 (he ▸ List.mem_map_of_mem h)
        rw [List.find?_cons_of_neg (by simpa using hne)]
        exact find?_eq_some_of_nodup hnd.2 h

/-- In a list with distinct keys, the elements of a key are one. -/
lemma filter_key_of_nodup {key : α → κ} :
    ∀ {l : List α} {a : α}, (l.map key).Nodup → a ∈ l →
      l.filter (fun b => decide (key b = key a)) = [a]
  | [], _, _, h => by simp at h
  | b :: l, a, hnd, h => by
      rw [List.map_cons, List.nodup_cons] at hnd
      rcases List.mem_cons.mp h with rfl | h
      · have hnil : l.filter (fun b => decide (key b = key a)) = [] := by
          rw [List.filter_eq_nil_iff]
          intro c hc hca
          exact hnd.1 (of_decide_eq_true hca ▸ List.mem_map_of_mem hc)
        rw [List.filter_cons_of_pos (by simp), hnil]
      · have hne : key b ≠ key a := fun he => hnd.1 (he ▸ List.mem_map_of_mem h)
        rw [List.filter_cons_of_neg (by simpa using hne), filter_key_of_nodup hnd.2 h]

/-- Collecting from a list with distinct keys, what `P` selects comes from one element if it only
selects what carries that element's key. -/
lemma filter_flatMap_of_nodup (key : α → κ) {f : α → List β} {P : β → Bool} {l : List α}
    {a : α} (hnd : (l.map key).Nodup) (ha : a ∈ l)
    (hP : ∀ x ∈ l, ∀ y ∈ f x, P y = true → key x = key a) :
    (l.flatMap f).filter P = (f a).filter P := by
  have hsplit : (l.flatMap f).filter P =
      (l.filter fun x => decide (key x = key a)).flatMap fun x => (f x).filter P := by
    clear hnd ha
    induction l with
    | nil => rfl
    | cons x l ih =>
        have ih := ih fun z hz => hP z (List.mem_cons_of_mem x hz)
        rw [List.flatMap_cons, List.filter_append, ih]
        by_cases hx : key x = key a
        · rw [List.filter_cons_of_pos (by simpa using hx), List.flatMap_cons]
        · have hnil : (f x).filter P = [] := List.filter_eq_nil_iff.mpr fun y hy hPy =>
            hx (hP x List.mem_cons_self y hy hPy)
          rw [List.filter_cons_of_neg (by simpa using hx), hnil, List.nil_append]
  rw [hsplit, filter_key_of_nodup hnd ha, List.flatMap_singleton]

lemma eq_of_key_eq_of_nodup {key : α → κ} {l : List α} {a b : α} (hnd : (l.map key).Nodup)
    (ha : a ∈ l) (hb : b ∈ l) (h : key a = key b) : a = b := by
  have h₁ := find?_eq_some_of_nodup hnd ha
  rw [h, find?_eq_some_of_nodup hnd hb] at h₁
  exact (Option.some.inj h₁).symm

/-- Lists with distinct keys are equal if every kind of key finds the same in both. -/
lemma eq_of_find?_eq {key : α → κ} :
    ∀ {l l' : List α}, (l.map key).Nodup → (l'.map key).Nodup →
      (∀ P : κ → Bool, l.find? (fun a => P (key a)) = l'.find? (fun a => P (key a))) → l = l'
  | [], [], _, _, _ => rfl
  | [], b :: l', _, _, h => by
      have := h fun _ => true
      simp at this
  | a :: l, [], _, _, h => by
      have := h fun _ => true
      simp at this
  | a :: l, b :: l', hnd, hnd', h => by
      obtain rfl : a = b := by
        have := h fun _ => true
        simpa using this
      rw [List.map_cons, List.nodup_cons] at hnd hnd'
      have hskip : ∀ (l : List α) (P : κ → Bool), key a ∉ l.map key →
          (a :: l).find? (fun x => P (key x) && decide (key x ≠ key a)) =
            l.find? fun x => P (key x) := by
        intro l P hl
        rw [List.find?_cons_of_neg (by simp)]
        refine List.find?_congr fun x hx => ?_
        have hne : key x ≠ key a := fun he => hl (he ▸ List.mem_map_of_mem hx)
        simp [hne]
      have htail := @eq_of_find?_eq key l l' hnd.2 hnd'.2 fun P => by
        have := h fun k => P k && decide (k ≠ key a)
        rwa [hskip l P hnd.1, hskip l' P hnd'.1] at this
      rw [htail]

variable [LinearOrder ω]

/-- **A stable sort does not reorder what is sorted.**  If of a sorted list followed by others, the
sort by cost and the selection by key keep just the elements of the list, they keep it as it is;
provided no other element is cheaper than the one of the list with its key. -/
theorem eq_of_selected {cost : α → ω} {key : α → κ} {K : κ → Bool} {md rest od : List α}
    (hmd : (md.map key).Nodup) (hsorted : md.Pairwise fun a b => cost a ≤ cost b)
    (hrest : ∀ a ∈ md, ∀ c ∈ rest, key c = key a → cost a ≤ cost c)
    (hsub : od.Sublist (dedupOn key [] (((md ++ rest).insertionSort fun a b =>
      cost a ≤ cost b).filter fun a => K (key a))))
    (hsame : ∀ a, a ∈ od ↔ a ∈ md) : od = md := by
  set D := dedupOn key [] (((md ++ rest).insertionSort fun a b => cost a ≤ cost b).filter
    fun a => K (key a)) with hD
  have hDnd : (D.map key).Nodup := nodup_dedupOn _ _ _
  refine eq_of_find?_eq (hDnd.sublist (hsub.map key)) hmd fun P => ?_
  -- only the keys of the list matter
  set P' : κ → Bool := fun k => P k && decide (k ∈ md.map key) with hP'
  have hkey : ∀ {a}, a ∈ md → P' (key a) = P (key a) := by
    intro a ha
    simp only [hP', decide_eq_true (List.mem_map_of_mem ha), Bool.and_true]
  have hod : od.find? (fun a => P (key a)) = od.find? fun a => P' (key a) :=
    List.find?_congr fun a ha => (hkey ((hsame a).mp ha)).symm
  have hfilter : od.filter (fun a => P' (key a)) = D.filter fun a => P' (key a) := by
    refine (hsub.filter _).eq_of_length_le ?_
    refine (List.Nodup.of_map key (hDnd.sublist (List.filter_sublist.map key))).length_le_of_subset
      fun a ha => ?_
    obtain ⟨haD, hPa⟩ := List.mem_filter.mp ha
    obtain ⟨b, hb, hba⟩ := List.mem_map.mp (of_decide_eq_true (Bool.and_eq_true_iff.mp hPa).2)
    have hbD := hsub.subset ((hsame b).mpr hb)
    rw [← eq_of_key_eq_of_nodup hDnd hbD haD hba] at hPa ⊢
    exact List.mem_filter.mpr ⟨(hsame b).mpr hb, hPa⟩
  have hDfind : D.find? (fun a => P' (key a)) =
      firstMin cost ((md ++ rest).filter fun a => P' (key a)) := by
    rw [hD, find?_dedupOn_of_key key P' [] _ (by simp), List.find?_filter]
    have hpred : (fun a => decide (K (key a) = true ∧ P' (key a) = true)) =
        fun a => P' (key a) := by
      funext a
      cases hPa : P' (key a) with
      | false => simp
      | true =>
          obtain ⟨b, hb, hba⟩ := List.mem_map.mp (of_decide_eq_true (Bool.and_eq_true_iff.mp hPa).2)
          have hbD := (dedupOn_sublist _ _ _).subset (hsub.subset ((hsame b).mpr hb))
          have hK := (List.mem_filter.mp hbD).2
          rw [hba] at hK
          simp [hK]
    rw [hpred, find?_insertionSort]
  rw [hod, ← List.head?_filter, hfilter, List.head?_filter, hDfind, List.filter_append]
  have hmdP : md.filter (fun a => P' (key a)) = md.filter fun a => P (key a) :=
    List.filter_congr fun a ha => hkey ha
  rw [hmdP, ← List.head?_filter]
  have hback : ∀ c ∈ rest.filter (fun a => P' (key a)),
      ∃ a ∈ md.filter (fun a => P (key a)), cost a ≤ cost c := by
    intro c hc
    obtain ⟨hc, hPc⟩ := List.mem_filter.mp hc
    obtain ⟨hPk, hmem⟩ := Bool.and_eq_true_iff.mp hPc
    obtain ⟨a, ha, hac⟩ := List.mem_map.mp (of_decide_eq_true hmem)
    exact ⟨a, List.mem_filter.mpr ⟨ha, by rw [hac]; exact hPk⟩, hrest a ha c hc hac.symm⟩
  have hpair := hsorted.sublist (List.filter_sublist (p := fun a => P (key a)))
  cases hl : md.filter fun a => P (key a) with
  | nil =>
      have hnil : rest.filter (fun a => P' (key a)) = [] := by
        rw [List.eq_nil_iff_forall_not_mem]
        intro c hc
        obtain ⟨a, ha, -⟩ := hback c hc
        rw [hl] at ha
        cases ha
      rw [hnil]
      rfl
  | cons x xs =>
      rw [hl] at hpair hback
      rw [List.cons_append, firstMin_cons_of_le, List.head?_cons]
      have hx : ∀ b ∈ x :: xs, cost x ≤ cost b := by
        intro b hb
        rcases List.mem_cons.mp hb with rfl | hb
        · exact le_refl _
        · exact (List.pairwise_cons.mp hpair).1 b hb
      intro b hb
      rcases List.mem_append.mp hb with hb | hb
      · exact hx b (List.mem_cons_of_mem x hb)
      · obtain ⟨a, ha, hle⟩ := hback b hb
        exact (hx a ha).trans hle

end Keyed

/-! ## Representatives -/

section Representatives

variable {same : α → α → Bool} {l : List α} {a : α}

/-- One more element, unless it is the same as one that is kept. -/
def keep (same : α → α → Bool) (known : List α) (a : α) : List α :=
  if known.any fun e => same e a then known else known ++ [a]

/-- Each element that was not the same as one kept before it. -/
def representatives (same : α → α → Bool) (l : List α) : List α := l.foldl (keep same) []

lemma mem_foldl_keep {known : List α} (h : a ∈ l.foldl (keep same) known) : a ∈ known ∨ a ∈ l := by
  induction l generalizing known with
  | nil => exact Or.inl h
  | cons b l ih =>
      rcases ih h with h | h
      · rw [keep] at h
        split_ifs at h
        · exact Or.inl h
        rcases List.mem_append.mp h with h | h
        · exact Or.inl h
        · exact Or.inr (List.mem_singleton.mp h ▸ List.mem_cons_self)
      · exact Or.inr (List.mem_cons_of_mem b h)

lemma mem_of_mem_representatives (h : a ∈ representatives same l) : a ∈ l :=
  (mem_foldl_keep h).resolve_left List.not_mem_nil

/-- No representative is the same as an earlier one. -/
lemma pairwise_representatives :
    (representatives same l).Pairwise fun a b => same a b = false := by
  have loop : ∀ (l known : List α), (known.Pairwise fun a b => same a b = false) →
      (l.foldl (keep same) known).Pairwise fun a b => same a b = false := by
    intro l
    induction l with
    | nil => exact fun _ h => h
    | cons b l ih =>
        intro known h
        refine ih _ ?_
        rw [keep]
        split_ifs with hany
        · exact h
        · rw [Bool.not_eq_true, List.any_eq_false] at hany
          refine List.pairwise_append.mpr ⟨h, List.pairwise_singleton _ b, fun x hx y hy => ?_⟩
          rw [List.mem_singleton.mp hy]
          simpa using hany x hx
  exact loop l [] List.Pairwise.nil

/-- Where all are the same there is at most one representative. -/
lemma length_representatives_le_one (h : ∀ a ∈ l, ∀ b ∈ l, same a b = true) :
    (representatives same l).length ≤ 1 := by
  have hpair : (representatives same l).Pairwise fun a b => same a b = false :=
    pairwise_representatives
  have hmem : ∀ a ∈ representatives same l, a ∈ l := fun a ha => mem_of_mem_representatives ha
  match hr : representatives same l with
  | [] => exact Nat.zero_le 1
  | [a] => exact le_rfl
  | a :: b :: rest =>
      rw [hr] at hpair hmem
      have hne := (List.pairwise_cons.mp hpair).1 b List.mem_cons_self
      rw [h a (hmem a List.mem_cons_self) b (hmem b (by simp))] at hne
      cases hne

/-- **Leaving out what is the same as a representative leaves out that one alone.** -/
lemma filter_not_same_eq_erase [BEq α] [LawfulBEq α] (hrefl : ∀ a, same a a = true)
    (hsymm : ∀ a b, same a b = same b a) (hpair : l.Pairwise fun a b => same a b = false)
    (ha : a ∈ l) : (l.filter fun b => !same b a) = l.erase a := by
  have hne : ∀ {b c : α}, same b c = false → b ≠ c := by
    rintro b c hbc rfl
    rw [hrefl] at hbc
    cases hbc
  have hnodup : l.Nodup := hpair.imp hne
  rw [hnodup.erase_eq_filter]
  refine List.filter_congr fun b hb => ?_
  by_cases hba : b = a
  · simp [hba, hrefl]
  · have : Std.Symm fun x y => same x y = false := ⟨fun x y hxy => (hsymm y x).trans hxy⟩
    have hsame : same b a = false := hpair.forall hb ha hba
    simp [hba, hsame]

end Representatives

end Scan
