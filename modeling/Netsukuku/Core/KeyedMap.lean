import Mathlib

/-!
# Finite maps listed in their iteration order

A hash map of the source is a set of key/value pairs with distinct keys together with an
iteration order nothing promises anything about.  `KeyedMap κ ν` is the list of its entries in
the order an iteration meets them, with distinctness of the keys as a field, so a map with a
repeated key cannot be built.  An ordered (tree) map is the same structure filled through
`insertOrdered`, which keeps the entries sorted.

* `mem_entries_iff` — an entry is listed exactly when its key looks up to its value; every other
  lookup lemma follows from it.
* `HashOrder` — an iteration order the runtime may pick, any rearrangement at all; what is proved
  for every `HashOrder` holds whatever the hasher does.
-/

/-- An iteration order picked by the runtime: some rearrangement of each list. -/
structure HashOrder (α : Type) where
  arrange : List α → List α
  perm : ∀ l, (arrange l).Perm l

/-- The order in which the entries were inserted. -/
def HashOrder.asInserted {α : Type} : HashOrder α := ⟨id, fun _ => List.Perm.refl _⟩

/-- A finite map, listed in iteration order. -/
structure KeyedMap (κ ν : Type) where
  entries : List (κ × ν)
  nodup : (entries.map Prod.fst).Nodup

namespace KeyedMap

variable {κ ν μ : Type}

/-- The empty map. -/
def empty : KeyedMap κ ν := ⟨[], List.nodup_nil⟩

/-- The keys, in iteration order. -/
def keys (m : KeyedMap κ ν) : List κ := m.entries.map Prod.fst

/-- The values, in iteration order. -/
def values (m : KeyedMap κ ν) : List ν := m.entries.map Prod.snd

/-- The same entries, iterated in the order the runtime picks. -/
def rearrange (o : HashOrder (κ × ν)) (m : KeyedMap κ ν) : KeyedMap κ ν where
  entries := o.arrange m.entries
  nodup := ((o.perm m.entries).map Prod.fst).nodup_iff.mpr m.nodup

/-- Rewrites every value, dropping the entries `f` sends to `none`. -/
def filterMapValues (f : ν → Option μ) (m : KeyedMap κ ν) : KeyedMap κ μ where
  entries := m.entries.filterMap fun e => (f e.2).map (Prod.mk e.1)
  nodup := by
    have hsub : ((m.entries.filterMap fun e => (f e.2).map (Prod.mk e.1)).map Prod.fst).Sublist
        (m.entries.map Prod.fst) := by
      induction m.entries with
      | nil => exact List.Sublist.refl _
      | cons e es ih =>
          rw [List.filterMap_cons]
          cases h : f e.2 with
          | none => exact ih.cons _
          | some w => exact ih.cons_cons _
    exact m.nodup.sublist hsub

@[simp] lemma values_empty : (empty : KeyedMap κ ν).values = [] := rfl

@[simp] lemma entries_empty : (empty : KeyedMap κ ν).entries = [] := rfl

@[simp] lemma mem_rearrange {o : HashOrder (κ × ν)} {m : KeyedMap κ ν} {e : κ × ν} :
    e ∈ (m.rearrange o).entries ↔ e ∈ m.entries := (o.perm m.entries).mem_iff

lemma mem_values {m : KeyedMap κ ν} {v : ν} : v ∈ m.values ↔ ∃ k, (k, v) ∈ m.entries := by
  simp [values]

lemma mem_filterMapValues {f : ν → Option μ} {m : KeyedMap κ ν} {k : κ} {w : μ} :
    (k, w) ∈ (m.filterMapValues f).entries ↔ ∃ v, (k, v) ∈ m.entries ∧ f v = some w := by
  simp only [filterMapValues, List.mem_filterMap, Option.map_eq_some_iff, Prod.mk.injEq,
    Prod.exists]
  constructor
  · rintro ⟨k', v, hmem, w', hf, rfl, rfl⟩
    exact ⟨v, hmem, hf⟩
  · rintro ⟨v, hmem, hf⟩
    exact ⟨k, v, hmem, w, hf, rfl, rfl⟩

section Lookup

variable [DecidableEq κ]

/-- The value stored under `k`. -/
def get? (m : KeyedMap κ ν) (k : κ) : Option ν := (m.entries.find? (·.1 = k)).map Prod.snd

/-- True if `k` is a key. -/
def contains (m : KeyedMap κ ν) (k : κ) : Bool := (m.get? k).isSome

/-- Removes `k`; the other entries keep their order. -/
def erase (m : KeyedMap κ ν) (k : κ) : KeyedMap κ ν where
  entries := m.entries.filter (·.1 ≠ k)
  nodup := m.nodup.sublist (List.filter_sublist.map _)

/-- Keeps the entries `p` holds of, in their order. -/
def retain (m : KeyedMap κ ν) (p : κ → ν → Bool) : KeyedMap κ ν where
  entries := m.entries.filter fun e => p e.1 e.2
  nodup := m.nodup.sublist (List.filter_sublist.map _)

/-- Stores `v` under `k`, replacing what was there; a new key is met last. -/
def insert (m : KeyedMap κ ν) (k : κ) (v : ν) : KeyedMap κ ν where
  entries := (m.erase k).entries ++ [(k, v)]
  nodup := by
    rw [List.map_append, List.nodup_append]
    refine ⟨(m.erase k).nodup, by simp, ?_⟩
    intro a ha b hb
    obtain ⟨e, he, rfl⟩ := List.mem_map.mp ha
    simp only [erase, List.mem_filter, decide_eq_true_eq] at he
    simp only [List.map_cons, List.map_nil, List.mem_singleton] at hb
    exact hb ▸ he.2

/-- An entry is listed exactly when its key looks up to its value. -/
theorem mem_entries_iff {m : KeyedMap κ ν} {k : κ} {v : ν} :
    (k, v) ∈ m.entries ↔ m.get? k = some v := by
  obtain ⟨es, hnd⟩ := m
  simp only [get?]
  induction es with
  | nil => simp
  | cons e es ih =>
      rw [List.map_cons, List.nodup_cons] at hnd
      by_cases hk : e.1 = k
      · rw [List.find?_cons_of_pos (by simpa using hk)]
        constructor
        · intro h
          rcases List.mem_cons.mp h with rfl | h
          · rfl
          · exact absurd (List.mem_map.mpr ⟨(k, v), h, rfl⟩) (hk ▸ hnd.1)
        · intro h
          have hv : e.2 = v := by simpa using h
          have he : e = (k, v) := Prod.ext hk hv
          rw [he]
          exact List.mem_cons_self
      · rw [List.find?_cons_of_neg (by simpa using hk), ← ih hnd.2, List.mem_cons]
        refine ⟨fun h => h.resolve_left fun he => hk ?_, Or.inr⟩
        rw [← he]

lemma get?_eq_none_iff {m : KeyedMap κ ν} {k : κ} :
    m.get? k = none ↔ ∀ v, (k, v) ∉ m.entries := by
  constructor
  · intro h v hv
    rw [mem_entries_iff.mp hv] at h
    cases h
  · intro h
    cases hg : m.get? k with
    | none => rfl
    | some v => exact absurd (mem_entries_iff.mpr hg) (h v)

/-- Two maps with the same entries look up alike. -/
lemma get?_congr {m m' : KeyedMap κ ν} (h : ∀ e, e ∈ m.entries ↔ e ∈ m'.entries) (k : κ) :
    m.get? k = m'.get? k := by
  cases hg : m'.get? k with
  | none =>
      rw [get?_eq_none_iff] at hg ⊢
      exact fun v hv => hg v ((h _).mp hv)
  | some v => exact mem_entries_iff.mp ((h _).mpr (mem_entries_iff.mpr hg))

@[simp] lemma get?_rearrange (o : HashOrder (κ × ν)) (m : KeyedMap κ ν) (k : κ) :
    (m.rearrange o).get? k = m.get? k :=
  get?_congr (fun _ => mem_rearrange) k

lemma mem_values_of_get? {m : KeyedMap κ ν} {k : κ} {v : ν} (h : m.get? k = some v) :
    v ∈ m.values :=
  mem_values.mpr ⟨k, mem_entries_iff.mpr h⟩

@[simp] lemma get?_empty (k : κ) : (empty : KeyedMap κ ν).get? k = none := rfl

lemma mem_erase {m : KeyedMap κ ν} {k k' : κ} {v : ν} :
    (k', v) ∈ (m.erase k).entries ↔ k' ≠ k ∧ (k', v) ∈ m.entries := by
  simp [erase, and_comm]

lemma mem_insert {m : KeyedMap κ ν} {k k' : κ} {v v' : ν} :
    (k', v') ∈ (m.insert k v).entries ↔ (k' = k ∧ v' = v) ∨ (k' ≠ k ∧ (k', v') ∈ m.entries) := by
  simp only [insert, List.mem_append, mem_erase, List.mem_singleton, Prod.mk.injEq]
  exact or_comm

@[simp] lemma get?_erase_self (m : KeyedMap κ ν) (k : κ) : (m.erase k).get? k = none := by
  rw [get?_eq_none_iff]
  intro v hv
  exact (mem_erase.mp hv).1 rfl

lemma get?_erase_of_ne (m : KeyedMap κ ν) {k k' : κ} (h : k' ≠ k) :
    (m.erase k).get? k' = m.get? k' := by
  cases hg : m.get? k' with
  | none =>
      rw [get?_eq_none_iff] at hg ⊢
      exact fun v hv => hg v (mem_erase.mp hv).2
  | some v => exact mem_entries_iff.mp (mem_erase.mpr ⟨h, mem_entries_iff.mpr hg⟩)

@[simp] lemma get?_insert_self (m : KeyedMap κ ν) (k : κ) (v : ν) :
    (m.insert k v).get? k = some v :=
  mem_entries_iff.mp (mem_insert.mpr (Or.inl ⟨rfl, rfl⟩))

lemma get?_insert_of_ne (m : KeyedMap κ ν) {k k' : κ} (v : ν) (h : k' ≠ k) :
    (m.insert k v).get? k' = m.get? k' := by
  cases hg : m.get? k' with
  | none =>
      rw [get?_eq_none_iff] at hg ⊢
      intro w hw
      rcases mem_insert.mp hw with ⟨hk, _⟩ | ⟨_, hw⟩
      · exact h hk
      · exact hg w hw
  | some w => exact mem_entries_iff.mp (mem_insert.mpr (Or.inr ⟨h, mem_entries_iff.mpr hg⟩))

/-- Erasing a key is a pointwise update of the lookup. -/
lemma get?_erase_eq_update (m : KeyedMap κ ν) (k : κ) :
    (m.erase k).get? = Function.update m.get? k none := by
  funext k'
  by_cases h : k' = k
  · rw [h, get?_erase_self, Function.update_self]
  · rw [get?_erase_of_ne m h, Function.update_of_ne h]

/-- Storing under a key is a pointwise update of the lookup. -/
lemma get?_insert_eq_update (m : KeyedMap κ ν) (k : κ) (v : ν) :
    (m.insert k v).get? = Function.update m.get? k (some v) := by
  funext k'
  by_cases h : k' = k
  · rw [h, get?_insert_self, Function.update_self]
  · rw [get?_insert_of_ne m v h, Function.update_of_ne h]

/-- Erasing keys one after the other. -/
lemma get?_foldl_erase {α : Type} (f : α → κ) (l : List α) (m : KeyedMap κ ν) (k : κ) :
    (l.foldl (fun m a => m.erase (f a)) m).get? k = if k ∈ l.map f then none else m.get? k := by
  induction l generalizing m with
  | nil => rfl
  | cons a l ih =>
      rw [List.foldl_cons, ih, get?_erase_eq_update]
      by_cases h : k ∈ l.map f
      · rw [if_pos h, if_pos (by rw [List.map_cons]; exact List.mem_cons_of_mem _ h)]
      · rw [if_neg h]
        by_cases hk : k = f a
        · rw [hk, Function.update_self, if_pos (by rw [List.map_cons]; exact List.mem_cons_self)]
        · rw [Function.update_of_ne hk, if_neg]
          rw [List.map_cons, List.mem_cons]
          exact fun hmem => hmem.elim hk h

lemma get?_retain (m : KeyedMap κ ν) (p : κ → ν → Bool) (k : κ) :
    (m.retain p).get? k = (m.get? k).filter (p k) := by
  have hmem : ∀ v, (k, v) ∈ (m.retain p).entries ↔ (k, v) ∈ m.entries ∧ p k v = true :=
    fun v => List.mem_filter
  cases hg : m.get? k with
  | none =>
      rw [get?_eq_none_iff] at hg
      rw [Option.filter_none, get?_eq_none_iff]
      exact fun v hv => hg v ((hmem v).mp hv).1
  | some v =>
      by_cases hp : p k v = true
      · rw [Option.filter_some, if_pos hp, ← mem_entries_iff]
        exact (hmem v).mpr ⟨mem_entries_iff.mpr hg, hp⟩
      · rw [Option.filter_some, if_neg hp, get?_eq_none_iff]
        intro w hw
        obtain ⟨hw, hpw⟩ := (hmem w).mp hw
        rw [mem_entries_iff.mp hw] at hg
        exact hp (Option.some.inj hg ▸ hpw)

/-- Storing puts the entry beside the others. -/
lemma perm_insert (m : KeyedMap κ ν) (k : κ) (v : ν) :
    (m.insert k v).entries.Perm ((k, v) :: (m.erase k).entries) :=
  List.perm_append_singleton _ _

/-- Erasing a key that is not there. -/
lemma erase_entries_of_get?_none {m : KeyedMap κ ν} {k : κ} (h : m.get? k = none) :
    (m.erase k).entries = m.entries := by
  refine List.filter_eq_self.mpr fun e he => decide_eq_true fun hk => ?_
  exact get?_eq_none_iff.mp h e.2 (hk ▸ he)

/-- A stored entry beside the others. -/
lemma perm_erase {m : KeyedMap κ ν} {k : κ} {v : ν} (h : m.get? k = some v) :
    m.entries.Perm ((k, v) :: (m.erase k).entries) := by
  refine (List.perm_ext_iff_of_nodup (List.Nodup.of_map _ m.nodup)
    (List.nodup_cons.mpr ⟨fun hmem => (mem_erase.mp hmem).1 rfl,
      List.Nodup.of_map _ (m.erase k).nodup⟩)).mpr fun e => ?_
  obtain ⟨k', v'⟩ := e
  rw [List.mem_cons, mem_erase, mem_entries_iff, Prod.mk.injEq]
  constructor
  · intro hget
    by_cases hk : k' = k
    · subst hk
      exact .inl ⟨rfl, Option.some.inj (hget.symm.trans h)⟩
    · exact .inr ⟨hk, hget⟩
  · rintro (⟨rfl, rfl⟩ | ⟨_, hget⟩)
    · exact h
    · exact hget

/-- How many values satisfy `p`, one of them taken out. -/
lemma countP_values_erase {m : KeyedMap κ ν} {k : κ} {v : ν} (h : m.get? k = some v)
    (p : ν → Bool) :
    m.values.countP p = (m.erase k).values.countP p + if p v then 1 else 0 := by
  rw [values, ((perm_erase h).map Prod.snd).countP_eq p, List.map_cons, List.countP_cons]
  rfl

/-- How many values satisfy `p`, one of them put in. -/
lemma countP_values_insert (m : KeyedMap κ ν) (k : κ) (v : ν) (p : ν → Bool) :
    (m.insert k v).values.countP p = (m.erase k).values.countP p + if p v then 1 else 0 := by
  rw [values, ((perm_insert m k v).map Prod.snd).countP_eq p, List.map_cons, List.countP_cons]
  rfl

lemma mem_keys_iff {m : KeyedMap κ ν} {k : κ} : k ∈ m.keys ↔ ∃ v, m.get? k = some v := by
  simp only [keys, List.mem_map, Prod.exists, exists_and_right, exists_eq_right, mem_entries_iff]

lemma get?_filterMapValues (f : ν → Option μ) (m : KeyedMap κ ν) (k : κ) :
    (m.filterMapValues f).get? k = (m.get? k).bind f := by
  cases hg : m.get? k with
  | none =>
      rw [get?_eq_none_iff] at hg
      rw [Option.bind_none, get?_eq_none_iff]
      intro w hw
      obtain ⟨v, hv, _⟩ := mem_filterMapValues.mp hw
      exact hg v hv
  | some v =>
      rw [Option.bind_some]
      cases hf : f v with
      | none =>
          rw [get?_eq_none_iff]
          intro w hw
          obtain ⟨v', hv', hf'⟩ := mem_filterMapValues.mp hw
          rw [mem_entries_iff.mp hv'] at hg
          rw [Option.some.inj hg, hf] at hf'
          cases hf'
      | some w =>
          exact mem_entries_iff.mp (mem_filterMapValues.mpr ⟨v, mem_entries_iff.mpr hg, hf⟩)

lemma contains_iff {m : KeyedMap κ ν} {k : κ} : m.contains k = true ↔ ∃ v, m.get? k = some v := by
  rw [contains, Option.isSome_iff_exists]

lemma contains_insert {m : KeyedMap κ ν} {k k' : κ} {v : ν} :
    (m.insert k v).contains k' = true ↔ k' = k ∨ m.contains k' = true := by
  by_cases h : k' = k
  · simp [h, contains]
  · simp [h, contains, get?_insert_of_ne m v h]

lemma contains_erase {m : KeyedMap κ ν} {k k' : κ} :
    (m.erase k).contains k' = true ↔ k' ≠ k ∧ m.contains k' = true := by
  by_cases h : k' = k
  · simp [h, contains]
  · simp [h, contains, get?_erase_of_ne m h]

end Lookup

section Ordered

variable [LinearOrder κ]

/-- Insertion into an ordered map: the smaller keys, the new entry, the greater keys. -/
def insertOrdered (m : KeyedMap κ ν) (k : κ) (v : ν) : KeyedMap κ ν where
  entries := m.entries.filter (·.1 < k) ++ (k, v) :: m.entries.filter (k < ·.1)
  nodup := by
    rw [List.map_append, List.map_cons, List.nodup_append, List.nodup_cons]
    refine ⟨m.nodup.sublist (List.filter_sublist.map _), ⟨?_, m.nodup.sublist
      (List.filter_sublist.map _)⟩, ?_⟩
    · intro h
      obtain ⟨e, he, hk⟩ := List.mem_map.mp h
      simp only [List.mem_filter, decide_eq_true_eq] at he
      exact absurd hk (ne_of_gt he.2)
    · intro a ha b hb
      obtain ⟨e, he, rfl⟩ := List.mem_map.mp ha
      simp only [List.mem_filter, decide_eq_true_eq] at he
      rcases List.mem_cons.mp hb with rfl | hb
      · exact ne_of_lt he.2
      · obtain ⟨e', he', rfl⟩ := List.mem_map.mp hb
        simp only [List.mem_filter, decide_eq_true_eq] at he'
        exact ne_of_lt (he.2.trans he'.2)

lemma mem_insertOrdered {m : KeyedMap κ ν} {k k' : κ} {v v' : ν} :
    (k', v') ∈ (m.insertOrdered k v).entries ↔
      (k' = k ∧ v' = v) ∨ (k' ≠ k ∧ (k', v') ∈ m.entries) := by
  simp only [insertOrdered, List.mem_append, List.mem_cons, List.mem_filter, decide_eq_true_eq,
    Prod.mk.injEq]
  constructor
  · rintro (⟨h, hlt⟩ | h | ⟨h, hlt⟩)
    · exact Or.inr ⟨ne_of_lt hlt, h⟩
    · exact Or.inl h
    · exact Or.inr ⟨ne_of_gt hlt, h⟩
  · rintro (h | ⟨hne, h⟩)
    · exact Or.inr (Or.inl h)
    · rcases lt_or_gt_of_ne hne with hlt | hlt
      · exact Or.inl ⟨h, hlt⟩
      · exact Or.inr (Or.inr ⟨h, hlt⟩)

lemma get?_insertOrdered [DecidableEq κ] (m : KeyedMap κ ν) (k : κ) (v : ν) (k' : κ) :
    (m.insertOrdered k v).get? k' = (m.insert k v).get? k' :=
  get?_congr (fun _ => mem_insertOrdered.trans mem_insert.symm) k'

lemma get?_insertOrdered_eq_update [DecidableEq κ] (m : KeyedMap κ ν) (k : κ) (v : ν) :
    (m.insertOrdered k v).get? = Function.update m.get? k (some v) := by
  funext k'
  rw [get?_insertOrdered]
  by_cases h : k' = k
  · rw [h, get?_insert_self, Function.update_self]
  · rw [get?_insert_of_ne m v h, Function.update_of_ne h]

/-- The keys stay in order. -/
lemma pairwise_insertOrdered {m : KeyedMap κ ν} (h : m.keys.Pairwise (· < ·)) (k : κ) (v : ν) :
    (m.insertOrdered k v).keys.Pairwise (· < ·) := by
  have hbelow : ∀ e ∈ m.entries.filter (·.1 < k), e.1 < k := fun e he => by simpa using
    (List.mem_filter.mp he).2
  have habove : ∀ e ∈ m.entries.filter (k < ·.1), k < e.1 := fun e he => by simpa using
    (List.mem_filter.mp he).2
  rw [keys, List.pairwise_map] at h ⊢
  rw [insertOrdered, List.pairwise_append, List.pairwise_cons]
  refine ⟨h.filter _, ⟨habove, h.filter _⟩, fun e he e' he' => ?_⟩
  rcases List.mem_cons.mp he' with rfl | he'
  · exact hbelow e he
  · exact (hbelow e he).trans (habove e' he')

/-- Storing puts the entry beside the others. -/
lemma perm_insertOrdered [DecidableEq κ] (m : KeyedMap κ ν) (k : κ) (v : ν) :
    (m.insertOrdered k v).entries.Perm ((k, v) :: (m.erase k).entries) := by
  have hsame : (m.insertOrdered k v).entries.Perm (m.insert k v).entries :=
    (List.perm_ext_iff_of_nodup (List.Nodup.of_map _ (m.insertOrdered k v).nodup)
      (List.Nodup.of_map _ (m.insert k v).nodup)).mpr fun e =>
        mem_insertOrdered.trans mem_insert.symm
  exact hsame.trans (perm_insert m k v)

/-- How many values satisfy `p`, one of them put in. -/
lemma countP_values_insertOrdered [DecidableEq κ] (m : KeyedMap κ ν) (k : κ) (v : ν)
    (p : ν → Bool) :
    (m.insertOrdered k v).values.countP p =
      (m.erase k).values.countP p + if p v then 1 else 0 := by
  rw [values, ((perm_insertOrdered m k v).map Prod.snd).countP_eq p, List.map_cons,
    List.countP_cons]
  rfl

lemma length_insertOrdered [DecidableEq κ] (m : KeyedMap κ ν) (k : κ) (v : ν) :
    (m.insertOrdered k v).entries.length =
      m.entries.length + if m.contains k then 0 else 1 := by
  rw [(perm_insertOrdered m k v).length_eq, List.length_cons]
  cases hget : m.get? k with
  | none => simp [contains, hget, erase_entries_of_get?_none hget]
  | some w => simp [contains, hget, (perm_erase hget).length_eq]

lemma contains_insertOrdered [DecidableEq κ] {m : KeyedMap κ ν} {k k' : κ} {v : ν} :
    (m.insertOrdered k v).contains k' = true ↔ k' = k ∨ m.contains k' = true := by
  rw [contains, get?_insertOrdered]
  exact contains_insert

end Ordered

end KeyedMap
