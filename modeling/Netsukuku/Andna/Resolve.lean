import Mathlib
import Netsukuku.Core.Outcome
import Netsukuku.Andna.Snsd

/-!
# Resolving a service

The enabled records of a service come out tier by tier, the highest priority first; within a tier
each next record is picked at random among those left, in proportion to its weight.

* `Rng` — a generator: any way to answer a request for a number of a range from the range.
* `weightedShuffle`, `SnsdTable.resolve` — the code.
* `Draws` — an order picked by weight without replacement, each pick on a record whose interval of
  the cumulative weights it falls into.
* `resolve_loses_nothing` — what `resolve` returns in every table, whatever the generator does.
-/

namespace Netsukuku

/-- A source of random numbers. -/
structure Rng (G : Type) where
  randomRange (first last : ℕ) (h : first ≤ last) : G → {v : ℕ // first ≤ v ∧ v ≤ last} × G

/-- The sum of the weights, in `u32`. -/
def totalWeight (records : List SnsdRecord) : Outcome AndnaError ℕ :=
  records.foldlM (fun sum r => Outcome.checkedAdd 32 sum r.weight.toNat) 0

/-- The index of the record the pick falls on, from index `i` on. -/
def chooseFrom (i pick : ℕ) : List SnsdRecord → ℕ
  | [] => 0
  | r :: rest =>
      if pick ≤ r.weight.toNat then i else chooseFrom (i + 1) (pick - r.weight.toNat) rest

section Shuffle

variable {G : Type} (rng : Rng G)

/-- At most `n` rounds of the loop of `weighted_shuffle`, which ends when no record is left. -/
def shuffleRounds : ℕ → List SnsdRecord → G → Outcome AndnaError (List SnsdRecord × G)
  | 0, _, g => .ok ([], g)
  | n + 1, records, g =>
      if records = [] then .ok ([], g)
      else do
        let total ← totalWeight records
        if h : 1 ≤ total then
          let (pick, g) := rng.randomRange 1 total h g
          let chosen := chooseFrom 0 pick records
          let record ← Outcome.index records chosen
          let (ordered, g) ← shuffleRounds n (records.eraseIdx chosen) g
          .ok (record :: ordered, g)
        else .error (.panic "cannot sample empty range")

/-- `weighted_shuffle`: every round takes one record away. -/
def weightedShuffle (records : List SnsdRecord) (g : G) :
    Outcome AndnaError (List SnsdRecord × G) :=
  shuffleRounds rng records.length records g

/-- The records joined to the tiers of their priorities, the greatest first. -/
def byPriority (records : List SnsdRecord) : KeyedMap ℕᵒᵈ (List SnsdRecord) :=
  records.foldl (fun tiers r =>
    let key := OrderDual.toDual r.priority.toNat
    tiers.insertOrdered key ((tiers.get? key).getD [] ++ [r])) KeyedMap.empty

/-- One tier after the other. -/
def shuffleTiers (tiers : List (List SnsdRecord)) (g : G) :
    Outcome AndnaError (List SnsdRecord × G) :=
  tiers.foldlM (fun (ordered, g) tier => do
    let (picked, g) ← weightedShuffle rng tier g
    .ok (ordered ++ picked, g)) ([], g)

def SnsdTable.resolve (t : SnsdTable) (service : UInt16) (g : G) :
    Outcome AndnaError (List SnsdRecord × G) :=
  let records := ((t.byService.get? service).filter fun records => !records.isEmpty).or
    (t.byService.get? zeroService)
  match records with
  | none => .ok ([], g)
  | some records =>
      shuffleTiers rng (byPriority (records.filter fun r => 0 < r.weight)).values g

end Shuffle

/-- The calls that change a table. -/
inductive SnsdCall where
  | insert (record : SnsdRecord) (maxPerService maxTotal : ℕ)
  | setZeroRecord (ownerNaddr : Naddr) (priority weight : UInt8)

namespace SnsdTable

def exec (t : SnsdTable) : SnsdCall → SnsdTable
  | .insert record maxPerService maxTotal => (t.insert record maxPerService maxTotal).1
  | .setZeroRecord ownerNaddr priority weight => t.setZeroRecord ownerNaddr priority weight

/-- The table some calls build. -/
def build (calls : List SnsdCall) : SnsdTable := calls.foldl exec new

/-- The records stored for a service. -/
def stored (t : SnsdTable) (service : UInt16) : List SnsdRecord :=
  (t.byService.get? service).getD []

/-- The records that answer for a service: its own, or the zero records if it has none. -/
def answering (t : SnsdTable) (service : UInt16) : List SnsdRecord :=
  if t.stored service = [] then t.stored zeroService else t.stored service

/-- The enabled ones of them. -/
def enabled (t : SnsdTable) (service : UInt16) : List SnsdRecord :=
  (t.answering service).filter fun r => 0 < r.weight

end SnsdTable

/-! ## One tier -/

def weights (records : List SnsdRecord) : ℕ := (records.map (·.weight.toNat)).sum

/-- The pick falls into the interval of the cumulative weights that record `i` has. -/
def FallsOn (records : List SnsdRecord) (pick i : ℕ) : Prop :=
  weights (records.take i) < pick ∧ pick ≤ weights (records.take (i + 1))

/-- The order picked, and what it leaves of the generator: each range asked is not empty, each pick
falls on the record taken, and the rest is picked among the others. -/
inductive Draws {G : Type} (rng : Rng G) : List SnsdRecord → G → List SnsdRecord → G → Prop
  | nil (g : G) : Draws rng [] g [] g
  | cons {records ordered : List SnsdRecord} {g g' : G} {r : SnsdRecord} {i : ℕ}
      (hrange : 1 ≤ weights records) (hget : records[i]? = some r)
      (hfalls : FallsOn records (rng.randomRange 1 (weights records) hrange g).1 i)
      (rest : Draws rng (records.eraseIdx i)
        (rng.randomRange 1 (weights records) hrange g).2 ordered g') :
      Draws rng records g (r :: ordered) g'

lemma weights_cons (r : SnsdRecord) (records : List SnsdRecord) :
    weights (r :: records) = r.weight.toNat + weights records := List.sum_cons

lemma weights_le_of_sublist {records records' : List SnsdRecord} (h : records.Sublist records') :
    weights records ≤ weights records' := (h.map _).sum_le_sum fun _ _ => Nat.zero_le _

/-- A record taken out and put in front. -/
lemma cons_eraseIdx_perm {α : Type} {l : List α} {i : ℕ} {a : α} (h : l[i]? = some a) :
    (a :: l.eraseIdx i).Perm l := by
  obtain ⟨hi, rfl⟩ := List.getElem?_eq_some_iff.mp h
  exact List.getElem_cons_eraseIdx_perm hi

/-- **Nothing is lost and nothing is doubled in a tier.** -/
lemma Draws.perm {G : Type} {rng : Rng G} {records ordered : List SnsdRecord} {g g' : G}
    (h : Draws rng records g ordered g') : ordered.Perm records := by
  induction h with
  | nil => exact .refl _
  | cons _ hget _ _ ih => exact (ih.cons _).trans (cons_eraseIdx_perm hget)

lemma totalWeight_eq {records : List SnsdRecord} (h : weights records < 2 ^ 32) :
    totalWeight records = .ok (weights records) := by
  suffices hsum : ∀ sum, sum + weights records < 2 ^ 32 →
      records.foldlM (fun sum r => Outcome.checkedAdd 32 sum r.weight.toNat) sum
        = (.ok (sum + weights records) : Outcome AndnaError ℕ) by
    simpa [totalWeight] using hsum 0 (by omega)
  clear h
  induction records with
  | nil => exact fun sum _ => rfl
  | cons r records ih =>
      intro sum hsum
      rw [weights_cons] at hsum ⊢
      rw [List.foldlM_cons, Outcome.checkedAdd_of_lt (by omega), Outcome.ok_bind, ih _ (by omega),
        Nat.add_assoc]

/-- **The pick falls on a record**: the index with no record's interval is never chosen. -/
lemma chooseFrom_spec {records : List SnsdRecord} {pick : ℕ} (hpos : 1 ≤ pick)
    (hle : pick ≤ weights records) (i : ℕ) :
    ∃ j r, chooseFrom i pick records = i + j ∧ records[j]? = some r ∧ FallsOn records pick j := by
  induction records generalizing i pick with
  | nil =>
      rw [weights, List.map_nil, List.sum_nil] at hle
      omega
  | cons r records ih =>
      rw [weights_cons] at hle
      by_cases hr : pick ≤ r.weight.toNat
      · refine ⟨0, r, by rw [chooseFrom, if_pos hr, Nat.add_zero], rfl, ?_, ?_⟩
        · simpa [weights] using Nat.lt_of_succ_le hpos
        · simpa [weights] using hr
      · have hpos' : 1 ≤ pick - r.weight.toNat := by omega
        obtain ⟨j, r', hchoose, hget, hlow, hhigh⟩ := ih hpos' (by omega) (i + 1)
        refine ⟨j + 1, r', ?_, hget, ?_, ?_⟩
        · rw [chooseFrom, if_neg hr, hchoose]
          omega
        · rw [List.take_succ_cons, weights_cons]
          omega
        · rw [List.take_succ_cons, weights_cons]
          omega

/-- **A tier of enabled records is drawn to its end.** -/
lemma weightedShuffle_draws {G : Type} (rng : Rng G) {records : List SnsdRecord}
    (henabled : ∀ r ∈ records, 0 < r.weight) (hlight : weights records < 2 ^ 32) (g : G) :
    ∃ ordered g', weightedShuffle rng records g = .ok (ordered, g') ∧
      Draws rng records g ordered g' := by
  unfold weightedShuffle
  generalize hn : records.length = n
  induction n generalizing records g with
  | zero =>
      obtain rfl := List.length_eq_zero_iff.mp hn
      exact ⟨[], g, rfl, .nil g⟩
  | succ n ih =>
      have hne : records ≠ [] := by
        rintro rfl
        cases hn
      have hrange : 1 ≤ weights records := by
        cases records with
        | nil => exact absurd rfl hne
        | cons r records =>
            have hr := UInt8.lt_iff_toNat_lt.mp (henabled r List.mem_cons_self)
            rw [UInt8.toNat_zero] at hr
            rw [weights_cons]
            omega
      obtain ⟨i, r, hchoose, hget, hfalls⟩ := chooseFrom_spec
        (rng.randomRange 1 (weights records) hrange g).1.2.1
        (rng.randomRange 1 (weights records) hrange g).1.2.2 0
      have hperm := cons_eraseIdx_perm hget
      have hweights : r.weight.toNat + weights (records.eraseIdx i) = weights records := by
        rw [← weights_cons]
        exact (hperm.map _).sum_eq
      have hlength := hperm.length_eq
      rw [List.length_cons, hn] at hlength
      obtain ⟨ordered, g', hrest, hdraws⟩ := ih
        (fun r' hr' => henabled r' (List.mem_of_mem_eraseIdx hr')) (by omega)
        (rng.randomRange 1 (weights records) hrange g).2 (Nat.succ.inj hlength)
      refine ⟨r :: ordered, g', ?_, .cons hrange hget hfalls hdraws⟩
      rw [Nat.zero_add] at hchoose
      simp only [shuffleRounds, if_neg hne, totalWeight_eq hlight, Outcome.ok_bind, dif_pos hrange,
        hchoose, Outcome.index, hget, Outcome.expect_some, hrest]

/-! ## The tiers -/

/-- What has been sorted into tiers so far. -/
structure Tiered (tiers : KeyedMap ℕᵒᵈ (List SnsdRecord)) (records : List SnsdRecord) : Prop where
  sorted : tiers.keys.Pairwise (· < ·)
  tier : ∀ key, (tiers.get? key).getD [] =
    records.filter fun r => OrderDual.toDual r.priority.toNat = key
  all : (tiers.values.flatten).Perm records

lemma Tiered.push {tiers : KeyedMap ℕᵒᵈ (List SnsdRecord)} {records : List SnsdRecord}
    (h : Tiered tiers records) (r : SnsdRecord) :
    Tiered (tiers.insertOrdered (OrderDual.toDual r.priority.toNat)
      ((tiers.get? (OrderDual.toDual r.priority.toNat)).getD [] ++ [r])) (records ++ [r]) := by
  set key : ℕᵒᵈ := OrderDual.toDual r.priority.toNat with hkey
  refine ⟨?_, fun key' => ?_, ?_⟩
  · exact KeyedMap.pairwise_insertOrdered h.sorted _ _
  · rw [KeyedMap.get?_insertOrdered_eq_update, List.filter_append, ← h.tier key']
    by_cases hsame : key' = key
    · subst hsame
      simp [hkey]
    · rw [Function.update_of_ne hsame]
      simp [← hkey, Ne.symm hsame]
  · have hperm := ((tiers.perm_insertOrdered key ((tiers.get? key).getD [] ++ [r])).map
      Prod.snd).flatten
    refine (hperm.trans ?_).trans (h.all.append_right [r])
    rw [List.map_cons, List.flatten_cons]
    cases hget : tiers.get? key with
    | none =>
        rw [KeyedMap.erase_entries_of_get?_none hget]
        exact List.perm_append_comm
    | some bucket =>
        have hbucket := ((KeyedMap.perm_erase hget).map Prod.snd).flatten
        rw [List.map_cons, List.flatten_cons] at hbucket
        refine .trans ?_ (hbucket.symm.append_right [r])
        rw [Option.getD_some, List.append_assoc, List.append_assoc]
        exact List.perm_append_comm.append_left bucket

lemma tiered_byPriority (records : List SnsdRecord) : Tiered (byPriority records) records := by
  induction records using List.reverseRecOn with
  | nil => exact ⟨List.Pairwise.nil, fun _ => rfl, .refl _⟩
  | append_singleton records r ih =>
      rw [byPriority, List.foldl_concat]
      exact ih.push r

/-- A tier has all records of one priority. -/
lemma Tiered.mem {tiers : KeyedMap ℕᵒᵈ (List SnsdRecord)} {records : List SnsdRecord}
    (h : Tiered tiers records) {key : ℕᵒᵈ} {tier : List SnsdRecord}
    (hmem : (key, tier) ∈ tiers.entries) :
    tier = records.filter fun r => OrderDual.toDual r.priority.toNat = key := by
  rw [← h.tier key, KeyedMap.mem_entries_iff.mp hmem, Option.getD_some]

/-! ## All tiers -/

/-- What is drawn from one tier after the other. -/
inductive DrawsTiers {G : Type} (rng : Rng G) :
    List (List SnsdRecord) → G → List SnsdRecord → G → Prop
  | nil (g : G) : DrawsTiers rng [] g [] g
  | cons {tier picked ordered : List SnsdRecord} {tiers : List (List SnsdRecord)} {g g' g'' : G}
      (draws : Draws rng tier g picked g') (rest : DrawsTiers rng tiers g' ordered g'') :
      DrawsTiers rng (tier :: tiers) g (picked ++ ordered) g''

section Tiers

variable {G : Type} {rng : Rng G} {tiers : List (List SnsdRecord)} {ordered : List SnsdRecord}
  {g g' : G}

lemma DrawsTiers.perm (h : DrawsTiers rng tiers g ordered g') : ordered.Perm tiers.flatten := by
  induction h with
  | nil => exact .refl _
  | cons draws _ ih => exact draws.perm.append ih

/-- In the order of the tiers. -/
lemma DrawsTiers.pairwise (h : DrawsTiers rng tiers g ordered g')
    (hsame : ∀ tier ∈ tiers, ∀ r ∈ tier, ∀ r' ∈ tier, r.priority = r'.priority)
    (hsorted : tiers.Pairwise fun tier tier' =>
      ∀ r ∈ tier, ∀ r' ∈ tier', r'.priority ≤ r.priority) :
    ordered.Pairwise fun r r' => r'.priority ≤ r.priority := by
  induction h with
  | nil => exact .nil
  | @cons tier picked ordered tiers _ _ _ draws rest ih =>
      rw [List.pairwise_cons] at hsorted
      refine List.pairwise_append.mpr ⟨?_, ih (fun t ht => hsame t (List.mem_cons_of_mem _ ht))
        hsorted.2, fun r hr r' hr' => ?_⟩
      · refine List.pairwise_iff_forall_sublist.mpr fun {r r'} hsub => ?_
        have hr := draws.perm.mem_iff.mp (hsub.subset (by simp : r ∈ [r, r']))
        have hr' := draws.perm.mem_iff.mp (hsub.subset (by simp : r' ∈ [r, r']))
        have heq := hsame tier List.mem_cons_self r' hr' r hr
        exact heq ▸ UInt8.le_refl _
      · obtain ⟨t, ht, hmem⟩ := List.mem_flatten.mp (rest.perm.mem_iff.mp hr')
        exact hsorted.1 t ht r (draws.perm.mem_iff.mp hr) r' hmem

/-- Every tier is drawn to its end. -/
lemma shuffleTiers_draws (rng : Rng G) {tiers : List (List SnsdRecord)}
    (henabled : ∀ tier ∈ tiers, ∀ r ∈ tier, 0 < r.weight)
    (hlight : ∀ tier ∈ tiers, weights tier < 2 ^ 32) (g : G) :
    ∃ ordered g', shuffleTiers rng tiers g = .ok (ordered, g') ∧
      DrawsTiers rng tiers g ordered g' := by
  suffices hfrom : ∀ before, ∃ ordered g',
      tiers.foldlM (fun (ordered, g) tier => do
        let (picked, g) ← weightedShuffle rng tier g
        .ok (ordered ++ picked, g)) (before, g)
          = (.ok (before ++ ordered, g') : Outcome AndnaError (List SnsdRecord × G)) ∧
        DrawsTiers rng tiers g ordered g' by
    simpa [shuffleTiers] using hfrom []
  induction tiers generalizing g with
  | nil => exact fun before => ⟨[], g, by simp, .nil g⟩
  | cons tier tiers ih =>
      intro before
      obtain ⟨picked, g', hpicked, draws⟩ := weightedShuffle_draws rng
        (henabled tier List.mem_cons_self) (hlight tier List.mem_cons_self) g
      obtain ⟨ordered, g'', hordered, rest⟩ := ih
        (fun t ht => henabled t (List.mem_cons_of_mem _ ht))
        (fun t ht => hlight t (List.mem_cons_of_mem _ ht)) g' (before ++ picked)
      refine ⟨picked ++ ordered, g'', ?_, .cons draws rest⟩
      rw [List.foldlM_cons]
      simp only [hpicked, Outcome.ok_bind]
      rw [hordered, List.append_assoc]

end Tiers

/-! ## The table -/

namespace SnsdTable

/-- The number of records stored. -/
def count (t : SnsdTable) : ℕ := (t.byService.values.map List.length).sum

/-- A bucket replaced by another. -/
lemma count_insert (m : KeyedMap UInt16 (List SnsdRecord)) (service : UInt16)
    (bucket : List SnsdRecord) :
    ((m.insert service bucket).values.map List.length).sum + ((m.get? service).getD []).length
      = (m.values.map List.length).sum + bucket.length := by
  have hinsert := (((KeyedMap.perm_insert m service bucket).map Prod.snd).map List.length).sum_eq
  simp only [List.map_cons, List.sum_cons] at hinsert
  cases hget : m.get? service with
  | none =>
      rw [KeyedMap.erase_entries_of_get?_none hget] at hinsert
      simp only [KeyedMap.values, Option.getD_none, List.length_nil]
      omega
  | some old =>
      have herase := (((KeyedMap.perm_erase hget).map Prod.snd).map List.length).sum_eq
      simp only [List.map_cons, List.sum_cons] at herase
      simp only [KeyedMap.values, Option.getD_some]
      omega

/-- **Every call keeps the total**, one that fails too. -/
lemma total_exec {t : SnsdTable} (h : t.total = t.count) (call : SnsdCall) :
    (t.exec call).total = (t.exec call).count := by
  cases call with
  | insert record maxPerService maxTotal =>
      have hcount := count_insert t.byService record.service
      simp only [exec, SnsdTable.insert]
      split_ifs with htotal hservice
      · exact h
      · have hsame := hcount ((t.byService.get? record.service).getD [])
        simp only [count] at h ⊢
        omega
      · have hmore := hcount ((t.byService.get? record.service).getD [] ++ [record])
        rw [List.length_append, List.length_singleton] at hmore
        simp only [count] at h ⊢
        omega
  | setZeroRecord ownerNaddr priority weight =>
      have hcount := count_insert t.byService zeroService
        [⟨zeroService, priority, weight, .address ownerNaddr⟩]
      rw [List.length_singleton] at hcount
      have hle : ((t.byService.get? zeroService).getD []).length ≤ t.count := by
        have hnone := count_insert t.byService zeroService []
        rw [List.length_nil] at hnone
        rw [count]
        omega
      simp only [exec, setZeroRecord]
      simp only [count] at h hle ⊢
      omega

lemma total_build (calls : List SnsdCall) : (build calls).total = (build calls).count := by
  induction calls using List.reverseRecOn with
  | nil => rfl
  | append_singleton calls call ih =>
      rw [build, List.foldl_concat]
      exact total_exec ih call

/-- What answers for the service is sorted into tiers, and these are drawn. -/
lemma resolve_eq {G : Type} (rng : Rng G) (t : SnsdTable) (service : UInt16) (g : G) :
    t.resolve rng service g = shuffleTiers rng (byPriority (t.enabled service)).values g := by
  unfold resolve enabled answering stored
  cases hget : t.byService.get? service with
  | none => cases t.byService.get? zeroService <;> rfl
  | some records =>
      cases records with
      | nil => cases t.byService.get? zeroService <;> rfl
      | cons r records => rfl

end SnsdTable

/-- **Resolving loses nothing and repeats nothing**: in every table, for every service whose tiers
have weights of less than `2 ^ 32` together, and whatever the generator returns. -/
theorem resolve_loses_nothing {G : Type} (rng : Rng G) (calls : List SnsdCall) :
    (SnsdTable.build calls).total = (SnsdTable.build calls).count ∧
    ∀ (service : UInt16) (g : G),
      (∀ priority, weights (((SnsdTable.build calls).answering service).filter
        fun r => r.priority = priority) < 2 ^ 32) →
      ∃ ordered g', (SnsdTable.build calls).resolve rng service g = .ok (ordered, g') ∧
        ordered.Perm ((SnsdTable.build calls).enabled service) ∧
        ordered.Pairwise (fun r r' => r'.priority ≤ r.priority) ∧
        DrawsTiers rng (byPriority ((SnsdTable.build calls).enabled service)).values g ordered
          g' := by
  refine ⟨SnsdTable.total_build calls, fun service g hlight => ?_⟩
  set t := SnsdTable.build calls
  have htiered := tiered_byPriority (t.enabled service)
  have hentry : ∀ {key tier}, (key, tier) ∈ (byPriority (t.enabled service)).entries →
      ∀ r ∈ tier, r ∈ t.enabled service ∧ OrderDual.toDual r.priority.toNat = key := by
    intro key tier hkey r hr
    rw [htiered.mem hkey, List.mem_filter, decide_eq_true_eq] at hr
    exact hr
  have hweights : ∀ tier ∈ (byPriority (t.enabled service)).values, weights tier < 2 ^ 32 := by
    intro tier htier
    obtain ⟨key, hkey⟩ := KeyedMap.mem_values.mp htier
    cases tier with
    | nil => exact Nat.two_pow_pos 32
    | cons r rest =>
        obtain ⟨-, rfl⟩ := hentry hkey r List.mem_cons_self
        refine lt_of_le_of_lt ?_ (hlight r.priority)
        rw [htiered.mem hkey, SnsdTable.enabled]
        simp only [EmbeddingLike.apply_eq_iff_eq, UInt8.toNat_inj]
        exact weights_le_of_sublist (List.filter_sublist.filter _)
  obtain ⟨ordered, g', heq, draws⟩ := shuffleTiers_draws rng
    (fun tier htier r hr => by
      obtain ⟨key, hkey⟩ := KeyedMap.mem_values.mp htier
      simpa using (List.mem_filter.mp (hentry hkey r hr).1).2) hweights g
  refine ⟨ordered, g', (t.resolve_eq rng service g).trans heq, draws.perm.trans htiered.all,
    draws.pairwise (fun tier htier r hr r' hr' => ?_) ?_, draws⟩
  · obtain ⟨key, hkey⟩ := KeyedMap.mem_values.mp htier
    exact UInt8.toNat_inj.mp (OrderDual.toDual.injective
      ((hentry hkey r hr).2.trans (hentry hkey r' hr').2.symm))
  · refine List.pairwise_map.mpr ((List.pairwise_map.mp htiered.sorted).imp_of_mem ?_)
    intro e e' he he' hlt r hr r' hr'
    rw [← (hentry he r hr).2, ← (hentry he' r' hr').2, OrderDual.toDual_lt_toDual] at hlt
    exact UInt8.le_iff_toNat_le.mpr hlt.le

/-! ## Examples -/

/-- A generator that always returns the least number. -/
def leastOf : Rng Unit := ⟨fun first _ h g => (⟨first, le_rfl, h⟩, g)⟩

def anAlias : SnsdTarget := .alias ⟨"a", by decide, by decide, by simp⟩

/-- Two records of one service. -/
theorem resolve_loses_nothing_two :
    ∃ ordered g', (SnsdTable.build
        [.insert ⟨80, 1, 10, anAlias⟩ 16 256, .insert ⟨80, 2, 5, anAlias⟩ 16 256]).resolve leastOf
          80 () = .ok (ordered, g') ∧
      ordered.Perm [⟨80, 1, 10, anAlias⟩, ⟨80, 2, 5, anAlias⟩] := by
  have hweights : weights ((SnsdTable.build
      [.insert ⟨80, 1, 10, anAlias⟩ 16 256, .insert ⟨80, 2, 5, anAlias⟩ 16 256]).answering 80)
        = 15 := by decide
  obtain ⟨ordered, g', heq, hperm, -⟩ := (resolve_loses_nothing leastOf
    [.insert ⟨80, 1, 10, anAlias⟩ 16 256, .insert ⟨80, 2, 5, anAlias⟩ 16 256]).2 80 ()
      fun priority => (weights_le_of_sublist List.filter_sublist).trans_lt (by rw [hweights]; omega)
  exact ⟨ordered, g', heq, hperm⟩

/-- A tier whose weights do not fit. -/
lemma totalWeight_overflow {records : List SnsdRecord} (h : 2 ^ 32 ≤ weights records) :
    totalWeight records = .error (.panic "attempt to add with overflow") := by
  suffices hsum : ∀ sum, sum < 2 ^ 32 → 2 ^ 32 ≤ sum + weights records →
      (records.foldlM (fun sum r => Outcome.checkedAdd 32 sum r.weight.toNat) sum
        : Outcome AndnaError ℕ) = .error (.panic "attempt to add with overflow") from
    hsum 0 (Nat.two_pow_pos 32) (by omega)
  clear h
  induction records with
  | nil =>
      intro sum hlt hle
      rw [weights, List.map_nil, List.sum_nil] at hle
      omega
  | cons r records ih =>
      intro sum hlt hle
      rw [weights_cons] at hle
      rw [List.foldlM_cons]
      by_cases hfits : sum + r.weight.toNat < 2 ^ 32
      · rw [Outcome.checkedAdd_of_lt hfits, Outcome.ok_bind, ih _ hfits (by omega)]
      · rw [Outcome.checkedAdd, if_neg hfits, Outcome.error_bind]

/-- One tier only. -/
lemma byPriority_same {records : List SnsdRecord} {priority : UInt8} (hne : records ≠ [])
    (hsame : ∀ r ∈ records, r.priority = priority) : (byPriority records).values = [records] := by
  suffices h : (byPriority records).entries = [(OrderDual.toDual priority.toNat, records)] by
    rw [KeyedMap.values, h]
    rfl
  induction records using List.reverseRecOn with
  | nil => exact absurd rfl hne
  | append_singleton records r ih =>
      have hr := hsame r (by simp)
      rw [byPriority, List.foldl_concat, ← byPriority]
      by_cases hfirst : records = []
      · subst hfirst
        simp [byPriority, KeyedMap.insertOrdered, KeyedMap.empty, KeyedMap.get?, hr]
      · have hentries := ih hfirst fun r' hr' => hsame r' (List.mem_append_left _ hr')
        simp [KeyedMap.insertOrdered, KeyedMap.get?, hentries, hr]

/-- A record that there is room for. -/
lemma stored_insert {t : SnsdTable} {r : SnsdRecord} {maxPerService maxTotal : ℕ}
    (htotal : t.total < maxTotal) (hbucket : (t.stored r.service).length < maxPerService) :
    (t.insert r maxPerService maxTotal).1.stored r.service = t.stored r.service ++ [r] ∧
      (t.insert r maxPerService maxTotal).1.total = t.total + 1 := by
  rw [SnsdTable.stored] at hbucket
  simp only [SnsdTable.insert, if_neg htotal.not_ge, if_neg hbucket.not_ge, and_true]
  rw [SnsdTable.stored, KeyedMap.get?_insert_self, Option.getD_some, SnsdTable.stored]

/-- The record `n` times over. -/
lemma build_replicate (r : SnsdRecord) {n max : ℕ} (hn : n ≤ max) :
    (SnsdTable.build (List.replicate n (.insert r max max))).stored r.service =
        List.replicate n r ∧
      (SnsdTable.build (List.replicate n (.insert r max max))).total = n := by
  induction n with
  | zero => exact ⟨rfl, rfl⟩
  | succ n ih =>
      obtain ⟨hstored, htotal⟩ := ih (by omega)
      have hbucket := congrArg List.length hstored
      rw [List.length_replicate] at hbucket
      obtain ⟨hstored', htotal'⟩ := stored_insert (r := r) (lt_of_eq_of_lt htotal hn)
        (lt_of_eq_of_lt hbucket hn)
      rw [List.replicate_succ', SnsdTable.build, List.foldl_concat, ← SnsdTable.build,
        SnsdTable.exec, hstored', htotal', hstored, htotal]
      exact ⟨List.replicate_succ'.symm, rfl⟩

/-- A service with one tier, whose weights do not fit. -/
lemma resolve_overflow {G : Type} (rng : Rng G) {t : SnsdTable} {service : UInt16}
    {priority : UInt8} (hsame : ∀ r ∈ t.enabled service, r.priority = priority)
    (h : 2 ^ 32 ≤ weights (t.enabled service)) (g : G) :
    t.resolve rng service g = .error (.panic "attempt to add with overflow") := by
  have hne : t.enabled service ≠ [] := by
    intro hnil
    rw [hnil, weights, List.map_nil, List.sum_nil] at h
    omega
  obtain ⟨n, hn⟩ := Nat.exists_eq_succ_of_ne_zero (List.length_pos_iff.mpr hne).ne'
  rw [t.resolve_eq, byPriority_same hne hsame, shuffleTiers, List.foldlM_cons]
  simp only [weightedShuffle, hn, shuffleRounds, if_neg hne, totalWeight_overflow h, Outcome.error_bind]

/-- Records of weight 127, and a last one, all of one service and one priority. -/
def manyRecords (n : ℕ) : List SnsdCall :=
  List.replicate n (.insert ⟨80, 1, 127, anAlias⟩ (n + 1) (n + 1)) ++
    [.insert ⟨80, 1, 16, anAlias⟩ (n + 1) (n + 1)]

lemma enabled_manyRecords (n : ℕ) : (SnsdTable.build (manyRecords n)).enabled 80 =
    List.replicate n ⟨80, 1, 127, anAlias⟩ ++ [⟨80, 1, 16, anAlias⟩] := by
  obtain ⟨hstored, htotal⟩ := build_replicate ⟨80, 1, 127, anAlias⟩ (Nat.le_succ n)
  have hbucket := congrArg List.length hstored
  rw [List.length_replicate] at hbucket
  obtain ⟨hstored', -⟩ := stored_insert (r := ⟨80, 1, 16, anAlias⟩)
    (lt_of_eq_of_lt htotal n.lt_succ_self) (lt_of_eq_of_lt hbucket n.lt_succ_self)
  rw [hstored] at hstored'
  rw [manyRecords, SnsdTable.build, List.foldl_concat, ← SnsdTable.build, SnsdTable.exec,
    SnsdTable.enabled, SnsdTable.answering, hstored', if_neg (by simp), List.filter_append,
    List.filter_replicate]
  rfl

lemma resolve_manyRecords {n : ℕ} (h : 2 ^ 32 ≤ n * 127 + 16) :
    (SnsdTable.build (manyRecords n)).resolve leastOf 80 () =
      .error (.panic "attempt to add with overflow") := by
  have hsame : ∀ r ∈ (SnsdTable.build (manyRecords n)).enabled 80, r.priority = 1 := by
    intro r hr
    rw [enabled_manyRecords, List.mem_append, List.mem_replicate, List.mem_singleton] at hr
    rcases hr with ⟨-, rfl⟩ | rfl <;> rfl
  refine resolve_overflow leastOf hsame ?_ ()
  · rw [enabled_manyRecords, weights, List.map_append, List.map_replicate, List.sum_append,
      List.sum_replicate, smul_eq_mul]
    exact h

/-- 33818641 records of one service and one priority, with weights of `2 ^ 32` together. -/
theorem not_resolve_loses_nothing :
    ¬∀ (calls : List SnsdCall) (service : UInt16),
      ∃ ordered g', (SnsdTable.build calls).resolve leastOf service () = .ok (ordered, g') := by
  intro hall
  obtain ⟨ordered, g', heq⟩ := hall (manyRecords 33818640) 80
  have hpanic := resolve_manyRecords (n := 33818640) (by norm_num)
  have hboth := hpanic.symm.trans heq
  cases hboth

end Netsukuku
