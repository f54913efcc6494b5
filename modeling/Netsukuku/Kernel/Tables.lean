import Mathlib
import Netsukuku.Core.Outcome
import Netsukuku.Kernel.Netlink

/-!
# Routing tables for the peers

Every peer gets a routing table of its own out of a range, and a rule priority below the one of the
main table's rule.  Both are given out from the front of a free list and returned there.

* `TableAllocator.withRange` — the checks on a configuration, and the free lists.
* `TableAllocator.acquire`, `incref`, `decref`, `release` — the calls.
* `TableAllocator.Partitions` — the free tables and the allocated ones are the range.
* `partitions_iff` — when a range that is not full is never reported as exhausted.
-/

namespace Netsukuku

inductive TableAllocatorError where
  | reservedTable (table : UInt32)
  | invalidRange (main : UInt32)
  | exhausted
  | unknownOwner
  | stillReferenced (refcount : Int64)
  deriving DecidableEq

/-- A `RangeInclusive<u32>`. -/
structure TableRange where
  first : UInt32
  last : UInt32
  deriving DecidableEq, Repr

namespace TableRange

def size (r : TableRange) : ℕ := r.last.toNat + 1 - r.first.toNat

/-- The tables of the range, in order. -/
def tables (r : TableRange) : List UInt32 := (List.range' r.first.toNat r.size).map UInt32.ofNat

def contains (r : TableRange) (table : UInt32) : Bool :=
  decide (r.first ≤ table ∧ table ≤ r.last)

end TableRange

structure Allocation where
  table : UInt32
  priority : UInt32
  refcount : Int64
  deriving DecidableEq

structure TableAllocator (K : Type) where
  peerRange : TableRange
  mainTable : UInt32
  mainRulePriority : UInt32
  freeTables : List UInt32
  freePriorities : List UInt32
  allocated : KeyedMap K Allocation

namespace TableAllocator

/-- The checks of `with_range`. -/
def checkRange (peerRange : TableRange) (mainTable : UInt32) : Outcome TableAllocatorError Unit :=
  if peerRange.last < peerRange.first then Outcome.fail (.invalidRange mainTable)
  else if isKernelReservedTable mainTable then Outcome.fail (.reservedTable mainTable)
  else
    match peerRange.tables.find? isKernelReservedTable with
    | some reserved => Outcome.fail (.reservedTable reserved)
    | none =>
        if peerRange.contains mainTable then Outcome.fail (.invalidRange mainTable) else .ok ()

/-- The rule priorities given out: as many as there are tables, just below `mainRulePriority`. -/
def priorities (peerRange : TableRange) (mainRulePriority : UInt32) : List UInt32 :=
  let slots := UInt32.ofNat peerRange.tables.length
  let priorityFloor := mainRulePriority.toNat - slots.toNat
  (List.range' priorityFloor (mainRulePriority.toNat - priorityFloor)).map UInt32.ofNat

variable {K : Type} [DecidableEq K]

def withRange (peerRange : TableRange) (mainTable mainRulePriority : UInt32) :
    Outcome TableAllocatorError (TableAllocator K) := do
  checkRange peerRange mainTable
  .ok {
    peerRange
    mainTable
    mainRulePriority
    freeTables := peerRange.tables
    freePriorities := priorities peerRange mainRulePriority
    allocated := KeyedMap.empty }

def acquire (a : TableAllocator K) (owner : K) :
    TableAllocator K × Outcome TableAllocatorError (UInt32 × UInt32) :=
  match a.allocated.get? owner with
  | some existing => (a, .ok (existing.table, existing.priority))
  | none =>
      match a.freeTables with
      | [] => (a, Outcome.fail .exhausted)
      | table :: tables =>
          match a.freePriorities with
          -- the table is put back where it was
          | [] => ({ a with freeTables := table :: tables }, Outcome.fail .exhausted)
          | priority :: priorities =>
              ({ a with
                  freeTables := tables
                  freePriorities := priorities
                  allocated := a.allocated.insert owner ⟨table, priority, 0⟩ },
                .ok (table, priority))

/-- The reference count of an owner moves by `delta`; it is not bounded below. -/
def refer (a : TableAllocator K) (owner : K) (delta : Int64) :
    TableAllocator K × Outcome TableAllocatorError Int64 :=
  match a.allocated.get? owner with
  | none => (a, Outcome.fail .unknownOwner)
  | some e =>
      ({ a with allocated := a.allocated.insert owner { e with refcount := e.refcount + delta } },
        .ok (e.refcount + delta))

def incref (a : TableAllocator K) (owner : K) :
    TableAllocator K × Outcome TableAllocatorError Int64 :=
  a.refer owner 1

def decref (a : TableAllocator K) (owner : K) :
    TableAllocator K × Outcome TableAllocatorError Int64 :=
  a.refer owner (-1)

def release (a : TableAllocator K) (owner : K) :
    TableAllocator K × Outcome TableAllocatorError UInt32 :=
  match a.allocated.get? owner with
  | none => (a, Outcome.fail .unknownOwner)
  | some e =>
      if 0 < e.refcount then (a, Outcome.fail (.stillReferenced e.refcount))
      else
        ({ a with
            freeTables := e.table :: a.freeTables
            freePriorities := e.priority :: a.freePriorities
            allocated := a.allocated.erase owner },
          .ok e.table)

end TableAllocator

/-- The calls that change an allocator. -/
inductive TableCall (K : Type) where
  | acquire (owner : K)
  | incref (owner : K)
  | decref (owner : K)
  | release (owner : K)

namespace TableAllocator

variable {K : Type} [DecidableEq K]

/-- The state after a call, and whether the call failed. -/
def exec (a : TableAllocator K) : TableCall K → TableAllocator K × Bool
  | .acquire owner => ((a.acquire owner).1, (a.acquire owner).2.toOption.isNone)
  | .incref owner => ((a.incref owner).1, (a.incref owner).2.toOption.isNone)
  | .decref owner => ((a.decref owner).1, (a.decref owner).2.toOption.isNone)
  | .release owner => ((a.release owner).1, (a.release owner).2.toOption.isNone)

def run (a : TableAllocator K) (calls : List (TableCall K)) : TableAllocator K :=
  calls.foldl (fun a c => (a.exec c).1) a

/-- **The partition.**  What the tables and the priorities are in every state, and what the next
call does not do. -/
structure Partitions (peerRange : TableRange) (mainTable mainRulePriority : UInt32)
    (a : TableAllocator K) : Prop where
  inside : ∀ k e, a.allocated.get? k = some e → peerRange.contains e.table ∧
    isKernelReservedTable e.table = false ∧ e.table ≠ mainTable ∧ e.priority < mainRulePriority
  apart : ∀ k e k' e', a.allocated.get? k = some e → a.allocated.get? k' = some e' → k ≠ k' →
    e.table ≠ e'.table ∧ e.priority ≠ e'.priority
  whole : peerRange.tables.Nodup ∧
    (a.freeTables ++ a.allocated.values.map Allocation.table).Perm peerRange.tables
  /-- A range is exhausted only when others have all of it. -/
  exhausted : ∀ k, (a.acquire k).2 = Outcome.fail .exhausted → ∀ table ∈ peerRange.tables,
    ∃ k' e, k' ≠ k ∧ a.allocated.get? k' = some e ∧ e.table = table
  /-- What is handed out is nobody else's. -/
  handed : ∀ k table priority, (a.acquire k).2 = .ok (table, priority) →
    ∀ k' e, k' ≠ k → a.allocated.get? k' = some e → e.table ≠ table ∧ e.priority ≠ priority
  /-- What is referred to is not released. -/
  referred : ∀ k table, (a.release k).2 = .ok table →
    ∃ e, a.allocated.get? k = some e ∧ e.table = table ∧ e.refcount ≤ 0
  unchanged : ∀ c, (a.exec c).2 = true → (a.exec c).1 = a

end TableAllocator

/-! ## The range -/

namespace TableRange

variable {r : TableRange} {table : UInt32}

lemma mem_tables : table ∈ r.tables ↔ r.contains table = true := by
  have hlast := r.last.toNat_lt
  rw [tables, List.mem_map, contains, decide_eq_true_eq, UInt32.le_iff_toNat_le,
    UInt32.le_iff_toNat_le]
  constructor
  · rintro ⟨n, hn, rfl⟩
    rw [List.mem_range'_1, size] at hn
    rw [UInt32.toNat_ofNat_of_lt' (by rw [UInt32.size]; omega)]
    omega
  · rintro ⟨hfirst, hlast⟩
    refine ⟨table.toNat, ?_, UInt32.ofNat_toNat⟩
    rw [List.mem_range'_1, size]
    omega

end TableRange

/-- Consecutive numbers below `2 ^ 32` are different. -/
lemma nodup_map_ofNat {first n : ℕ} (h : first + n ≤ 2 ^ 32) :
    ((List.range' first n).map UInt32.ofNat).Nodup := by
  refine List.Nodup.map_on (fun i hi j hj heq => ?_) List.nodup_range'
  rw [List.mem_range'_1] at hi hj
  have heq' := congrArg UInt32.toNat heq
  rwa [UInt32.toNat_ofNat_of_lt' (by rw [UInt32.size]; omega),
    UInt32.toNat_ofNat_of_lt' (by rw [UInt32.size]; omega)] at heq'

lemma TableRange.nodup_tables (r : TableRange) : r.tables.Nodup := by
  have hlast := r.last.toNat_lt
  by_cases h : r.first.toNat ≤ r.last.toNat
  · refine nodup_map_ofNat ?_
    rw [TableRange.size]
    omega
  · have hsize : r.size = 0 := by
      rw [TableRange.size]
      omega
    rw [TableRange.tables, hsize]
    exact List.nodup_nil

/-! ## The pools -/

namespace TableAllocator

variable {K : Type} [DecidableEq K] {peerRange : TableRange} {mainTable mainRulePriority : UInt32}
  {a : TableAllocator K}

/-- What `with_range` has made sure of. -/
lemma checkRange_eq_ok (h : checkRange peerRange mainTable = .ok ()) :
    (∀ table ∈ peerRange.tables, isKernelReservedTable table = false ∧ table ≠ mainTable) := by
  unfold checkRange at h
  split at h
  · cases h
  split at h
  · cases h
  split at h
  · cases h
  rename_i hfind
  split at h
  · cases h
  rename_i hcontains
  intro table htable
  refine ⟨?_, ?_⟩
  · simpa using List.find?_eq_none.mp hfind table htable
  · rintro rfl
    exact hcontains (TableRange.mem_tables.mp htable)

/-- Table 0 is reserved, so there are fewer than `2 ^ 32` tables in a range. -/
lemma size_lt (h : checkRange peerRange mainTable = .ok ()) : peerRange.size < 2 ^ 32 := by
  have hlast := peerRange.last.toNat_lt
  by_contra hsize
  have hzero : (0 : UInt32) ∈ peerRange.tables := by
    rw [TableRange.mem_tables, TableRange.contains, decide_eq_true_eq, UInt32.le_iff_toNat_le,
      UInt32.le_iff_toNat_le, UInt32.toNat_zero]
    rw [TableRange.size] at hsize
    omega
  exact absurd (checkRange_eq_ok h 0 hzero).1 (by decide)

lemma length_tables : peerRange.tables.length = peerRange.size := by
  simp [TableRange.tables]

lemma length_priorities (h : peerRange.size < 2 ^ 32) :
    (priorities peerRange mainRulePriority).length =
      min peerRange.size mainRulePriority.toNat := by
  simp only [priorities, List.length_map, List.length_range', length_tables]
  rw [UInt32.toNat_ofNat_of_lt' h]
  omega

lemma nodup_priorities : (priorities peerRange mainRulePriority).Nodup := by
  have hmain := mainRulePriority.toNat_lt
  refine nodup_map_ofNat ?_
  omega

lemma lt_of_mem_priorities {priority : UInt32}
    (h : priority ∈ priorities peerRange mainRulePriority) : priority < mainRulePriority := by
  have hmain := mainRulePriority.toNat_lt
  obtain ⟨n, hn, rfl⟩ := List.mem_map.mp h
  rw [List.mem_range'_1] at hn
  rw [UInt32.lt_iff_toNat_lt, UInt32.toNat_ofNat_of_lt' (by rw [UInt32.size]; omega)]
  omega

/-- Both pools: what is free and what is allocated are what was there at first. -/
structure Pools (peerRange : TableRange) (mainRulePriority : UInt32) (a : TableAllocator K) :
    Prop where
  tables : (a.freeTables ++ a.allocated.values.map Allocation.table).Perm peerRange.tables
  priorities : (a.freePriorities ++ a.allocated.values.map Allocation.priority).Perm
    (priorities peerRange mainRulePriority)

lemma map_values_insert {β : Type} {m : KeyedMap K Allocation} {k : K} (e : Allocation)
    (f : Allocation → β) (h : m.get? k = none) :
    ((m.insert k e).values.map f).Perm (f e :: m.values.map f) := by
  have hperm := ((KeyedMap.perm_insert m k e).map Prod.snd).map f
  rw [KeyedMap.erase_entries_of_get?_none h] at hperm
  exact hperm

lemma map_values_of_get? {β : Type} {m : KeyedMap K Allocation} {k : K} {e : Allocation}
    (f : Allocation → β) (h : m.get? k = some e) :
    (m.values.map f).Perm (f e :: (m.erase k).values.map f) :=
  ((KeyedMap.perm_erase h).map Prod.snd).map f

/-- Nothing of `f` changes when an allocation is replaced by one like it. -/
lemma map_values_replace {β : Type} {m : KeyedMap K Allocation} {k : K} {e : Allocation}
    (e' : Allocation) (f : Allocation → β) (h : m.get? k = some e) (he : f e' = f e) :
    ((m.insert k e').values.map f).Perm (m.values.map f) := by
  have hperm := ((KeyedMap.perm_insert m k e').map Prod.snd).map f
  rw [List.map_cons, List.map_cons, he] at hperm
  exact hperm.trans (map_values_of_get? f h).symm

/-- The front of a free list is allocated. -/
lemma perm_take {β : Type} {x : β} {free held held' pool : List β}
    (h : (x :: free ++ held).Perm pool) (hheld : held'.Perm (x :: held)) :
    (free ++ held').Perm pool :=
  ((hheld.append_left free).trans List.perm_middle).trans h

/-- What was allocated is put in front of a free list. -/
lemma perm_give {β : Type} {x : β} {free held held' pool : List β}
    (h : (free ++ held).Perm pool) (hheld : held.Perm (x :: held')) :
    (x :: free ++ held').Perm pool :=
  (List.perm_middle.symm.trans (hheld.symm.append_left free)).trans h

/-- What `acquire` comes to: the owner's own table, nothing, or the front of the free lists. -/
lemma acquire_cases (a : TableAllocator K) (owner : K) :
    (∃ e, a.allocated.get? owner = some e ∧ a.acquire owner = (a, .ok (e.table, e.priority))) ∨
    (a.allocated.get? owner = none ∧ (a.freeTables = [] ∨ a.freePriorities = []) ∧
      a.acquire owner = (a, Outcome.fail .exhausted)) ∨
    ∃ table tables priority priorities, a.allocated.get? owner = none ∧
      a.freeTables = table :: tables ∧ a.freePriorities = priority :: priorities ∧
      a.acquire owner = ({ a with
        freeTables := tables
        freePriorities := priorities
        allocated := a.allocated.insert owner ⟨table, priority, 0⟩ }, .ok (table, priority)) := by
  unfold acquire
  cases howner : a.allocated.get? owner with
  | some e => exact .inl ⟨e, rfl, rfl⟩
  | none =>
      cases htables : a.freeTables with
      | nil => exact .inr (.inl ⟨rfl, .inl rfl, rfl⟩)
      | cons table tables =>
          cases hpriorities : a.freePriorities with
          | nil =>
              refine .inr (.inl ⟨rfl, .inr rfl, ?_⟩)
              simp only [← htables, ← hpriorities]
          | cons priority priorities =>
              exact .inr (.inr ⟨table, tables, priority, priorities, rfl, rfl, rfl, rfl⟩)

lemma refer_cases (a : TableAllocator K) (owner : K) (delta : Int64) :
    a.refer owner delta = (a, Outcome.fail .unknownOwner) ∨
    ∃ e, a.allocated.get? owner = some e ∧ a.refer owner delta =
      ({ a with allocated := a.allocated.insert owner { e with refcount := e.refcount + delta } },
        .ok (e.refcount + delta)) := by
  unfold refer
  cases howner : a.allocated.get? owner with
  | none => exact .inl rfl
  | some e => exact .inr ⟨e, rfl, rfl⟩

lemma release_cases (a : TableAllocator K) (owner : K) :
    (∃ e, a.release owner = (a, Outcome.fail e)) ∨
    ∃ e, a.allocated.get? owner = some e ∧ e.refcount ≤ 0 ∧ a.release owner =
      ({ a with
          freeTables := e.table :: a.freeTables
          freePriorities := e.priority :: a.freePriorities
          allocated := a.allocated.erase owner }, .ok e.table) := by
  unfold release
  cases howner : a.allocated.get? owner with
  | none => exact .inl ⟨_, rfl⟩
  | some e =>
      by_cases hrefcount : 0 < e.refcount
      · exact .inl ⟨.stillReferenced e.refcount, by simp only [if_pos hrefcount]⟩
      · refine .inr ⟨e, rfl, Int64.not_lt.mp hrefcount, ?_⟩
        simp only [if_neg hrefcount]

lemma Pools.acquire (h : a.Pools peerRange mainRulePriority) (owner : K) :
    (a.acquire owner).1.Pools peerRange mainRulePriority := by
  rcases a.acquire_cases owner with ⟨e, howner, heq⟩ | ⟨howner, hempty, heq⟩ |
    ⟨table, tables, priority, priorities, howner, htables, hpriorities, heq⟩
  · rw [heq]
    exact h
  · rw [heq]
    exact h
  · rw [heq]
    exact ⟨perm_take (htables ▸ h.tables) (map_values_insert _ _ howner),
      perm_take (hpriorities ▸ h.priorities) (map_values_insert _ _ howner)⟩

lemma Pools.refer (h : a.Pools peerRange mainRulePriority) (owner : K) (delta : Int64) :
    (a.refer owner delta).1.Pools peerRange mainRulePriority := by
  rcases a.refer_cases owner delta with heq | ⟨e, howner, heq⟩
  · rw [heq]
    exact h
  · rw [heq]
    have hsame : ∀ {β : Type} (f : Allocation → β),
        f { e with refcount := e.refcount + delta } = f e → _ :=
      fun f => map_values_replace { e with refcount := e.refcount + delta } f howner
    exact ⟨((hsame _ rfl).append_left _).trans h.tables,
      ((hsame _ rfl).append_left _).trans h.priorities⟩

lemma Pools.release (h : a.Pools peerRange mainRulePriority) (owner : K) :
    (a.release owner).1.Pools peerRange mainRulePriority := by
  rcases a.release_cases owner with ⟨e, heq⟩ | ⟨e, howner, -, heq⟩
  · rw [heq]
    exact h
  · rw [heq]
    exact ⟨perm_give h.tables (map_values_of_get? _ howner),
      perm_give h.priorities (map_values_of_get? _ howner)⟩

/-- **Every call keeps the pools.** -/
lemma Pools.exec (h : a.Pools peerRange mainRulePriority) (c : TableCall K) :
    (a.exec c).1.Pools peerRange mainRulePriority := by
  cases c with
  | acquire owner => exact h.acquire owner
  | incref owner => exact h.refer owner 1
  | decref owner => exact h.refer owner (-1)
  | release owner => exact h.release owner

lemma Pools.run (h : a.Pools peerRange mainRulePriority) (calls : List (TableCall K)) :
    (a.run calls).Pools peerRange mainRulePriority := by
  induction calls generalizing a with
  | nil => exact h
  | cons c calls ih => exact ih (h.exec c)

omit [DecidableEq K] in
lemma pools_withRange (h : withRange peerRange mainTable mainRulePriority = .ok a) :
    checkRange peerRange mainTable = .ok () ∧ a.Pools peerRange mainRulePriority ∧
      a.freeTables = peerRange.tables ∧ a.freePriorities = priorities peerRange mainRulePriority ∧
      a.allocated = KeyedMap.empty := by
  obtain ⟨⟨⟩, hcheck, hok⟩ := Outcome.bind_eq_ok.mp h
  cases hok
  exact ⟨hcheck, ⟨by simp, by simp⟩, rfl, rfl, rfl⟩

/-- What an allocation has is nobody else's, if no two allocations have the same. -/
lemma ne_of_nodup {β : Type} {f : Allocation → β} {m : KeyedMap K Allocation} {k k' : K}
    {e e' : Allocation} (h : (m.values.map f).Nodup) (hk : m.get? k = some e)
    (hk' : m.get? k' = some e') (hne : k ≠ k') : f e ≠ f e' := by
  intro heq
  have hnodup := (map_values_of_get? f hk).nodup_iff.mp h
  refine (List.nodup_cons.mp hnodup).1 (List.mem_map.mpr ⟨e', ?_, heq.symm⟩)
  exact KeyedMap.mem_values_of_get? ((KeyedMap.get?_erase_of_ne _ hne.symm).trans hk')

/-- What is free is nobody's. -/
lemma ne_of_mem_free {β : Type} {f : Allocation → β} {m : KeyedMap K Allocation} {free : List β}
    {x : β} {k : K} {e : Allocation} (h : (free ++ m.values.map f).Nodup) (hx : x ∈ free)
    (hk : m.get? k = some e) : f e ≠ x := by
  rintro rfl
  exact List.disjoint_of_nodup_append h hx
    (List.mem_map.mpr ⟨e, KeyedMap.mem_values_of_get? hk, rfl⟩)

/-- A call that fails leaves the allocator. -/
lemma exec_of_failed (c : TableCall K) (hfailed : (a.exec c).2 = true) : (a.exec c).1 = a := by
  have hrefer : ∀ owner delta, (a.refer owner delta).2.toOption.isNone = true →
      (a.refer owner delta).1 = a := by
    intro owner delta hnone
    rcases a.refer_cases owner delta with heq | ⟨e, -, heq⟩
    · rw [heq]
    · rw [heq] at hnone
      cases hnone
  cases c with
  | acquire owner =>
      simp only [exec] at hfailed ⊢
      rcases a.acquire_cases owner with ⟨e, -, heq⟩ | ⟨-, -, heq⟩ |
        ⟨table, tables, priority, priorities, -, -, -, heq⟩
      · rw [heq]
      · rw [heq]
      · rw [heq] at hfailed
        cases hfailed
  | incref owner => exact hrefer owner 1 hfailed
  | decref owner => exact hrefer owner (-1) hfailed
  | release owner =>
      simp only [exec] at hfailed ⊢
      rcases a.release_cases owner with ⟨e, heq⟩ | ⟨e, -, -, heq⟩
      · rw [heq]
      · rw [heq] at hfailed
        cases hfailed

section Partition

variable (h : a.Pools peerRange mainRulePriority)

include h

omit [DecidableEq K] in
lemma Pools.nodup_tables :
    (a.freeTables ++ a.allocated.values.map Allocation.table).Nodup :=
  h.tables.nodup_iff.mpr peerRange.nodup_tables

omit [DecidableEq K] in
lemma Pools.nodup_priorities :
    (a.freePriorities ++ a.allocated.values.map Allocation.priority).Nodup :=
  h.priorities.nodup_iff.mpr TableAllocator.nodup_priorities

omit [DecidableEq K] in
/-- As many tables as priorities: they run out together. -/
lemma Pools.exhausted_together (hsize : peerRange.size < 2 ^ 32)
    (hroom : peerRange.size ≤ mainRulePriority.toNat)
    (hempty : a.freeTables = [] ∨ a.freePriorities = []) : a.freeTables = [] := by
  have htables := h.tables.length_eq
  have hpriorities := h.priorities.length_eq
  rw [length_tables] at htables
  rw [length_priorities hsize] at hpriorities
  simp only [List.length_append, List.length_map] at htables hpriorities
  rcases hempty with hempty | hempty
  · exact hempty
  · rw [hempty, List.length_nil] at hpriorities
    exact List.eq_nil_of_length_eq_zero (by omega)

/-- **The pools are a partition**, while there is a priority for every table. -/
theorem Pools.partitions (hcheck : checkRange peerRange mainTable = .ok ())
    (hroom : peerRange.size ≤ mainRulePriority.toNat) :
    a.Partitions peerRange mainTable mainRulePriority where
  inside k e hk := by
    have htable : e.table ∈ peerRange.tables := h.tables.mem_iff.mp
      (List.mem_append_right _ (List.mem_map.mpr ⟨e, KeyedMap.mem_values_of_get? hk, rfl⟩))
    have hpriority : e.priority ∈ TableAllocator.priorities peerRange mainRulePriority :=
      h.priorities.mem_iff.mp
        (List.mem_append_right _ (List.mem_map.mpr ⟨e, KeyedMap.mem_values_of_get? hk, rfl⟩))
    obtain ⟨hreserved, hmain⟩ := checkRange_eq_ok hcheck e.table htable
    exact ⟨TableRange.mem_tables.mp htable, hreserved, hmain, lt_of_mem_priorities hpriority⟩
  apart k e k' e' hk hk' hne :=
    ⟨ne_of_nodup h.nodup_tables.of_append_right hk hk' hne,
      ne_of_nodup h.nodup_priorities.of_append_right hk hk' hne⟩
  whole := ⟨peerRange.nodup_tables, h.tables⟩
  exhausted k hfail table htable := by
    rcases a.acquire_cases k with ⟨e, -, heq⟩ | ⟨hk, hempty, -⟩ |
      ⟨t, tables, priority, priorities, -, -, -, heq⟩
    · rw [heq] at hfail
      cases hfail
    · have hnil := h.exhausted_together (size_lt hcheck) hroom hempty
      have hmem := h.tables.mem_iff.mpr htable
      rw [hnil, List.nil_append, List.mem_map] at hmem
      obtain ⟨e, he, rfl⟩ := hmem
      obtain ⟨k', hk'⟩ := KeyedMap.mem_values.mp he
      have hget := KeyedMap.mem_entries_iff.mp hk'
      refine ⟨k', e, ?_, hget, rfl⟩
      rintro rfl
      rw [hk] at hget
      cases hget
    · rw [heq] at hfail
      cases hfail
  handed k table priority hok k' e hne hk' := by
    rcases a.acquire_cases k with ⟨e', hk, heq⟩ | ⟨-, -, heq⟩ |
      ⟨t, tables, p, priorities, -, htables, hpriorities, heq⟩
    · rw [heq] at hok
      cases hok
      exact ⟨ne_of_nodup h.nodup_tables.of_append_right hk' hk hne,
        ne_of_nodup h.nodup_priorities.of_append_right hk' hk hne⟩
    · rw [heq] at hok
      cases hok
    · rw [heq] at hok
      cases hok
      exact ⟨ne_of_mem_free h.nodup_tables (htables ▸ List.mem_cons_self) hk',
        ne_of_mem_free h.nodup_priorities (hpriorities ▸ List.mem_cons_self) hk'⟩
  referred k table hok := by
    rcases a.release_cases k with ⟨e, heq⟩ | ⟨e, hk, hrefcount, heq⟩
    · rw [heq] at hok
      cases hok
    · rw [heq] at hok
      cases hok
      exact ⟨e, hk, rfl, hrefcount⟩
  unchanged c := exec_of_failed c

end Partition

/-- Owners `0` to `n - 1` acquire a table each. -/
def takeAll (n : ℕ) : List (TableCall ℕ) := (List.range n).map TableCall.acquire

/-- While both pools last, each acquire takes one of each. -/
lemma run_takeAll {a : TableAllocator ℕ} {n : ℕ} (hempty : a.allocated = KeyedMap.empty)
    (htables : n ≤ a.freeTables.length) (hpriorities : n ≤ a.freePriorities.length) :
    (a.run (takeAll n)).freeTables.length = a.freeTables.length - n ∧
      (a.run (takeAll n)).freePriorities.length = a.freePriorities.length - n ∧
      ∀ k, n ≤ k → (a.run (takeAll n)).allocated.get? k = none := by
  induction n with
  | zero =>
      refine ⟨rfl, rfl, fun k _ => ?_⟩
      change a.allocated.get? k = none
      rw [hempty]
      rfl
  | succ n ih =>
      obtain ⟨hlen, hlen', hnone⟩ := ih (by omega) (by omega)
      have hrun : a.run (takeAll (n + 1)) = ((a.run (takeAll n)).acquire n).1 := by
        simp [run, takeAll, List.range_succ, exec]
      rw [hrun]
      rcases (a.run (takeAll n)).acquire_cases n with ⟨e, hk, -⟩ | ⟨-, hnil, -⟩ |
        ⟨table, tables, priority, priorities, -, heqt, heqp, heq⟩
      · rw [hnone n le_rfl] at hk
        cases hk
      · rcases hnil with hnil | hnil
        · rw [hnil, List.length_nil] at hlen
          omega
        · rw [hnil, List.length_nil] at hlen'
          omega
      · rw [heq]
        rw [heqt, List.length_cons] at hlen
        rw [heqp, List.length_cons] at hlen'
        refine ⟨by simp only; omega, by simp only; omega, fun k hk => ?_⟩
        simp only
        rw [KeyedMap.get?_insert_of_ne _ _ (by omega)]
        exact hnone k (by omega)

/-- Without a priority left there is nothing for a new owner. -/
lemma acquire_of_no_priority {owner : K} (howner : a.allocated.get? owner = none)
    (hnil : a.freePriorities = []) : (a.acquire owner).2 = Outcome.fail .exhausted := by
  rcases a.acquire_cases owner with ⟨e, hk, -⟩ | ⟨-, -, heq⟩ |
    ⟨table, tables, priority, priorities, -, -, hcons, -⟩
  · rw [howner] at hk
    cases hk
  · rw [heq]
  · rw [hnil] at hcons
    cases hcons

/-- **When the allocator partitions its range**, whatever is asked of it: exactly if the main rule's
priority leaves room for a priority for every table. -/
theorem partitions_iff (peerRange : TableRange) (mainTable mainRulePriority : UInt32)
    (hcheck : checkRange peerRange mainTable = .ok ()) :
    (∀ (K : Type) [DecidableEq K] (a : TableAllocator K) (calls : List (TableCall K)),
      withRange peerRange mainTable mainRulePriority = .ok a →
        (a.run calls).Partitions peerRange mainTable mainRulePriority) ↔
      peerRange.size ≤ mainRulePriority.toNat := by
  constructor
  · intro hall
    by_contra hroom
    have hsize := size_lt hcheck
    -- one owner for each priority, and one more
    have hstart : withRange peerRange mainTable mainRulePriority = .ok
        (⟨peerRange, mainTable, mainRulePriority, peerRange.tables,
          priorities peerRange mainRulePriority, KeyedMap.empty⟩ : TableAllocator ℕ) := by
      rw [withRange, hcheck]
      rfl
    obtain ⟨-, hpools, htables, hpriorities, hempty⟩ := pools_withRange hstart
    have hlen : (priorities peerRange mainRulePriority).length = mainRulePriority.toNat := by
      rw [length_priorities hsize]
      omega
    have hfew : mainRulePriority.toNat ≤ peerRange.tables.length := by
      rw [length_tables]
      omega
    obtain ⟨hfree, hnone, hlast⟩ := run_takeAll hempty hfew hlen.ge
    rw [hpriorities, hlen, Nat.sub_self, List.length_eq_zero_iff] at hnone
    rw [htables, length_tables] at hfree
    have hpart := hall ℕ _ (takeAll mainRulePriority.toNat) hstart
    have hend := hpools.run (takeAll mainRulePriority.toNat)
    obtain ⟨table, hmem⟩ := List.exists_mem_of_length_pos (hfree ▸ Nat.sub_pos_of_lt
      (Nat.lt_of_not_le hroom))
    obtain ⟨k, e, -, hk, heq⟩ := hpart.exhausted mainRulePriority.toNat
      (acquire_of_no_priority (hlast _ le_rfl) hnone) table
      (hend.tables.mem_iff.mp (List.mem_append_left _ hmem))
    exact ne_of_mem_free hend.nodup_tables hmem hk heq
  · intro hroom K _ a calls hstart
    obtain ⟨-, hpools, -⟩ := pools_withRange hstart
    exact (hpools.run calls).partitions hcheck hroom

/-- The tables 200 to 250, below a main rule of priority 10000. -/
theorem partitions_iff_peers : checkRange ⟨200, 250⟩ 251 = .ok () ∧
    ∀ (K : Type) [DecidableEq K] (a : TableAllocator K) (calls : List (TableCall K)),
      withRange ⟨200, 250⟩ 251 10000 = .ok a → (a.run calls).Partitions ⟨200, 250⟩ 251 10000 :=
  ⟨by decide, (partitions_iff ⟨200, 250⟩ 251 10000 (by decide)).mpr (by decide)⟩

/-- Four tables below a main rule of priority 2: the third owner gets none. -/
theorem not_partitions :
    ¬∀ (K : Type) [DecidableEq K] (peerRange : TableRange) (mainTable mainRulePriority : UInt32)
      (a : TableAllocator K) (calls : List (TableCall K)),
      withRange peerRange mainTable mainRulePriority = .ok a →
        (a.run calls).Partitions peerRange mainTable mainRulePriority := by
  intro hall
  have hpart := hall ℕ ⟨1000, 1003⟩ 5000 2 _ [.acquire 0, .acquire 1] rfl
  obtain ⟨k, e, -, hk, htable⟩ := hpart.exhausted 2 (by decide) 1003 (by decide)
  have hmem := List.mem_map_of_mem (f := Allocation.table) (KeyedMap.mem_values_of_get? hk)
  rw [htable] at hmem
  exact absurd hmem (by decide)

end TableAllocator

end Netsukuku
