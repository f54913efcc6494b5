import Mathlib
import Netsukuku.Core.KeyedMap
import Netsukuku.Core.Scan

/-!
# Sequences that only go up

Every signed message carries a sequence number, and a guard remembers the highest one it has seen of
each signer.  Anybody can be a signer, so the table is bounded: a new signer takes the place of the
one who has been silent for longest, whose sequence is forgotten.

* `SequenceGuard.observe` — one message.
* `since`, `signersSince` — who was accepted after the last message of a signer.
* `SequenceGuard.Remembers` — the table, told from the messages accepted.
* `replay_costs` — what it takes to have an old sequence accepted again.
-/

namespace Netsukuku

/-- The error of `AuthError` that a guard can give. -/
inductive AuthError where
  | replayed (got lastSeen : UInt64)
  deriving DecidableEq, Repr

/-- Its text. -/
def AuthError.message : AuthError → String
  | .replayed got lastSeen =>
      s!"sequence {got} is not greater than last-seen {lastSeen} for this signer"

/-- `DEFAULT_MAX_SIGNERS`. -/
def defaultMaxSigners : ℕ := 4096

/-- The highest sequence of each signer, and the time of the call that brought it.  Times are
numbers of calls. -/
structure SequenceGuard (κ : Type) where
  maxSigners : ℕ
  clock : UInt64
  seen : KeyedMap κ (UInt64 × UInt64)

namespace SequenceGuard

variable {κ : Type} [DecidableEq κ]

def withCapacity (maxSigners : ℕ) : SequenceGuard κ := ⟨max maxSigners 1, 0, KeyedMap.empty⟩

def new : SequenceGuard κ := withCapacity defaultMaxSigners

/-- The signer who has been silent for longest, in the order the table is gone through. -/
def oldest (order : HashOrder (κ × UInt64 × UInt64)) (g : SequenceGuard κ) : Option κ :=
  (Scan.firstMin (fun e => e.2.2.toNat) (g.seen.rearrange order).entries).map Prod.fst

/-- The signer who has been silent for longest is forgotten. -/
def evict (order : HashOrder (κ × UInt64 × UInt64)) (g : SequenceGuard κ) :
    KeyedMap κ (UInt64 × UInt64) :=
  match g.oldest order with
  | some key => g.seen.erase key
  | none => g.seen

def observe (order : HashOrder (κ × UInt64 × UInt64)) (g : SequenceGuard κ) (signer : κ)
    (sequence : UInt64) : SequenceGuard κ × Except AuthError Unit :=
  let clock := g.clock + 1
  match g.seen.get? signer with
  | some (lastSeen, _) =>
      if sequence ≤ lastSeen then
        ({ g with clock }, .error (.replayed sequence lastSeen))
      else ({ g with clock, seen := g.seen.insert signer (sequence, clock) }, .ok ())
  | none =>
      let seen := if g.maxSigners ≤ g.seen.entries.length then g.evict order else g.seen
      ({ g with clock, seen := seen.insert signer (sequence, clock) }, .ok ())

/-- The last sequence held of a signer. -/
def lastSeen (g : SequenceGuard κ) (signer : κ) : Option UInt64 := (g.seen.get? signer).map Prod.fst

/-- A sequence not above the one held is refused. -/
lemma observe_stale (order : HashOrder (κ × UInt64 × UInt64)) {g : SequenceGuard κ} {signer : κ}
    {sequence last : UInt64} (hlast : g.lastSeen signer = some last) (hle : sequence ≤ last) :
    (g.observe order signer sequence).2 = .error (.replayed sequence last) := by
  obtain ⟨⟨seen, touched⟩, hget, rfl⟩ := Option.map_eq_some_iff.mp hlast
  unfold observe
  rw [hget]
  dsimp only
  rw [if_pos hle]

/-- The guard after some calls, and the calls it accepted, the latest first. -/
def run (order : HashOrder (κ × UInt64 × UInt64)) (maxSigners : ℕ) (calls : List (κ × UInt64)) :
    SequenceGuard κ × List (κ × UInt64) :=
  calls.foldl (fun s c =>
    match s.1.observe order c.1 c.2 with
    | (g, .ok ()) => (g, c :: s.2)
    | (g, .error _) => (g, s.2)) (withCapacity maxSigners, [])

end SequenceGuard

/-! ## Who came since -/

section Since

variable {κ : Type} [DecidableEq κ] {accepted : List (κ × UInt64)} {c : κ × UInt64} {s s' : κ}

/-- The calls accepted since the last one of `s`, the latest first. -/
def since (s : κ) (accepted : List (κ × UInt64)) : List (κ × UInt64) :=
  accepted.takeWhile fun c => decide (c.1 ≠ s)

/-- How many signers were accepted since the last call of `s`. -/
def signersSince (s : κ) (accepted : List (κ × UInt64)) : Finset κ :=
  ((since s accepted).map Prod.fst).toFinset

/-- The last sequence accepted of `s`. -/
def lastOf (s : κ) (accepted : List (κ × UInt64)) : Option UInt64 :=
  (accepted.find? fun c => decide (c.1 = s)).map Prod.snd

lemma lastOf_cons_self : lastOf c.1 (c :: accepted) = some c.2 := by
  simp [lastOf]

lemma lastOf_cons_of_ne (h : c.1 ≠ s) : lastOf s (c :: accepted) = lastOf s accepted := by
  simp [lastOf, h]

lemma since_cons_self : since c.1 (c :: accepted) = [] := by
  simp [since]

lemma since_cons_of_ne (h : c.1 ≠ s) : since s (c :: accepted) = c :: since s accepted := by
  simp [since, h]

lemma signersSince_cons_of_ne (h : c.1 ≠ s) :
    signersSince s (c :: accepted) = insert c.1 (signersSince s accepted) := by
  rw [signersSince, since_cons_of_ne h, List.map_cons, List.toFinset_cons, signersSince]

/-- The calls before the last one of `s` start with it. -/
lemma split_of_lastOf {q : UInt64} (h : lastOf s accepted = some q) :
    ∃ earlier, accepted = since s accepted ++ (s, q) :: earlier := by
  induction accepted with
  | nil => simp [lastOf] at h
  | cons c accepted ih =>
      by_cases hc : c.1 = s
      · subst hc
        rw [lastOf_cons_self] at h
        obtain rfl := Option.some.inj h
        exact ⟨accepted, by rw [since_cons_self]; rfl⟩
      · rw [lastOf_cons_of_ne hc] at h
        obtain ⟨earlier, heq⟩ := ih h
        refine ⟨earlier, ?_⟩
        rw [since_cons_of_ne hc, List.cons_append, ← heq]

lemma since_append {others : List (κ × UInt64)} (earlier : List (κ × UInt64)) (q : UInt64)
    (h : ∀ c ∈ others, c.1 ≠ s) :
    since s (others ++ (s, q) :: earlier) = others ∧
      lastOf s (others ++ (s, q) :: earlier) = some q := by
  induction others with
  | nil => exact ⟨since_cons_self, lastOf_cons_self⟩
  | cons c others ih =>
      have hc : c.1 ≠ s := h c List.mem_cons_self
      obtain ⟨hsince, hlast⟩ := ih fun c' hc' => h c' (List.mem_cons_of_mem c hc')
      exact ⟨by rw [List.cons_append, since_cons_of_ne hc, hsince],
        by rw [List.cons_append, lastOf_cons_of_ne hc, hlast]⟩

lemma fst_ne_of_mem_since (h : c ∈ since s accepted) : c.1 ≠ s := by
  simpa using List.mem_takeWhile_imp h

lemma exists_lastOf (h : c ∈ accepted) : ∃ q, lastOf c.1 accepted = some q := by
  rw [← Option.isSome_iff_exists, lastOf, Option.isSome_map, List.find?_isSome]
  exact ⟨c, h, by simp⟩

end Since

/-! ## What the table remembers -/

namespace SequenceGuard

variable {κ : Type} [DecidableEq κ] {order : HashOrder (κ × UInt64 × UInt64)}
  {g g' : SequenceGuard κ} {accepted : List (κ × UInt64)} {s : κ} {q t : UInt64}

/-- The table after the calls in `accepted`: the last sequence of every signer in it, with the later
signers stamped later.  A signer who is not in the table any more has seen it change hands. -/
structure Remembers (g : SequenceGuard κ) (accepted : List (κ × UInt64)) : Prop where
  pos : 0 < g.maxSigners
  size : g.seen.entries.length ≤ g.maxSigners
  stamp_le : ∀ s q t, g.seen.get? s = some (q, t) → t.toNat ≤ g.clock.toNat
  stamp_inj : ∀ s q t s' q' t', g.seen.get? s = some (q, t) → g.seen.get? s' = some (q', t') →
    t.toNat = t'.toNat → s = s'
  mark : ∀ s q t, g.seen.get? s = some (q, t) → lastOf s accepted = some q
  later : ∀ s q t s' q' t', g.seen.get? s = some (q, t) → g.seen.get? s' = some (q', t') →
    t.toNat < t'.toNat → s' ∈ signersSince s accepted
  evicted : ∀ s q, g.seen.get? s = none → lastOf s accepted = some q →
    g.maxSigners ≤ (signersSince s accepted).card

lemma remembers_withCapacity (maxSigners : ℕ) :
    (withCapacity maxSigners : SequenceGuard κ).Remembers [] where
  pos := lt_of_lt_of_le one_pos (le_max_right _ _)
  size := by simp [withCapacity]
  stamp_le := by simp [withCapacity]
  stamp_inj := by simp [withCapacity]
  mark := by simp [withCapacity]
  later := by simp [withCapacity]
  evicted := by simp [lastOf]

/-- A call that is rejected leaves the table. -/
lemma Remembers.tick (h : g.Remembers accepted) (hclock : g.clock.toNat + 1 < 2 ^ 64) :
    ({ g with clock := g.clock + 1 } : SequenceGuard κ).Remembers accepted where
  pos := h.pos
  size := h.size
  stamp_le s q t hs := by
    have := h.stamp_le s q t hs
    have hnext : (g.clock + 1).toNat = g.clock.toNat + 1 := by
      rw [UInt64.toNat_add, UInt64.toNat_one, Nat.mod_eq_of_lt hclock]
    rw [hnext]
    omega
  stamp_inj := h.stamp_inj
  mark := h.mark
  later := h.later
  evicted := h.evicted

/-- A call that is accepted: `base` is the table with room for it. -/
lemma Remembers.accept (h : g.Remembers accepted) (hclock : g.clock.toNat + 1 < 2 ^ 64)
    {base : KeyedMap κ (UInt64 × UInt64)} (c : κ × UInt64)
    (hsub : ∀ s v, base.get? s = some v → g.seen.get? s = some v)
    (hgone : ∀ s, s ≠ c.1 → base.get? s = none → g.seen.get? s = none ∨
      g.maxSigners ≤ (insert c.1 (signersSince s accepted)).card)
    (hsize : (base.erase c.1).entries.length < g.maxSigners) :
    ({ g with clock := g.clock + 1, seen := base.insert c.1 (c.2, g.clock + 1) } :
      SequenceGuard κ).Remembers (c :: accepted) := by
  have hnext : (g.clock + 1).toNat = g.clock.toNat + 1 := by
    rw [UInt64.toNat_add, UInt64.toNat_one, Nat.mod_eq_of_lt hclock]
  -- an entry is the new one, or an old one that is stamped earlier
  have hcases : ∀ s v, (base.insert c.1 (c.2, g.clock + 1)).get? s = some v →
      s = c.1 ∧ v = (c.2, g.clock + 1) ∨
        s ≠ c.1 ∧ g.seen.get? s = some v ∧ v.2.toNat < (g.clock + 1).toNat := by
    intro s v hs
    by_cases hsc : s = c.1
    · subst hsc
      rw [KeyedMap.get?_insert_self] at hs
      exact .inl ⟨rfl, (Option.some.inj hs).symm⟩
    · rw [KeyedMap.get?_insert_of_ne _ _ hsc] at hs
      have hold := hsub s v hs
      have := h.stamp_le s v.1 v.2 hold
      exact .inr ⟨hsc, hold, by omega⟩
  constructor
  · exact h.pos
  · rw [(KeyedMap.perm_insert _ _ _).length_eq]
    exact hsize
  · intro s q t hs
    rcases hcases s _ hs with ⟨-, hv⟩ | ⟨-, -, hlt⟩
    · cases hv
      exact le_refl _
    · exact hlt.le
  · intro s q t s' q' t' hs hs' heq
    rcases hcases s _ hs with ⟨rfl, hv⟩ | ⟨-, hold, hlt⟩ <;>
      rcases hcases s' _ hs' with ⟨rfl, hv'⟩ | ⟨-, hold', hlt'⟩
    · rfl
    · cases hv
      simp only at hlt'
      omega
    · cases hv'
      simp only at hlt
      omega
    · exact h.stamp_inj s q t s' q' t' hold hold' heq
  · intro s q t hs
    rcases hcases s _ hs with ⟨rfl, hv⟩ | ⟨hne, hold, -⟩
    · cases hv
      exact lastOf_cons_self
    · rw [lastOf_cons_of_ne hne.symm]
      exact h.mark s q t hold
  · intro s q t s' q' t' hs hs' hlt
    rcases hcases s _ hs with ⟨rfl, hv⟩ | ⟨hne, hold, -⟩
    · cases hv
      rcases hcases s' _ hs' with ⟨-, hv'⟩ | ⟨-, -, hlt'⟩
      · cases hv'
        exact absurd hlt (lt_irrefl _)
      · simp only at hlt'
        omega
    · rw [signersSince_cons_of_ne hne.symm]
      rcases hcases s' _ hs' with ⟨rfl, -⟩ | ⟨-, hold', -⟩
      · exact Finset.mem_insert_self _ _
      · exact Finset.mem_insert_of_mem (h.later s q t s' q' t' hold hold' hlt)
  · intro s q hs hlast
    have hne : s ≠ c.1 := by
      rintro rfl
      rw [KeyedMap.get?_insert_self] at hs
      cases hs
    rw [KeyedMap.get?_insert_of_ne _ _ hne] at hs
    rw [lastOf_cons_of_ne hne.symm] at hlast
    rw [signersSince_cons_of_ne hne.symm]
    rcases hgone s hne hs with hold | hcard
    · exact (h.evicted s q hold hlast).trans (Finset.card_le_card (Finset.subset_insert _ _))
    · exact hcard

/-- Who is forgotten has seen everybody else in the table, and the newcomer. -/
lemma Remembers.evict (order : HashOrder (κ × UInt64 × UInt64))
    (h : g.Remembers accepted) (hfull : g.maxSigners ≤ g.seen.entries.length)
    (c : κ × UInt64) (hnew : g.seen.get? c.1 = none) :
    ∃ key, g.evict order = g.seen.erase key ∧ key ≠ c.1 ∧ (∃ v, g.seen.get? key = some v) ∧
      g.maxSigners ≤ (insert c.1 (signersSince key accepted)).card := by
  have hentries : g.seen.entries ≠ [] := by
    have := h.pos
    rintro hnil
    rw [hnil] at hfull
    simp at hfull
    omega
  have hperm := order.perm g.seen.entries
  obtain ⟨⟨key, q, t⟩, hmin⟩ := Scan.exists_firstMin
    (fun e : κ × UInt64 × UInt64 => e.2.2.toNat) (l := (g.seen.rearrange order).entries)
    (fun hnil => hentries (List.perm_nil.mp (hnil ▸ hperm.symm)))
  have hget : g.seen.get? key = some (q, t) :=
    KeyedMap.mem_entries_iff.mp (KeyedMap.mem_rearrange.mp (Scan.firstMin_mem hmin))
  have hne : key ≠ c.1 := by
    rintro rfl
    rw [hnew] at hget
    cases hget
  refine ⟨key, by rw [SequenceGuard.evict, oldest, hmin]; rfl, hne, ⟨_, hget⟩, ?_⟩
  -- the other signers of the table came after the last call of `key`
  have hsub : insert c.1 ((g.seen.erase key).keys.toFinset) ⊆
      insert c.1 (signersSince key accepted) := by
    refine Finset.insert_subset_insert _ fun s hs => ?_
    obtain ⟨⟨q', t'⟩, hs⟩ := KeyedMap.mem_keys_iff.mp (List.mem_toFinset.mp hs)
    have hsk : s ≠ key := by
      rintro rfl
      rw [KeyedMap.get?_erase_self] at hs
      cases hs
    rw [KeyedMap.get?_erase_of_ne _ hsk] at hs
    refine h.later key q t s q' t' hget hs (lt_of_le_of_ne ?_ fun heq => ?_)
    · exact Scan.firstMin_le hmin (s, q', t')
        (KeyedMap.mem_rearrange.mpr (KeyedMap.mem_entries_iff.mpr hs))
    · exact hsk (h.stamp_inj key q t s q' t' hget hs heq).symm
  have hnot : c.1 ∉ (g.seen.erase key).keys.toFinset := by
    intro hmem
    obtain ⟨v, hv⟩ := KeyedMap.mem_keys_iff.mp (List.mem_toFinset.mp hmem)
    rw [KeyedMap.get?_erase_of_ne _ hne.symm, hnew] at hv
    cases hv
  have hlen := (KeyedMap.perm_erase hget).length_eq
  rw [List.length_cons] at hlen
  have hcard : (g.seen.erase key).keys.toFinset.card = (g.seen.erase key).entries.length := by
    rw [KeyedMap.keys, List.toFinset_card_of_nodup (g.seen.erase key).nodup, List.length_map]
  calc g.maxSigners ≤ (insert c.1 ((g.seen.erase key).keys.toFinset)).card := by
        rw [Finset.card_insert_of_notMem hnot]
        omega
    _ ≤ _ := Finset.card_le_card hsub

/-- A call goes up from the last one of its signer, or comes after enough others. -/
def Follows (maxSigners : ℕ) (accepted : List (κ × UInt64)) (c : κ × UInt64) : Prop :=
  ∀ q, lastOf c.1 accepted = some q → q < c.2 ∨ maxSigners ≤ (signersSince c.1 accepted).card

/-- **One call.**  A rejected one leaves the table, an accepted one follows the last of its
signer. -/
theorem observe_spec (h : g.Remembers accepted) (hclock : g.clock.toNat + 1 < 2 ^ 64)
    (order : HashOrder (κ × UInt64 × UInt64)) (c : κ × UInt64) :
    (g.observe order c.1 c.2).1.maxSigners = g.maxSigners ∧
      (g.observe order c.1 c.2).1.clock = g.clock + 1 ∧
      ((∃ e, (g.observe order c.1 c.2).2 = .error e) ∧
          (g.observe order c.1 c.2).1.seen = g.seen ∧
          (g.observe order c.1 c.2).1.Remembers accepted ∨
        (g.observe order c.1 c.2).2 = .ok () ∧ Follows g.maxSigners accepted c ∧
          (g.observe order c.1 c.2).1.Remembers (c :: accepted)) := by
  unfold observe
  cases hget : g.seen.get? c.1 with
  | some v =>
      obtain ⟨lastSeen, t⟩ := v
      simp only
      by_cases hle : c.2 ≤ lastSeen
      · rw [if_pos hle]
        exact ⟨rfl, rfl, .inl ⟨⟨_, rfl⟩, rfl, h.tick hclock⟩⟩
      · rw [if_neg hle]
        refine ⟨rfl, rfl, .inr ⟨rfl, ?_, ?_⟩⟩
        · intro q hq
          rw [h.mark c.1 lastSeen t hget] at hq
          obtain rfl := Option.some.inj hq
          exact .inl (UInt64.not_le.mp hle)
        · refine h.accept hclock c (fun s v hv => hv) (fun s _ hs => .inl hs) ?_
          have hlen := (KeyedMap.perm_erase hget).length_eq
          have := h.size
          rw [List.length_cons] at hlen
          omega
  | none =>
      refine ⟨rfl, rfl, .inr ⟨rfl, fun q hq => .inr (h.evicted c.1 q hget hq), ?_⟩⟩
      simp only
      by_cases hfull : g.maxSigners ≤ g.seen.entries.length
      · obtain ⟨key, hevict, hne, ⟨v, hv⟩, hcard⟩ := h.evict order hfull c hget
        rw [if_pos hfull, hevict]
        refine h.accept hclock c (fun s v' hs => ?_) (fun s _ hs => ?_) ?_
        · by_cases hsk : s = key
          · subst hsk
            rw [KeyedMap.get?_erase_self] at hs
            cases hs
          · rwa [KeyedMap.get?_erase_of_ne _ hsk] at hs
        · by_cases hsk : s = key
          · exact .inr (hsk ▸ hcard)
          · rw [KeyedMap.get?_erase_of_ne _ hsk] at hs
            exact .inl hs
        · have hnone : (g.seen.erase key).get? c.1 = none := by
            rw [KeyedMap.get?_erase_of_ne _ hne.symm, hget]
          have hlen := (KeyedMap.perm_erase hv).length_eq
          have := h.size
          rw [List.length_cons] at hlen
          rw [KeyedMap.erase_entries_of_get?_none hnone]
          omega
      · rw [if_neg hfull]
        refine h.accept hclock c (fun s v hv => hv) (fun s _ hs => .inl hs) ?_
        rw [KeyedMap.erase_entries_of_get?_none hget]
        omega

/-- Every accepted call follows the last one of its signer. -/
def Orderly (maxSigners : ℕ) : List (κ × UInt64) → Prop
  | [] => True
  | c :: accepted => Follows maxSigners accepted c ∧ Orderly maxSigners accepted

/-- **The guard and what it accepted, over any calls.** -/
theorem run_spec (order : HashOrder (κ × UInt64 × UInt64)) (maxSigners : ℕ)
    (calls : List (κ × UInt64)) (hcalls : calls.length < 2 ^ 64) :
    (run order maxSigners calls).1.maxSigners = max maxSigners 1 ∧
      (run order maxSigners calls).1.clock.toNat = calls.length ∧
      (run order maxSigners calls).1.Remembers (run order maxSigners calls).2 ∧
      Orderly (max maxSigners 1) (run order maxSigners calls).2 := by
  -- one more call at the end
  induction calls using List.reverseRecOn with
  | nil => exact ⟨rfl, rfl, remembers_withCapacity maxSigners, trivial⟩
  | append_singleton calls c ih =>
      rw [List.length_append, List.length_singleton] at hcalls
      obtain ⟨hmax, hclock, hremembers, horderly⟩ := ih (by omega)
      obtain ⟨hmax', hclock', hcase⟩ := observe_spec hremembers (by omega) order c
      have hnext : ((run order maxSigners calls).1.clock + 1).toNat = calls.length + 1 := by
        rw [UInt64.toNat_add, UInt64.toNat_one, hclock, Nat.mod_eq_of_lt hcalls]
      rw [run, List.foldl_append, List.foldl_cons, List.foldl_nil, ← run]
      rw [hmax] at hmax'
      rw [← hclock'] at hnext
      rw [List.length_append, List.length_singleton]
      clear hclock'
      revert hmax' hnext hcase
      rcases (run order maxSigners calls).1.observe order c.1 c.2 with ⟨g, _ | ⟨⟨⟩⟩⟩
      · rintro hmax' (⟨-, -, hremembers'⟩ | ⟨hok, -⟩) hnext
        · exact ⟨hmax', hnext, hremembers', horderly⟩
        · cases hok
      · rintro hmax' (⟨⟨e, herr⟩, -⟩ | ⟨-, hfollows, hremembers'⟩) hnext
        · cases herr
        · exact ⟨hmax', hnext, hremembers', hmax ▸ hfollows, horderly⟩

/-! ## What a replay costs -/

lemma Orderly.of_append {maxSigners : ℕ} {later : List (κ × UInt64)}
    (h : Orderly maxSigners (later ++ accepted)) : Orderly maxSigners accepted := by
  induction later with
  | nil => exact h
  | cons c later ih => exact ih h.2

/-- Among the calls, the latest first, two of `s` in a row have `count` other signers between
them. -/
def HasGap (s : κ) (count : ℕ) (calls : List (κ × UInt64)) : Prop :=
  ∃ later b others a before, calls = later ++ (s, b) :: (others ++ (s, a) :: before) ∧
    (∀ c ∈ others, c.1 ≠ s) ∧ count ≤ (others.map Prod.fst).toFinset.card

/-- **A sequence that does not go up** has such a gap. -/
lemma Orderly.hasGap {maxSigners : ℕ} {q' : UInt64} {earlier : List (κ × UInt64)} :
    ∀ {between : List (κ × UInt64)} {q : UInt64},
      Orderly maxSigners ((s, q) :: (between ++ (s, q') :: earlier)) → q ≤ q' →
      HasGap s maxSigners ((s, q) :: (between ++ [(s, q')])) := by
  intro between
  -- the last call before `q` is an end of the gap, or a nearer one to start from
  induction hlen : between.length using Nat.strong_induction_on generalizing between with
  | _ n ih =>
      intro q h hle
      obtain ⟨a, ha⟩ : ∃ a, lastOf s (between ++ [(s, q')]) = some a :=
        exists_lastOf (c := (s, q')) (by simp)
      obtain ⟨before, hsplit⟩ := split_of_lastOf ha
      have hothers : ∀ c ∈ since s (between ++ [(s, q')]), c.1 ≠ s := fun c hc =>
        fst_ne_of_mem_since hc
      generalize since s (between ++ [(s, q')]) = others at hsplit hothers
      have hwhole : between ++ (s, q') :: earlier = others ++ (s, a) :: (before ++ earlier) := by
        rw [← List.singleton_append, ← List.append_assoc, hsplit, List.append_assoc,
          List.cons_append]
      rw [hwhole] at h
      obtain ⟨hfollows, hrest⟩ := h
      obtain ⟨hsince, hlast⟩ := since_append (before ++ earlier) a hothers
      rcases hfollows a hlast with hlt | hcard
      · rcases List.eq_nil_or_concat before with rfl | ⟨between', c, rfl⟩
        · have heq := List.append_inj_right' hsplit rfl
          simp only [List.cons.injEq, Prod.mk.injEq, true_and, and_true] at heq
          exact absurd (heq ▸ hle) (UInt64.not_le.mpr hlt)
        · rw [List.concat_eq_append] at hsplit hrest
          rw [← List.cons_append, ← List.append_assoc] at hsplit
          have hc : [(s, q')] = [c] := List.append_inj_right' hsplit rfl
          have hlen' : between = others ++ (s, a) :: between' := List.append_inj_left' hsplit rfl
          obtain rfl : (s, q') = c := by simpa using hc
          rw [List.append_assoc, List.singleton_append] at hrest
          obtain ⟨later, b, others', a', before, heq, hother, hcount⟩ :=
            ih between'.length (by rw [← hlen, hlen']; simp; omega) rfl hrest.of_append
              (UInt64.le_trans (UInt64.le_of_lt hlt) hle)
          refine ⟨(s, q) :: (others ++ later), b, others', a', before, ?_, hother, hcount⟩
          rw [hlen', List.append_assoc, List.cons_append, heq, List.cons_append, List.append_assoc]
      · rw [signersSince, hsince] at hcard
        exact ⟨[], q, others, a, before, by rw [List.nil_append, hsplit], hothers, hcard⟩

/-- The gap needs more signers than the table has places. -/
lemma HasGap.card_lt {count : ℕ} {calls : List (κ × UInt64)} (h : HasGap s count calls)
    (hsub : calls ⊆ accepted) : count < (accepted.map Prod.fst).toFinset.card := by
  obtain ⟨later, b, others, a, before, rfl, hother, hcount⟩ := h
  have hnot : s ∉ (others.map Prod.fst).toFinset := by
    intro hmem
    obtain ⟨c, hc, hcs⟩ := List.mem_map.mp (List.mem_toFinset.mp hmem)
    exact hother c hc hcs
  have hinsert : insert s (others.map Prod.fst).toFinset ⊆ (accepted.map Prod.fst).toFinset := by
    intro s' hs'
    rw [List.mem_toFinset, List.mem_map]
    rcases Finset.mem_insert.mp hs' with rfl | hs'
    · exact ⟨(s', a), hsub (by simp), rfl⟩
    · obtain ⟨c, hc, rfl⟩ := List.mem_map.mp (List.mem_toFinset.mp hs')
      exact ⟨c, hsub (by simp [hc]), rfl⟩
  have hcard := Finset.card_le_card hinsert
  rw [Finset.card_insert_of_notMem hnot] at hcard
  omega

/-- **What a replay costs.**  The table has a place for at most `max_signers` signers, and a
rejected call changes none of them.  If a signer's sequence does not go up, then between two calls
of the signer in a row, from the one with the higher sequence to the other, at least `max_signers`
other signers were accepted; with no more signers than places every sequence goes up. -/
theorem replay_costs (order : HashOrder (κ × UInt64 × UInt64)) (maxSigners : ℕ)
    (calls : List (κ × UInt64)) (hcalls : calls.length < 2 ^ 64) :
    (run order maxSigners calls).1.seen.entries.length ≤ max maxSigners 1 ∧
    (calls.length + 1 < 2 ^ 64 → ∀ s q e,
      ((run order maxSigners calls).1.observe order s q).2 = .error e →
        ((run order maxSigners calls).1.observe order s q).1.seen =
          (run order maxSigners calls).1.seen) ∧
    (∀ s q q' later between earlier,
      (run order maxSigners calls).2 = later ++ (s, q) :: (between ++ (s, q') :: earlier) →
        q ≤ q' → HasGap s (max maxSigners 1) ((s, q) :: (between ++ [(s, q')]))) ∧
    (((run order maxSigners calls).2.map Prod.fst).toFinset.card ≤ max maxSigners 1 →
      ∀ s q q' later between earlier,
        (run order maxSigners calls).2 = later ++ (s, q) :: (between ++ (s, q') :: earlier) →
          q' < q) := by
  obtain ⟨hmax, hclock, hremembers, horderly⟩ := run_spec order maxSigners calls hcalls
  have hgap : ∀ s q q' later between earlier,
      (run order maxSigners calls).2 = later ++ (s, q) :: (between ++ (s, q') :: earlier) →
        q ≤ q' → HasGap s (max maxSigners 1) ((s, q) :: (between ++ [(s, q')])) := by
    intro s q q' later between earlier heq hle
    rw [heq] at horderly
    exact horderly.of_append.hasGap hle
  refine ⟨hmax ▸ hremembers.size, fun hnext s q e herr => ?_, hgap, ?_⟩
  · obtain ⟨-, -, ⟨-, hseen, -⟩ | ⟨hok, -⟩⟩ := observe_spec hremembers (by omega) order (s, q)
    · exact hseen
    · rw [hok] at herr
      cases herr
  · intro hfew s q q' later between earlier heq
    by_contra hle
    have hlt := (hgap s q q' later between earlier heq (UInt64.not_lt.mp hle)).card_lt
      (?_ : _ ⊆ (run order maxSigners calls).2)
    · exact absurd hlt (not_lt.mpr hfew)
    · rw [heq]
      intro c hc
      simp only [List.mem_cons, List.mem_append, List.not_mem_nil, or_false] at hc ⊢
      tauto

/-- With one place signer 1 takes that of signer 0, who starts again below the sequence it had: the
gap is there, and an older sequence still leaves the table as it is. -/
theorem replay_costs_one :
    let calls : List (ℕ × UInt64) := [(0, 5), (1, 1), (0, 3), (0, 4)]
    let g := (run HashOrder.asInserted 1 calls).1
    g.seen.entries.length ≤ 1 ∧ (g.observe HashOrder.asInserted 0 2).1.seen = g.seen ∧
      HasGap 0 1 [((0 : ℕ), (4 : UInt64)), (0, 3), (1, 1), (0, 5)] := by
  intro calls g
  obtain ⟨hsize, hrefused, hgap, -⟩ := replay_costs HashOrder.asInserted 1 calls (by decide)
  exact ⟨hsize, hrefused (by decide) 0 2 (.replayed 2 4) (by decide),
    hgap 0 4 5 [] [(0, 3), (1, 1)] [] (by decide) (by decide)⟩

/-- Signer 0 is forgotten for signer 1 and starts again from a lower sequence: what comes next is
an old sequence with no other signer since. -/
theorem not_replay_costs_since : ¬ ∀ (κ : Type) [DecidableEq κ]
    (order : HashOrder (κ × UInt64 × UInt64)) (maxSigners : ℕ) (calls : List (κ × UInt64)),
    calls.length < 2 ^ 64 → ∀ (s : κ) (q q' : UInt64) (later between earlier : List (κ × UInt64)),
      (run order maxSigners calls).2 = later ++ (s, q) :: (between ++ (s, q') :: earlier) →
        q ≤ q' → max maxSigners 1 ≤ (signersSince s between).card := by
  intro h
  have hfew := h ℕ HashOrder.asInserted 1 [(0, 5), (1, 1), (0, 3), (0, 4)] (by decide) 0 4 5 []
    [(0, 3), (1, 1)] [] (by decide) (by decide)
  exact absurd hfew (by decide)

end SequenceGuard

end Netsukuku
