import Mathlib
import Netsukuku.Common.Address

/-!
# Fingerprints

A fingerprint identifies a g-node and carries the eldership claims that decide which of two
competing halves of a split g-node is the original one.  A node starts from its own level-0
fingerprint and climbs: `construct` aggregates the fingerprints of the siblings at one level into
the fingerprint of the g-node above, consuming one pending eldership.

Eldership claims are `u32` values widened to `i64`, with `-1` for a virtual claim; they are
never added, so an integer models them exactly.  Outside the type a claim is an optional `u32`
(`FingerprintParts`), and `fromParts` takes only what has one claim for each level aggregated.
-/

namespace Netsukuku

/-- A g-node's identity and eldership record. -/
structure Fingerprint (Id : Type) where
  id : Id
  level : ℕ
  eldership : ℤ
  pendingElderships : List UInt32
  eldershipsSeed : List ℤ
  deriving DecidableEq, Repr

namespace Fingerprint

variable {Id : Type}

/-- `Fingerprint::new`: a level-0 fingerprint. -/
def new (id : Id) (eldership : UInt32) (pendingElderships : List UInt32) : Fingerprint Id :=
  ⟨id, 0, eldership.toNat, pendingElderships, []⟩

/-- A candidate claim deposes the current one: never a virtual claim, and ties favour the
candidate. -/
def elderClaimOutranks (candidate current : ℤ) : Bool :=
  if candidate = -1 then false else decide (candidate ≤ current)

/-- The champion race of `construct`: claim, identity and seed of the eldest so far. -/
def champion (siblings : List (Fingerprint Id)) (start : ℤ × Id × List ℤ) : ℤ × Id × List ℤ :=
  siblings.foldl (fun best f =>
    if elderClaimOutranks f.eldership best.1 then (f.eldership, f.id, f.eldershipsSeed)
    else best) start

/-- Aggregates this fingerprint with its siblings into the one of the g-node above. -/
def construct (self : Fingerprint Id) (siblings : List (Fingerprint Id))
    (isNullEldership : Bool) : Outcome CommonError (Fingerprint Id) :=
  match self.pendingElderships with
  | [] => Outcome.fail .topOfHierarchy
  | nextEldership :: rest =>
      let myClaim : ℤ := if isNullEldership then -1 else self.eldership
      let best := champion siblings (myClaim, self.id, self.eldershipsSeed)
      .ok {
        id := best.2.1
        level := self.level + 1
        eldership := nextEldership.toNat
        pendingElderships := rest
        eldershipsSeed := best.1 :: best.2.2 }

/-- The first difference between two eldership seeds decides; none is an error. -/
def compareSeeds : List ℤ → List ℤ → Outcome CommonError Bool
  | mine :: ms, theirs :: ts =>
      if mine < theirs then .ok true
      else if theirs < mine then .ok false
      else compareSeeds ms ts
  | _, _ => Outcome.fail .indistinguishableFingerprints

/-- True if `self` outranks `other`. -/
def elderSeed (self other : Fingerprint Id) : Outcome CommonError Bool :=
  if self.level = 0 then Outcome.fail .fingerprintBaseLevel
  else if self.level ≠ other.level then
    Outcome.fail (.fingerprintLevelMismatch self.level other.level)
  else compareSeeds self.eldershipsSeed other.eldershipsSeed

section Identity

variable [DecidableEq Id]

/-- Two fingerprints name the same g-node. -/
def identityEq (self other : Fingerprint Id) : Bool :=
  decide (self.level = other.level) && decide (self.id = other.id)

/-- Two fingerprints stand for the same branch of a destination: same identity, or seeds that
cannot be ordered while both sides count more than one member. -/
def sameBranch (self other : Fingerprint Id) (selfNodesInside otherNodesInside : UInt32) : Bool :=
  self.identityEq other ||
    (decide (1 < selfNodesInside.toNat) && decide (1 < otherNodesInside.toNat) &&
      decide (self.elderSeed other = Outcome.fail .indistinguishableFingerprints))

@[simp] lemma identityEq_self (f : Fingerprint Id) : f.identityEq f = true := by
  simp [identityEq]

lemma sameBranch_self (f : Fingerprint Id) (m n : UInt32) : f.sameBranch f m n = true := by
  simp [sameBranch]

end Identity

/-! ## When the operations return -/

lemma level_of_construct {f g : Fingerprint Id} {siblings : List (Fingerprint Id)} {b : Bool}
    (h : f.construct siblings b = .ok g) :
    g.level = f.level + 1 ∧ f.pendingElderships.length = g.pendingElderships.length + 1 := by
  unfold construct at h
  cases hp : f.pendingElderships with
  | nil => rw [hp] at h; cases h
  | cons e rest =>
      rw [hp] at h
      cases h
      simp

/-- Climbing succeeds while a pending eldership is left. -/
lemma exists_construct {f : Fingerprint Id} (h : 0 < f.pendingElderships.length)
    (siblings : List (Fingerprint Id)) (b : Bool) : ∃ g, f.construct siblings b = .ok g := by
  unfold construct
  cases hp : f.pendingElderships with
  | nil => rw [hp] at h; cases h
  | cons e rest => exact ⟨_, rfl⟩

lemma compareSeeds_total (ms : List ℤ) :
    ∀ ts, (∃ b, compareSeeds ms ts = .ok b) ∨
      compareSeeds ms ts = Outcome.fail .indistinguishableFingerprints := by
  induction ms with
  | nil => exact fun _ => Or.inr rfl
  | cons m ms ih =>
      intro ts
      cases ts with
      | nil => exact Or.inr rfl
      | cons t ts =>
          rw [compareSeeds]
          split_ifs
          · exact Or.inl ⟨true, rfl⟩
          · exact Or.inl ⟨false, rfl⟩
          · exact ih ts

/-- Between two aggregated fingerprints of one level, `elderSeed` orders them or reports a tie. -/
lemma elderSeed_total {f g : Fingerprint Id} (h₀ : f.level ≠ 0) (h : f.level = g.level) :
    (∃ b, f.elderSeed g = .ok b) ∨
      f.elderSeed g = Outcome.fail .indistinguishableFingerprints := by
  rw [elderSeed, if_neg h₀, if_neg (not_not.mpr h)]
  exact compareSeeds_total _ _

end Fingerprint

/-! ## Parts -/

/-- Every field of a fingerprint, with `none` for a virtual claim. -/
structure FingerprintParts (Id : Type) where
  id : Id
  level : ℕ
  eldership : Option UInt32
  pendingElderships : List UInt32
  eldershipsSeed : List (Option UInt32)
  deriving DecidableEq

namespace Fingerprint

variable {Id : Type} {f : Fingerprint Id} {parts : FingerprintParts Id}

def eldershipToOption (raw : ℤ) : Option UInt32 :=
  if 0 ≤ raw ∧ raw < 2 ^ 32 then some (UInt32.ofNat raw.toNat) else none

def eldershipFromOption : Option UInt32 → ℤ
  | some value => value.toNat
  | none => -1

def toParts (f : Fingerprint Id) : FingerprintParts Id where
  id := f.id
  level := f.level
  eldership := eldershipToOption f.eldership
  pendingElderships := f.pendingElderships
  eldershipsSeed := f.eldershipsSeed.map eldershipToOption

/-- `Fingerprint::from_parts`: one seed entry for each level. -/
def fromParts (parts : FingerprintParts Id) : Outcome CommonError (Fingerprint Id) :=
  if parts.eldershipsSeed.length ≠ parts.level then
    Outcome.fail (.fingerprintSeedLength parts.level parts.eldershipsSeed.length)
  else
    .ok {
      id := parts.id
      level := parts.level
      eldership := eldershipFromOption parts.eldership
      pendingElderships := parts.pendingElderships
      eldershipsSeed := parts.eldershipsSeed.map eldershipFromOption }

/-- A claim there is a `u32` or nothing for. -/
def IsClaim (raw : ℤ) : Prop := ∃ value, eldershipFromOption value = raw

@[simp] lemma eldershipToOption_fromOption (value : Option UInt32) :
    eldershipToOption (eldershipFromOption value) = value := by
  cases value with
  | none => rfl
  | some v =>
      have hv := v.toNat_lt
      simp only [eldershipFromOption, eldershipToOption, Int.toNat_natCast, UInt32.ofNat_toNat]
      rw [if_pos (by omega)]

lemma eldershipFromOption_toOption {raw : ℤ} (h : IsClaim raw) :
    eldershipFromOption (eldershipToOption raw) = raw := by
  obtain ⟨value, rfl⟩ := h
  rw [eldershipToOption_fromOption]

lemma isClaim_natCast (v : UInt32) : IsClaim v.toNat := ⟨some v, rfl⟩

lemma isClaim_null : IsClaim (-1) := ⟨none, rfl⟩

/-- One claim for each level that was aggregated. -/
structure Valid (f : Fingerprint Id) : Prop where
  seedLength : f.eldershipsSeed.length = f.level
  eldership : IsClaim f.eldership
  seed : ∀ raw ∈ f.eldershipsSeed, IsClaim raw

/-- **A valid fingerprint is the one its parts make.** -/
lemma Valid.fromParts_toParts (h : f.Valid) : fromParts f.toParts = .ok f := by
  have hseed : (f.eldershipsSeed.map eldershipToOption).map eldershipFromOption =
      f.eldershipsSeed := by
    rw [List.map_map]
    exact (List.map_congr_left fun raw hraw =>
      eldershipFromOption_toOption (h.seed raw hraw)).trans (List.map_id _)
  rw [fromParts, toParts, if_neg (by simp [h.seedLength])]
  simp only [hseed, eldershipFromOption_toOption h.eldership]

/-- What parts make is valid. -/
lemma valid_of_fromParts (h : fromParts parts = .ok f) : f.Valid := by
  rw [fromParts] at h
  split_ifs at h with hlength
  · cases h
  · cases h
    refine ⟨by simpa using hlength, ⟨_, rfl⟩, fun raw hraw => ?_⟩
    obtain ⟨value, -, rfl⟩ := List.mem_map.mp hraw
    exact ⟨value, rfl⟩

end Fingerprint

end Netsukuku
