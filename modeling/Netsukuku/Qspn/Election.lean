import Mathlib
import Netsukuku.Core.Contest
import Netsukuku.Qspn.Path

/-!
# Who wins among several paths

`winning_fingerprint` lets the fingerprint of each path challenge the winner so far.  A challenger
with the winner's own identity is passed over without a look at its seed, so the election is a
contest between identities and not a search for the eldest.

* `compareSeeds_eq` — seeds of one length compare lexicographically.
* `winningFingerprint_eq_elect` — the election as a contest.
* `winningFingerprint_perm_iff` — when its winner does not depend on the order of the paths.
-/

namespace Netsukuku

open Contest

/-- Seeds of one length compare lexicographically, unless they are equal. -/
lemma Fingerprint.compareSeeds_eq {mine theirs : List ℤ} (hlen : mine.length = theirs.length) :
    compareSeeds mine theirs =
      if mine = theirs then Outcome.fail .indistinguishableFingerprints
      else .ok (decide (mine < theirs)) := by
  induction mine generalizing theirs with
  | nil =>
      rw [List.length_eq_zero_iff.mp hlen.symm]
      rfl
  | cons m mine ih =>
      cases theirs with
      | nil => cases hlen
      | cons t theirs =>
          rw [compareSeeds]
          rcases lt_trichotomy m t with hlt | rfl | hgt
          · simp [hlt, hlt.ne, List.cons_lt_cons_iff]
          · simp [ih (Nat.succ.inj hlen)]
          · simp [hgt, hgt.not_gt, hgt.ne', List.cons_lt_cons_iff]

/-- Fingerprints of one aggregated level, with a claim in the seed for every level below. -/
structure Fingerprint.OfLevel {Id : Type} (level : ℕ) (fp : Fingerprint Id) : Prop where
  level_eq : fp.level = level
  length_seed : fp.eldershipsSeed.length = level

variable {level : ℕ} {f g : Fp} {paths : List NodePath}

namespace Fingerprint

lemma OfLevel.elderSeed_eq (h₀ : level ≠ 0) (hf : f.OfLevel level) (hg : g.OfLevel level) :
    f.elderSeed g =
      if f.eldershipsSeed = g.eldershipsSeed then Outcome.fail .indistinguishableFingerprints
      else .ok (decide (f.eldershipsSeed < g.eldershipsSeed)) := by
  rw [elderSeed, if_neg (hf.level_eq ▸ h₀), if_neg (not_not.mpr (hf.level_eq.trans hg.level_eq.symm)),
    compareSeeds_eq (hf.length_seed.trans hg.length_seed.symm)]

/-- The eldest is the one whose seed is lexicographically first. -/
lemma OfLevel.elderSeed_eq_true (h₀ : level ≠ 0) (hf : f.OfLevel level) (hg : g.OfLevel level) :
    f.elderSeed g = .ok true ↔ f.eldershipsSeed < g.eldershipsSeed := by
  rw [hf.elderSeed_eq h₀ hg]
  split_ifs with heq
  · simp [heq, Outcome.fail]
  · simp

lemma OfLevel.identityEq_iff (hf : f.OfLevel level) (hg : g.OfLevel level) :
    f.identityEq g = true ↔ f.id = g.id := by
  simp [identityEq, hf.level_eq, hg.level_eq]

end Fingerprint

/-- What the election goes by: the identity and the seed of a path's fingerprint. -/
def NodePath.fpId (np : NodePath) : List UInt8 := np.path.fingerprint.id

def NodePath.fpSeed (np : NodePath) : List ℤ := np.path.fingerprint.eldershipsSeed

/-- One challenge, among fingerprints of one level. -/
lemma electFingerprint_eq (h₀ : level ≠ 0) {p w : NodePath}
    (hp : p.path.fingerprint.OfLevel level) (hw : w.path.fingerprint.OfLevel level) :
    electFingerprint (some w.path.fingerprint) p.path.fingerprint =
      .ok (some (if outranks NodePath.fpId NodePath.fpSeed p w then p else w).path.fingerprint) := by
  rw [electFingerprint]
  by_cases hid : p.fpId = w.fpId
  · rw [if_pos ((hp.identityEq_iff hw).mpr hid), if_neg (by simp [outranks, hid])]
  · rw [if_neg (fun h => hid ((hp.identityEq_iff hw).mp h)), hp.elderSeed_eq h₀ hw]
    have hseed : ∀ q : NodePath, q.path.fingerprint.eldershipsSeed = q.fpSeed := fun _ => rfl
    rw [hseed, hseed]
    by_cases heq : p.fpSeed = w.fpSeed
    · simp [heq, outranks, Outcome.fail]
    · by_cases hlt : p.fpSeed < w.fpSeed
      · simp [heq, hlt, hid, outranks]
      · simp [heq, hlt, outranks]

/-- **The election is a contest between identities.** -/
lemma winningFingerprint_eq_elect (h₀ : level ≠ 0)
    (hlevel : ∀ p ∈ paths, p.path.fingerprint.OfLevel level) :
    winningFingerprint paths =
      .ok ((Contest.elect NodePath.fpId NodePath.fpSeed paths).map fun p => p.path.fingerprint) := by
  have hfold : ∀ {l : List NodePath} {w : NodePath}, w.path.fingerprint.OfLevel level →
      (∀ p ∈ l, p.path.fingerprint.OfLevel level) →
      l.foldlM (fun winner p => electFingerprint winner p.path.fingerprint)
          (some w.path.fingerprint) =
        .ok (some (winner (outranks NodePath.fpId NodePath.fpSeed) w l).path.fingerprint) := by
    intro l
    induction l with
    | nil => exact fun _ _ => rfl
    | cons p l ih =>
        intro w hw hl
        have hp := hl p List.mem_cons_self
        rw [List.foldlM_cons, electFingerprint_eq h₀ hp hw, Outcome.ok_bind, winner_cons]
        refine ih ?_ fun q hq => hl q (List.mem_cons_of_mem p hq)
        split_ifs
        · exact hp
        · exact hw
  cases paths with
  | nil => rfl
  | cons p paths =>
      have hp := hlevel p List.mem_cons_self
      rw [winningFingerprint, List.foldlM_cons]
      exact hfold hp fun q hq => hlevel q (List.mem_cons_of_mem p hq)

/-- Two elections return, with identity-equal winners or with none. -/
def SameWinner (a b : Outcome CommonError (Option Fp)) : Prop :=
  ∃ v w, a = .ok v ∧ b = .ok w ∧ Option.Rel (fun x y => x.identityEq y = true) v w

/-- Every path with one identity outranks every path with another: that of some path, if there is
any. -/
def Undisputed (paths : List NodePath) : Prop :=
  paths = [] ∨ ∃ e ∈ paths, ∀ p ∈ paths, p.path.fingerprint.id = e.path.fingerprint.id →
    ∀ q ∈ paths, q.path.fingerprint.id ≠ e.path.fingerprint.id →
      p.path.fingerprint.elderSeed q.path.fingerprint = .ok true

lemma undisputed_iff (h₀ : level ≠ 0) (hlevel : ∀ p ∈ paths, p.path.fingerprint.OfLevel level) :
    Undisputed paths ↔
      paths = [] ∨ ∃ e ∈ paths, Ahead NodePath.fpId NodePath.fpSeed e.fpId paths := by
  refine or_congr Iff.rfl (exists_congr fun e => and_congr_right fun _ => ?_)
  refine forall₂_congr fun p hp => imp_congr_right fun _ => forall₂_congr fun q hq =>
    imp_congr_right fun _ => ?_
  exact (hlevel p hp).elderSeed_eq_true h₀ (hlevel q hq)

/-- The same identity wins if and only if the elections end in paths of one identity. -/
lemma sameWinner_iff {v w : Option NodePath} (hv : ∀ x ∈ v, x.path.fingerprint.OfLevel level)
    (hw : ∀ x ∈ w, x.path.fingerprint.OfLevel level) :
    SameWinner (.ok (v.map fun p => p.path.fingerprint)) (.ok (w.map fun p => p.path.fingerprint))
      ↔ w.map NodePath.fpId = v.map NodePath.fpId := by
  unfold SameWinner
  cases v with
  | none =>
      cases w with
      | none => exact iff_of_true ⟨none, none, rfl, rfl, .none⟩ rfl
      | some y =>
          refine iff_of_false ?_ (by simp)
          rintro ⟨_, _, ⟨⟩, ⟨⟩, ⟨⟩⟩
  | some x =>
      cases w with
      | none =>
          refine iff_of_false ?_ (by simp)
          rintro ⟨_, _, ⟨⟩, ⟨⟩, ⟨⟩⟩
      | some y =>
          constructor
          · rintro ⟨_, _, ⟨⟩, ⟨⟩, hrel⟩
            cases hrel with
            | some hid => exact congrArg some (((hv x rfl).identityEq_iff (hw y rfl)).mp hid).symm
          · intro hid
            have hid' := ((hv x rfl).identityEq_iff (hw y rfl)).mpr (Option.some.inj hid).symm
            exact ⟨_, _, rfl, rfl, .some hid'⟩

/-- **When the winner does not depend on the order of the paths**: exactly if one identity is
undisputed.  The fingerprints have one aggregated level, and different identities never tie. -/
theorem winningFingerprint_perm_iff (h₀ : level ≠ 0)
    (hlevel : ∀ p ∈ paths, p.path.fingerprint.OfLevel level)
    (hties : ∀ p ∈ paths, ∀ q ∈ paths, p.path.fingerprint.id ≠ q.path.fingerprint.id →
      p.path.fingerprint.eldershipsSeed ≠ q.path.fingerprint.eldershipsSeed) :
    (∀ paths', paths.Perm paths' →
      SameWinner (winningFingerprint paths) (winningFingerprint paths')) ↔ Undisputed paths := by
  have hof : ∀ {ps : List NodePath}, (∀ p ∈ ps, p.path.fingerprint.OfLevel level) →
      ∀ x ∈ Contest.elect NodePath.fpId NodePath.fpSeed ps, x.path.fingerprint.OfLevel level := by
    intro ps hps x hx
    cases ps with
    | nil => cases hx
    | cons p ps =>
        obtain rfl := Option.some.inj hx
        exact hps _ winner_mem
  have hkeys : ∀ p ∈ paths, ∀ q ∈ paths, p.fpId ≠ q.fpId → p.fpSeed ≠ q.fpSeed := hties
  rw [undisputed_iff h₀ hlevel, ← elect_perm_iff hkeys]
  refine forall₂_congr fun paths' hperm => ?_
  have hlevel' : ∀ p ∈ paths', p.path.fingerprint.OfLevel level := fun p hp =>
    hlevel p (hperm.mem_iff.mpr hp)
  rw [winningFingerprint_eq_elect h₀ hlevel, winningFingerprint_eq_elect h₀ hlevel',
    sameWinner_iff (hof hlevel) (hof hlevel')]

/-! ## Three paths to one g-node -/

namespace ElectionExample

/-- A path with an identity and a claim. -/
def claiming (id : UInt8) (claim : ℤ) : NodePath :=
  .new ⟨1⟩ ⟨[⟨1, 0⟩], [⟨1⟩], .null, ⟨[id], 1, 0, [], [claim]⟩, 1, [false]⟩

end ElectionExample

open ElectionExample

theorem winningFingerprint_perm_two :
    SameWinner (winningFingerprint [claiming 0 5, claiming 1 3])
      (winningFingerprint [claiming 1 3, claiming 0 5]) := by
  refine (@winningFingerprint_perm_iff 1 [claiming 0 5, claiming 1 3]
    one_ne_zero ?_ (by decide)).mpr ?_ _ (List.Perm.swap _ _ _)
  · simp only [List.forall_mem_cons]
    exact ⟨⟨rfl, rfl⟩, ⟨rfl, rfl⟩, by simp⟩
  · exact .inr ⟨claiming 1 3, by simp, by decide⟩

/-- Two paths of one identity around one of another: whether the younger of the two has been passed
over when the other comes decides the election. -/
theorem not_winningFingerprint_perm :
    ∃ paths paths' : List NodePath, paths.Perm paths' ∧
      (∀ p ∈ paths, p.path.fingerprint.level = 1 ∧ p.path.fingerprint.eldershipsSeed.length = 1) ∧
      (∀ p ∈ paths, ∀ q ∈ paths, p.path.fingerprint.id ≠ q.path.fingerprint.id →
        p.path.fingerprint.eldershipsSeed ≠ q.path.fingerprint.eldershipsSeed) ∧
      ¬SameWinner (winningFingerprint paths) (winningFingerprint paths') := by
  refine ⟨[claiming 0 5, claiming 1 3, claiming 0 1], [claiming 0 5, claiming 0 1, claiming 1 3],
    (List.Perm.swap _ _ _).cons _, by decide, by decide, ?_⟩
  rintro ⟨v, w, hv, hw, hrel⟩
  obtain rfl : some (claiming 0 1).path.fingerprint = v := Except.ok.inj hv
  obtain rfl : some (claiming 1 3).path.fingerprint = w := Except.ok.inj hw
  cases hrel with
  | some hid => exact absurd hid (by decide)

end Netsukuku
