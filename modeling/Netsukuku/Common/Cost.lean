import Mathlib

/-!
# Path costs

`Cost` is the metric an ETP accumulates: `Null` for the zero-cost path to a direct neighbour, a
`u64` in between, and `Dead` for a withdrawn path.  The order is the declaration order of the
three variants, so every withdrawn path sorts behind every live one.
-/

namespace Netsukuku

/-- The cost of a path or of an arc. -/
inductive Cost where
  | null
  | finite (v : UInt64)
  | dead
  deriving DecidableEq, Repr

namespace Cost

def isDead : Cost → Bool
  | dead => true
  | _ => false

/-- Where the derived order puts a cost. -/
def rank : Cost → ℕ
  | null => 0
  | finite v => v.toNat + 1
  | dead => 2 ^ 64 + 1

lemma rank_injective : Function.Injective rank := by
  intro a b h
  cases a with
  | null =>
      cases b with
      | null => rfl
      | finite w => simp [rank] at h
      | dead => simp [rank] at h
  | finite v =>
      have hv := v.toNat_lt
      cases b with
      | null => simp [rank] at h
      | finite w =>
          simp only [rank, Nat.add_right_cancel_iff] at h
          rw [UInt64.toNat_inj.mp h]
      | dead => simp only [rank] at h; omega
  | dead =>
      cases b with
      | null => simp [rank] at h
      | finite w =>
          have hw := w.toNat_lt
          simp only [rank] at h
          omega
      | dead => rfl

instance : LinearOrder Cost := LinearOrder.lift' rank rank_injective

/-- `saturating_add`: `Dead` absorbs, `Null` is neutral, finite costs saturate at `u64::MAX`. -/
def saturatingAdd : Cost → Cost → Cost
  | dead, _ => dead
  | _, dead => dead
  | null, x => x
  | x, null => x
  | finite a, finite b => finite (UInt64.ofNat (min (a.toNat + b.toNat) (2 ^ 64 - 1)))

lemma isDead_iff {c : Cost} : c.isDead = true ↔ c = dead := by cases c <;> simp [isDead]

@[simp] lemma saturatingAdd_dead (c : Cost) : c.saturatingAdd dead = dead := by cases c <;> rfl

@[simp] lemma dead_saturatingAdd (c : Cost) : dead.saturatingAdd c = dead := by cases c <;> rfl

/-- A sum is dead exactly when one of the summands is. -/
lemma saturatingAdd_eq_dead {a b : Cost} : a.saturatingAdd b = dead ↔ a = dead ∨ b = dead := by
  cases a <;> cases b <;> simp [saturatingAdd]

end Cost

end Netsukuku
