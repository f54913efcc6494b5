import Mathlib
import Netsukuku.Core.MixedRadix
import Netsukuku.PeerServices.TupleSpec

/-!
# The distance from a target

`dist` reads one circular digit per level by Horner's rule, so it is a mixed-radix value.  As long
as the topology has at most `2 ^ 128` addresses it cannot overflow, and it is a quasi-metric: two
nodes are at distance zero only if they are the same, no two are equally far from a third, and a
detour is never shorter.  It is not symmetric.

* `Topology.maxNodes` — how many addresses there are, if a `u128` can hold it.
* `dist_eq_value` — the distance as a mixed-radix value.
* `dist_quasiMetric` — what follows for the distance.
-/

namespace Netsukuku

open MixedRadix

namespace Topology

/-- `max_nodes`: the product of the g-node sizes, if it does not overflow. -/
def maxNodes (t : Topology) : Option ℕ :=
  t.gsizes.foldlM (fun acc g => if acc * g.toNat < 2 ^ 128 then some (acc * g.toNat) else none) 1

/-- The radix of a level; above the topology there is none. -/
def radix (t : Topology) (level : ℕ) : ℕ := (t.gsizes.getD level 1).toNat

lemma radix_eq {t : Topology} {level : ℕ} {g : UInt32} (h : t.gsize level = some g) :
    t.radix level = g.toNat := by
  rw [radix, List.getD_eq_getElem?_getD, show t.gsizes[level]? = some g from h, Option.getD_some]

lemma radix_pos (t : Topology) (level : ℕ) : 0 < t.radix level := by
  rw [radix, List.getD_eq_getElem?_getD]
  cases h : t.gsizes[level]? with
  | none => decide
  | some g => exact t.gsize_pos g (List.mem_of_getElem? h)

/-- The sizes of the first levels, multiplied. -/
lemma prod_radix (t : Topology) {n : ℕ} (hn : n ≤ t.levels) :
    ∏ i ∈ Finset.range n, t.radix i = ((t.gsizes.take n).map UInt32.toNat).prod := by
  induction n with
  | zero => rfl
  | succ n ih =>
      have hlt : n < t.gsizes.length := hn
      rw [Finset.prod_range_succ, ih (Nat.le_of_succ_le hn), List.take_succ_eq_append_getElem hlt,
        List.map_append, List.prod_append]
      simp [radix, hlt]

lemma foldlM_checkedMul {l : List UInt32} {acc n : ℕ} (hacc : acc < 2 ^ 128)
    (h : l.foldlM (fun acc g => if acc * g.toNat < 2 ^ 128 then some (acc * g.toNat) else none) acc
      = some n) : n = acc * (l.map UInt32.toNat).prod ∧ n < 2 ^ 128 := by
  induction l generalizing acc with
  | nil =>
      obtain rfl := Option.some.inj h
      exact ⟨by simp, hacc⟩
  | cons g l ih =>
      rw [List.foldlM_cons] at h
      split_ifs at h with hlt
      · obtain ⟨heq, hbound⟩ := ih hlt h
        refine ⟨?_, hbound⟩
        rw [heq, List.map_cons, List.prod_cons, mul_assoc]
      · cases h

/-- The addresses of the first levels are no more than those of all. -/
lemma prod_radix_lt {t : Topology} {max n : ℕ} (hmax : t.maxNodes = some max) (hn : n ≤ t.levels) :
    ∏ i ∈ Finset.range n, t.radix i < 2 ^ 128 := by
  obtain ⟨heq, hlt⟩ := foldlM_checkedMul (by norm_num) hmax
  have hdrop : 1 ≤ ((t.gsizes.drop n).map UInt32.toNat).prod := by
    refine List.one_le_prod_of_one_le fun size hsize => ?_
    obtain ⟨g, hg, rfl⟩ := List.mem_map.mp hsize
    exact t.gsize_pos g (List.mem_of_mem_drop hg)
  calc ∏ i ∈ Finset.range n, t.radix i
      = ((t.gsizes.take n).map UInt32.toNat).prod := t.prod_radix hn
    _ ≤ ((t.gsizes.take n).map UInt32.toNat).prod * ((t.gsizes.drop n).map UInt32.toNat).prod :=
        Nat.le_mul_of_pos_right _ hdrop
    _ = max := by
        rw [← List.prod_append, ← List.map_append, List.take_append_drop, heq, one_mul]
    _ < 2 ^ 128 := hlt

end Topology

/-- The position of a node at a level, as a digit. -/
def TupleNode.digit (x : TupleNode) (level : ℕ) : ℕ := (x.positions.getD level 0).toNat

variable {t : Topology} {a b c : TupleNode}

lemma TupleNode.digit_lt (ha : a.topology = t) {i : ℕ} (hi : i < a.top) : a.digit i < t.radix i := by
  obtain ⟨g, hg, hlt⟩ := a.inRange i _ (List.getElem?_eq_getElem hi)
  rw [Nat.zero_add, ha] at hg
  rw [Topology.radix_eq hg, digit, List.getD_eq_getElem _ _ hi]
  exact hlt

/-- A node is its digits. -/
lemma TupleNode.ext_digit (ha : a.topology = t) (hb : b.topology = t) (htop : a.top = b.top)
    (h : ∀ i < a.top, a.digit i = b.digit i) : a = b := by
  refine TupleNode.ext (ha.trans hb.symm) (List.ext_getElem htop fun i hi hi' => ?_)
  have hdigit := h i hi
  rw [digit, digit, List.getD_eq_getElem _ _ hi, List.getD_eq_getElem _ _ hi'] at hdigit
  exact UInt32.toNat_inj.mp hdigit

/-- The digit of a distance at a level. -/
def distanceDigit (t : Topology) (a b : TupleNode) (level : ℕ) : ℕ :=
  circular (t.radix level) (a.digit level) (b.digit level)

lemma distanceDigit_lt (ha : a.topology = t) (hb : b.topology = t) (htop : a.top = b.top) :
    ∀ i < a.top, distanceDigit t a b i < t.radix i := fun _ hi =>
  circular_lt (a.digit_lt ha hi) (b.digit_lt hb (htop ▸ hi))

/-- One level of `dist` reads one digit. -/
lemma distStep_eq (ha : a.topology = t) (htop : a.top = b.top)
    {distance level : ℕ} (hlevel : level < a.top)
    (hfits : distance * t.radix level + distanceDigit t a b level < 2 ^ 128) :
    distStep t a b distance level
      = .ok (distance * t.radix level + distanceDigit t a b level) := by
  obtain ⟨g, hg, hlt⟩ := a.inRange level _ (List.getElem?_eq_getElem hlevel)
  rw [Nat.zero_add, ha] at hg
  have hlevel' : level < b.positions.length := lt_of_lt_of_eq hlevel htop
  have hradix := Topology.radix_eq hg
  have hda : a.digit level = a.positions[level].toNat :=
    congrArg UInt32.toNat (List.getD_eq_getElem _ _ hlevel)
  have hdb : b.digit level = b.positions[level].toNat :=
    congrArg UInt32.toNat (List.getD_eq_getElem _ _ hlevel')
  have hdigit : distDigit g.toNat b.positions[level].toNat a.positions[level].toNat
      = .ok (distanceDigit t a b level) := by
    rw [distDigit, distanceDigit, circular, hradix, hda, hdb]
    split_ifs with hle
    · rfl
    · exact Outcome.checkedSub_of_le (by omega)
  rw [hradix] at hfits ⊢
  rw [distStep, hg, Outcome.expect_some, Outcome.ok_bind, Outcome.index_of_lt hlevel',
    Outcome.ok_bind, Outcome.index_of_lt hlevel, Outcome.ok_bind, hdigit, Outcome.ok_bind,
    Outcome.checkedMul_of_lt (by omega), Outcome.ok_bind, Outcome.checkedAdd_of_lt hfits]

/-- The loop of `dist` is Horner's rule, as long as what can still be read fits. -/
lemma foldlM_distStep (ha : a.topology = t) (hb : b.topology = t) (htop : a.top = b.top)
    {n distance : ℕ} (hn : n ≤ a.top)
    (hfits : (distance + 1) * ∏ i ∈ Finset.range n, t.radix i ≤ 2 ^ 128) :
    (List.range n).reverse.foldlM (distStep t a b) distance
      = .ok (horner t.radix (distanceDigit t a b) n distance) := by
  induction n generalizing distance with
  | zero => rfl
  | succ n ih =>
      have hlt : distanceDigit t a b n < t.radix n := distanceDigit_lt ha hb htop n hn
      have hprod : 1 ≤ ∏ i ∈ Finset.range n, t.radix i :=
        Finset.prod_pos fun i _ => t.radix_pos i
      have hnext : distance * t.radix n + distanceDigit t a b n + 1 ≤ (distance + 1) * t.radix n := by
        rw [Nat.succ_mul]
        omega
      rw [Finset.prod_range_succ, mul_comm _ (t.radix n), ← mul_assoc] at hfits
      have hstep : (distance * t.radix n + distanceDigit t a b n + 1)
          * ∏ i ∈ Finset.range n, t.radix i ≤ 2 ^ 128 :=
        (Nat.mul_le_mul_right _ hnext).trans hfits
      have hword : distance * t.radix n + distanceDigit t a b n < 2 ^ 128 :=
        lt_of_lt_of_le (Nat.lt_succ_self _) ((Nat.le_mul_of_pos_right _ hprod).trans hstep)
      rw [List.range_succ, List.reverse_append, List.reverse_singleton, List.singleton_append,
        List.foldlM_cons, distStep_eq ha htop hn hword, Outcome.ok_bind, horner]
      exact ih (Nat.le_of_succ_le hn) hstep

/-- **The distance is a mixed-radix value**, computed without overflow. -/
lemma dist_eq_value {max : ℕ} (hmax : t.maxNodes = some max) (ha : a.topology = t)
    (hb : b.topology = t) (htop : a.top = b.top) :
    dist t a b = .ok (value t.radix (distanceDigit t a b) a.top) := by
  have hle : a.top ≤ t.levels := ha ▸ a.top_le
  have hfits : (0 + 1) * ∏ i ∈ Finset.range a.top, t.radix i ≤ 2 ^ 128 := by
    rw [Nat.zero_add, Nat.one_mul]
    exact (Topology.prod_radix_lt hmax hle).le
  rw [dist, decide_eq_true htop, Outcome.assert_true, Outcome.ok_bind, ← htop,
    foldlM_distStep ha hb htop (le_refl _) hfits]
  rfl

/-- **The distance is an injective quasi-metric.**  Between nodes that span the same levels it is
computed, stays below the number of addresses of those levels, is zero only from a node to itself,
tells nodes apart, and is never longer than a detour. -/
theorem dist_quasiMetric {max : ℕ} (hmax : t.maxNodes = some max) (ha : a.topology = t)
    (hb : b.topology = t) (hc : c.topology = t) (hab : a.top = b.top) (hac : a.top = c.top) :
    ∃ ab ac bc, dist t a b = .ok ab ∧ dist t a c = .ok ac ∧ dist t b c = .ok bc ∧
      ab < ((t.gsizes.take a.top).map UInt32.toNat).prod ∧ (ab = 0 ↔ a = b) ∧
      (ab = ac → b = c) ∧ ac ≤ ab + bc := by
  have hbc : b.top = c.top := hab.symm.trans hac
  have hlt : ∀ i < a.top, distanceDigit t a b i < t.radix i := distanceDigit_lt ha hb hab
  have hlt' : ∀ i < a.top, distanceDigit t a c i < t.radix i := distanceDigit_lt ha hc hac
  refine ⟨_, _, _, dist_eq_value hmax ha hb hab, dist_eq_value hmax ha hc hac,
    dist_eq_value hmax hb hc hbc, ?_, ?_, fun heq => ?_, ?_⟩
  · rw [← t.prod_radix (ha ▸ a.top_le)]
    simpa [value] using horner_lt_mul (a := 0) (b := 1) hlt Nat.zero_lt_one
  · rw [value_eq_zero_iff hlt]
    constructor
    · intro hzero
      refine TupleNode.ext_digit ha hb hab fun i hi => ?_
      exact (circular_eq_zero_iff (a.digit_lt ha hi)).mp (hzero i hi)
    · rintro rfl i hi
      exact (circular_eq_zero_iff (a.digit_lt ha hi)).mpr rfl
  · refine TupleNode.ext_digit hb hc hbc fun i hi => ?_
    have hi' : i < a.top := hab ▸ hi
    exact (circular_inj (a.digit_lt ha hi') (b.digit_lt hb hi) (c.digit_lt hc (hbc ▸ hi))).mp
      (value_injective hlt hlt' heq i hi')
  · rw [← hab]
    refine horner_le_add (fun i hi => ?_) (le_refl _)
    exact circular_le_add (a.digit_lt ha hi) (b.digit_lt hb (hab ▸ hi))

/-- Two levels of four. -/
def twoLevels : Topology := ⟨[4, 4], by simp, by simp⟩

/-- The tuple that spans both levels. -/
def twoLevelsNode (pos : List UInt32) (h : checkPositions "" twoLevels 0 pos = .ok ()) :
    TupleNode :=
  ⟨twoLevels, pos, checkPositions_eq_ok.mp h⟩

theorem dist_quasiMetric_twoLevels :
    ∃ ab ac bc, dist twoLevels (twoLevelsNode [0, 1] rfl) (twoLevelsNode [3, 0] rfl) = .ok ab ∧
      dist twoLevels (twoLevelsNode [0, 1] rfl) (twoLevelsNode [2, 2] rfl) = .ok ac ∧
      dist twoLevels (twoLevelsNode [3, 0] rfl) (twoLevelsNode [2, 2] rfl) = .ok bc ∧
      ab < 16 ∧ ac ≤ ab + bc := by
  obtain ⟨ab, ac, bc, hab, hac, hbc, hlt, -, -, htriangle⟩ :=
    @dist_quasiMetric twoLevels (twoLevelsNode [0, 1] rfl) (twoLevelsNode [3, 0] rfl)
      (twoLevelsNode [2, 2] rfl) 16 rfl rfl rfl rfl rfl rfl
  exact ⟨ab, ac, bc, hab, hac, hbc, hlt, htriangle⟩

end Netsukuku
