import Mathlib
import Netsukuku.Core.Outcome

/-!
# Hierarchical addresses

A network is cut into nested groups (g-nodes).  A `Topology` fixes how many levels there are and
how many g-nodes a g-node of each level has room for; an address (`Naddr`) is one position per
level, level 0 innermost.  A node names another node, or a g-node it is not part of, by an
`HCoord`: the level at which the two addresses part and the position the other one holds there.

* `Naddr.hcoord` — that coordinate, computed by scanning the levels from the top.
* `hcoord_eq_some` — what the computed coordinate says about the two addresses; the rest of the
  development reads `hcoord` through it.

Positions are `u32`.  A position at or above its level's g-node size is *virtual*: it names a
reserved slot, and an address that came off the wire may carry one.
-/

namespace Netsukuku

/-- The errors of the shared address and fingerprint types. -/
inductive CommonError where
  | emptyTopology
  | zeroGsize (level : ℕ)
  | levelCountMismatch (expected actual : ℕ)
  | positionOutOfRange (level : ℕ) (pos gsize : UInt32)
  | levelOutOfRange (level levels : ℕ)
  | topologyMismatch
  | fingerprintBaseLevel
  | fingerprintLevelMismatch (selfLevel otherLevel : ℕ)
  | indistinguishableFingerprints
  | topOfHierarchy
  | fingerprintSeedLength (level seedLen : ℕ)
  deriving DecidableEq, Repr

/-- The coordinate of a g-node: its level and its position there. -/
structure HCoord where
  level : ℕ
  pos : UInt32
  deriving DecidableEq, Repr

/-- By level, then by position. -/
instance : LinearOrder HCoord :=
  LinearOrder.lift' (fun h => toLex (h.level, h.pos.toNat)) fun a b h => by
    obtain ⟨l, p⟩ := a
    obtain ⟨l', p'⟩ := b
    obtain ⟨rfl, hp⟩ := Prod.mk.inj (toLex.injective h)
    exact congrArg (HCoord.mk l) (UInt32.toNat_inj.mp hp)

/-- The shape of a network: one g-node size per level, none of them zero. -/
structure Topology where
  gsizes : List UInt32
  nonempty : gsizes ≠ []
  gsize_pos : ∀ g ∈ gsizes, 0 < g.toNat
  deriving DecidableEq

namespace Topology

/-- `Topology::new`. -/
def new (gsizes : List UInt32) : Outcome CommonError Topology :=
  if hne : gsizes = [] then Outcome.fail .emptyTopology
  else
    if hpos : ∀ g ∈ gsizes, 0 < g.toNat then .ok ⟨gsizes, hne, hpos⟩
    else Outcome.fail (.zeroGsize (gsizes.findIdx (· = 0)))

def levels (t : Topology) : ℕ := t.gsizes.length

def gsize (t : Topology) (level : ℕ) : Option UInt32 := t.gsizes[level]?

lemma levels_pos (t : Topology) : 0 < t.levels := List.length_pos_of_ne_nil t.nonempty

lemma exists_gsize {t : Topology} {level : ℕ} (h : level < t.levels) :
    ∃ g, t.gsize level = some g :=
  ⟨t.gsizes[level], List.getElem?_eq_getElem h⟩

end Topology

/-- An address: one position per level of its topology. -/
structure Naddr where
  topology : Topology
  positions : List UInt32
  length_positions : positions.length = topology.levels
  deriving DecidableEq

namespace Naddr

/-- `Naddr::new`: every position must be real. -/
def new (topology : Topology) (positions : List UInt32) : Outcome CommonError Naddr :=
  if h : positions.length = topology.levels then
    match ((positions.zip topology.gsizes).zipIdx.find? fun e => e.1.2.toNat ≤ e.1.1.toNat) with
    | some ((p, g), level) => Outcome.fail (.positionOutOfRange level p g)
    | none => .ok ⟨topology, positions, h⟩
  else Outcome.fail (.levelCountMismatch topology.levels positions.length)

/-- `Naddr::new_allowing_virtual`: only the number of positions is checked. -/
def newAllowingVirtual (topology : Topology) (positions : List UInt32) :
    Outcome CommonError Naddr :=
  if h : positions.length = topology.levels then .ok ⟨topology, positions, h⟩
  else Outcome.fail (.levelCountMismatch topology.levels positions.length)

def levels (n : Naddr) : ℕ := n.positions.length

def pos (n : Naddr) (level : ℕ) : Option UInt32 := n.positions[level]?

/-- True if the position at `level` is virtual; `none` if there is no such level. -/
def isVirtualAt (n : Naddr) (level : ℕ) : Option Bool := do
  let p ← n.pos level
  let gsize ← n.topology.gsize level
  pure (decide (gsize.toNat ≤ p.toNat))

/-- True if any level holds a virtual position. -/
def isVirtual (n : Naddr) : Bool :=
  (List.range n.levels).any fun level => n.isVirtualAt level == some true

/-- Every position is real. -/
def IsReal (n : Naddr) : Prop := ∀ level < n.topology.levels, n.isVirtualAt level = some false

instance (n : Naddr) : Decidable n.IsReal := inferInstanceAs (Decidable (∀ _ < _, _))

/-- `is_inside`: the position at the level of `hc` is the one it names. -/
def isInside (n : Naddr) (hc : HCoord) : Outcome CommonError Bool :=
  match n.pos hc.level with
  | some p => .ok (decide (p = hc.pos))
  | none => Outcome.fail (.levelOutOfRange hc.level n.levels)

/-- The scan of `hcoord`, from level `l - 1` down to 0. -/
def divergence (mine theirs : List UInt32) : ℕ → Option HCoord
  | 0 => none
  | l + 1 =>
      if mine[l]? = theirs[l]? then divergence mine theirs l
      else theirs[l]?.map fun p => ⟨l, p⟩

/-- The coordinate of `dest` as seen from `self`: the highest level at which the two addresses
differ, and the position `dest` holds there.  `none` if they are the same address. -/
def hcoord (self dest : Naddr) : Outcome CommonError (Option HCoord) :=
  if self.topology = dest.topology then
    .ok (divergence self.positions dest.positions self.positions.length)
  else Outcome.fail .topologyMismatch

/-! ## Reading the coordinate -/

lemma pos_eq_none {n : Naddr} {l : ℕ} (h : n.topology.levels ≤ l) : n.pos l = none :=
  List.getElem?_eq_none (n.length_positions ▸ h)

lemma exists_pos {n : Naddr} {l : ℕ} (h : l < n.topology.levels) : ∃ p, n.pos l = some p := by
  have hl : l < n.positions.length := n.length_positions ▸ h
  exact ⟨n.positions[l], List.getElem?_eq_getElem hl⟩

lemma lt_levels_of_pos {n : Naddr} {l : ℕ} {p : UInt32} (h : n.pos l = some p) :
    l < n.topology.levels := by
  by_contra hl
  rw [pos_eq_none (not_lt.mp hl)] at h
  cases h

lemma isVirtualAt_eq_false {n : Naddr} {l : ℕ} :
    n.isVirtualAt l = some false ↔
      ∃ p g, n.pos l = some p ∧ n.topology.gsize l = some g ∧ p.toNat < g.toNat := by
  unfold isVirtualAt
  cases n.pos l <;> cases n.topology.gsize l <;> simp

/-- An address is either virtual somewhere or real throughout. -/
lemma isReal_iff_isVirtual {n : Naddr} : n.IsReal ↔ n.isVirtual = false := by
  simp only [isVirtual, List.any_eq_false, List.mem_range, beq_iff_eq, levels,
    n.length_positions]
  refine forall₂_congr fun level hl => ?_
  obtain ⟨p, hp⟩ := exists_pos hl
  obtain ⟨g, hg⟩ := Topology.exists_gsize hl
  simp [isVirtualAt, hp, hg]

/-- The two addresses agree at every level exactly when their positions are equal. -/
lemma positions_eq_iff {a b : Naddr} (h : a.topology = b.topology) :
    (∀ l < a.topology.levels, a.pos l = b.pos l) ↔ a = b := by
  constructor
  · intro hpos
    obtain ⟨ta, pa, ha⟩ := a
    obtain ⟨tb, pb, hb⟩ := b
    obtain rfl : ta = tb := h
    have hp : pa = pb := by
      refine List.ext_getElem? fun l => ?_
      by_cases hl : l < ta.levels
      · exact hpos l hl
      · rw [List.getElem?_eq_none (by omega), List.getElem?_eq_none (by omega)]
    rw [Naddr.mk.injEq]
    exact ⟨rfl, hp⟩
  · rintro rfl l _
    rfl

lemma divergence_eq_some {mine theirs : List UInt32} {v : HCoord} :
    ∀ {n : ℕ}, divergence mine theirs n = some v ↔
      v.level < n ∧ theirs[v.level]? = some v.pos ∧ mine[v.level]? ≠ some v.pos ∧
        ∀ l, v.level < l → l < n → mine[l]? = theirs[l]?
  | 0 => by simp [divergence]
  | n + 1 => by
      rw [divergence]
      split_ifs with h
      · rw [divergence_eq_some]
        constructor
        · rintro ⟨hlt, ht, hm, hup⟩
          refine ⟨by omega, ht, hm, fun l hl hn => ?_⟩
          rcases Nat.lt_succ_iff_lt_or_eq.mp hn with hl' | rfl
          · exact hup l hl hl'
          · exact h
        · rintro ⟨hlt, ht, hm, hup⟩
          refine ⟨?_, ht, hm, fun l hl hn => hup l hl (by omega)⟩
          rcases Nat.lt_succ_iff_lt_or_eq.mp hlt with hl | hl
          · exact hl
          · rw [hl, h] at hm
            rw [hl] at ht
            exact absurd ht hm
      · rw [Option.map_eq_some_iff]
        constructor
        · rintro ⟨p, hp, rfl⟩
          exact ⟨Nat.lt_succ_self n, hp, fun hm => h (hm.trans hp.symm),
            fun l hl hn => absurd hl (by simp only; omega)⟩
        · rintro ⟨hlt, ht, hm, hup⟩
          rcases Nat.lt_succ_iff_lt_or_eq.mp hlt with hl | hl
          · exact absurd (hup n hl (Nat.lt_succ_self n)) h
          · exact ⟨v.pos, hl ▸ ht, by rw [← hl]⟩

lemma divergence_eq_none {mine theirs : List UInt32} :
    ∀ {n : ℕ}, n ≤ theirs.length → (divergence mine theirs n = none ↔
      ∀ l < n, mine[l]? = theirs[l]?)
  | 0, _ => by simp [divergence]
  | n + 1, hn => by
      rw [divergence]
      split_ifs with h
      · rw [divergence_eq_none (by omega)]
        constructor
        · intro hup l hl
          rcases Nat.lt_succ_iff_lt_or_eq.mp hl with hl' | rfl
          · exact hup l hl'
          · exact h
        · exact fun hup l hl => hup l (by omega)
      · rw [List.getElem?_eq_getElem (by omega)]
        simp only [Option.map_some, reduceCtorEq, false_iff, not_forall]
        exact ⟨n, Nat.lt_succ_self n, h⟩

/-- **What a coordinate says.**  The addresses agree above its level, `dest` holds its position
at its level and `self` does not. -/
theorem hcoord_eq_some {self dest : Naddr} {v : HCoord} :
    self.hcoord dest = .ok (some v) ↔
      self.topology = dest.topology ∧ v.level < self.topology.levels ∧
        dest.pos v.level = some v.pos ∧ self.pos v.level ≠ some v.pos ∧
        ∀ l, v.level < l → self.pos l = dest.pos l := by
  unfold hcoord
  split_ifs with ht
  · rw [Except.ok.injEq, divergence_eq_some, self.length_positions]
    simp only [ht, true_and]
    refine and_congr_right fun _ => and_congr_right fun _ => and_congr_right fun _ => ?_
    refine ⟨fun h l hl => ?_, fun h l hl _ => h l hl⟩
    by_cases hn : l < dest.topology.levels
    · exact h l hl hn
    · rw [pos_eq_none (ht ▸ not_lt.mp hn), pos_eq_none (not_lt.mp hn)]
  · simp [Outcome.fail, ht]

/-- No coordinate is computed exactly when the two are the same address. -/
theorem hcoord_eq_none {self dest : Naddr} :
    self.hcoord dest = .ok none ↔ self = dest := by
  unfold hcoord
  split_ifs with ht
  · have hlen : self.positions.length ≤ dest.positions.length := by
      rw [self.length_positions, dest.length_positions, ht]
    rw [Except.ok.injEq, divergence_eq_none hlen, ← positions_eq_iff ht, self.length_positions]
    rfl
  · simp only [Outcome.fail, reduceCtorEq, false_iff]
    rintro rfl
    exact ht rfl

/-- Between two addresses of one topology, `hcoord` always returns. -/
lemma exists_hcoord {self dest : Naddr} (h : self.topology = dest.topology) :
    ∃ o, self.hcoord dest = .ok o := by
  rw [hcoord, if_pos h]
  exact ⟨_, rfl⟩

lemma exists_hcoord_of_ne {self dest : Naddr} (h : self.topology = dest.topology)
    (hne : self ≠ dest) : ∃ v, self.hcoord dest = .ok (some v) := by
  obtain ⟨o, ho⟩ := exists_hcoord h
  cases o with
  | none => exact absurd (hcoord_eq_none.mp ho) hne
  | some v => exact ⟨v, ho⟩

end Naddr

end Netsukuku
