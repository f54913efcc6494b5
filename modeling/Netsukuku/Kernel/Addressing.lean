import Mathlib
import Netsukuku.Core.MixedRadix
import Netsukuku.Qspn.Validate

/-!
# IPv4 images of the hierarchy

The kernel routes on IPv4 addresses, so a hierarchical address becomes one address of
`10.0.0.0/8` and a g-node becomes a CIDR block.  Each level gets as many bits as its g-node size
needs, the outermost level in the highest bits; a g-node of level `l` wildcards the levels below
`l`.

* `hostAddress`, `gnodeDestination` — the two translations, both through `pack`.
* `pack_eq_ok` — what `pack` computes: a mixed-radix number whose radices are powers of two, and a
  prefix that ends where the wildcarded levels begin.
* `contains_iff` — a block contains an address when the two agree above the prefix.
* `contains_host_iff` — the block of a g-node contains the hosts of that g-node and no others.
-/

namespace Netsukuku

/-! ## IPv4 networks -/

/-- An IPv4 address, as its four octets. -/
structure Ipv4Addr where
  a : UInt8
  b : UInt8
  c : UInt8
  d : UInt8
  deriving DecidableEq, Repr

/-- `u32::from`: the first octet is the most significant one. -/
def Ipv4Addr.toBits (x : Ipv4Addr) : ℕ :=
  x.a.toNat * 2 ^ 24 + x.b.toNat * 2 ^ 16 + x.c.toNat * 2 ^ 8 + x.d.toNat

lemma Ipv4Addr.toBits_lt (x : Ipv4Addr) : x.toBits < 2 ^ 32 := by
  have ha := x.a.toNat_lt
  have hb := x.b.toNat_lt
  have hc := x.c.toNat_lt
  have hd := x.d.toNat_lt
  unfold Ipv4Addr.toBits
  omega

lemma Ipv4Addr.toBits_injective : Function.Injective Ipv4Addr.toBits := by
  rintro ⟨a, b, c, d⟩ ⟨a', b', c', d'⟩ h
  have ha := a.toNat_lt
  have hb := b.toNat_lt
  have hc := c.toNat_lt
  have hd := d.toNat_lt
  have ha' := a'.toNat_lt
  have hb' := b'.toNat_lt
  have hc' := c'.toNat_lt
  have hd' := d'.toNat_lt
  simp only [Ipv4Addr.toBits] at h
  simp only [Ipv4Addr.mk.injEq, ← UInt8.toNat_inj]
  omega

/-- A network in CIDR notation. -/
structure Ipv4Net where
  address : Ipv4Addr
  prefixLen : ℕ
  prefixLen_le : prefixLen ≤ 32
  deriving DecidableEq, Repr

namespace Ipv4Net

/-- `Ipv4Net::new`; the error is the rejected prefix length. -/
def new (address : Ipv4Addr) (prefixLen : ℕ) : Outcome ℕ Ipv4Net :=
  if h : prefixLen ≤ 32 then .ok ⟨address, prefixLen, h⟩ else Outcome.fail prefixLen

/-- A single host address. -/
def host (address : Ipv4Addr) : Ipv4Net := ⟨address, 32, le_rfl⟩

def mask (net : Ipv4Net) : ℕ :=
  if net.prefixLen = 0 then 0 else ((2 ^ 32 - 1) <<< (32 - net.prefixLen)) % 2 ^ 32

/-- Whether `addr` falls inside this network. -/
def contains (net : Ipv4Net) (addr : Ipv4Addr) : Bool :=
  net.address.toBits &&& net.mask == addr.toBits &&& net.mask

/-- No host bits are set: the address is the network's own base. -/
def IsCanonical (net : Ipv4Net) : Prop := net.address.toBits &&& net.mask = net.address.toBits

instance (net : Ipv4Net) : Decidable net.IsCanonical := inferInstanceAs (Decidable (_ = _))

lemma testBit_mask (net : Ipv4Net) (i : ℕ) :
    net.mask.testBit i = decide (32 - net.prefixLen ≤ i ∧ i < 32) := by
  unfold mask
  split_ifs with h
  · simp [h]
  · rw [Nat.testBit_mod_two_pow, Nat.testBit_shiftLeft, Nat.testBit_two_pow_sub_one]
    have hle := net.prefixLen_le
    by_cases hi : i < 32 <;> by_cases hp : 32 - net.prefixLen ≤ i <;> simp [hi, hp]
    omega

/-- Masking drops the host bits. -/
lemma and_mask (net : Ipv4Net) {x : ℕ} (hx : x < 2 ^ 32) :
    x &&& net.mask = x / 2 ^ (32 - net.prefixLen) * 2 ^ (32 - net.prefixLen) := by
  refine Nat.eq_of_testBit_eq fun i => ?_
  rw [Nat.testBit_and, testBit_mask, ← Nat.shiftLeft_eq, Nat.testBit_shiftLeft,
    Nat.testBit_div_two_pow]
  by_cases hp : 32 - net.prefixLen ≤ i
  · by_cases hi : i < 32
    · simp [hp, hi]
    · have hbit : x.testBit i = false :=
        Nat.testBit_lt_two_pow (hx.trans_le (Nat.pow_le_pow_right (by norm_num) (not_lt.mp hi)))
      simp [hp, hbit]
  · simp [hp]

/-- A network contains the addresses that agree with its own above the host bits. -/
theorem contains_iff (net : Ipv4Net) (addr : Ipv4Addr) :
    net.contains addr = true ↔
      net.address.toBits / 2 ^ (32 - net.prefixLen) = addr.toBits / 2 ^ (32 - net.prefixLen) := by
  rw [contains, beq_iff_eq, and_mask _ net.address.toBits_lt, and_mask _ addr.toBits_lt]
  exact Nat.mul_left_inj (by positivity)

lemma isCanonical_iff (net : Ipv4Net) :
    net.IsCanonical ↔ 2 ^ (32 - net.prefixLen) ∣ net.address.toBits := by
  rw [IsCanonical, and_mask _ net.address.toBits_lt]
  exact ⟨fun h => ⟨_, by rw [mul_comm]; exact h.symm⟩, Nat.div_mul_cancel⟩

end Ipv4Net

/-! ## The translation -/

/-- A topology cannot be encoded into the 24 usable bits of `10.0.0.0/8`. -/
inductive AddressingError where
  | levelOutOfRange (level levels : ℕ)
  | topologyTooWide (needed : ℕ)
  | positionOutOfRange (level : ℕ) (pos gsize : UInt32)
  deriving DecidableEq, Repr

/-- `KIND_GLOBAL`. -/
def kindGlobal : ℕ := 0

/-- `u32::leading_zeros`. -/
def leadingZeros (x : ℕ) : ℕ := if x = 0 then 32 else 31 - x.log2

/-- Bits needed to represent every position below `gsize`. -/
def levelBits (gsize : UInt32) : ℕ := 32 - leadingZeros (gsize.toNat - 1)

/-- The bits `topology` needs; the positions and the two kind bits must fit in 24. -/
def totalBits (topology : Topology) : Outcome AddressingError ℕ := do
  let needed ← topology.gsizes.foldlM (fun sum g => Outcome.checkedAdd 32 sum (levelBits g)) 0
  let withKind ← Outcome.checkedAdd 32 needed 2
  if 24 < withKind then Outcome.fail (.topologyTooWide needed) else pure needed

def checkTopologyFits (topology : Topology) : Outcome AddressingError Unit := do
  let _ ← totalBits topology
  pure ()

/-- The loop of `pack`, from level `n - 1` down to 0: the accumulator and the bits wildcarded. -/
def packLevels (topology : Topology) (zeroBelow : ℕ)
    (positions : ℕ → Outcome AddressingError UInt32) :
    ℕ → ℕ → ℕ → Outcome AddressingError (ℕ × ℕ)
  | 0, acc, zeroedBits => .ok (acc, zeroedBits)
  | level + 1, acc, zeroedBits => do
      let gsize ← Outcome.expect "level < topology.levels() by loop range" (topology.gsize level)
      let bits := levelBits gsize
      let value ← if level < zeroBelow then pure 0 else do
        let value ← positions level
        if gsize.toNat ≤ value.toNat then
          Outcome.fail (.positionOutOfRange level value gsize)
        else pure value
      let shifted ← Outcome.checkedShl 32 acc bits
      let zeroedBits ←
        if level < zeroBelow then Outcome.checkedAdd 32 zeroedBits bits else pure zeroedBits
      packLevels topology zeroBelow positions level (shifted ||| value.toNat) zeroedBits

/-- Packs `kind` and one position per level under the fixed octet 10, and the prefix length that
leaves the levels below `zeroBelow` free. -/
def pack (topology : Topology) (kind zeroBelow : ℕ)
    (positions : ℕ → Outcome AddressingError UInt32) :
    Outcome AddressingError (Ipv4Addr × ℕ) := do
  let _ ← totalBits topology
  let (acc, zeroedBits) ←
    packLevels topology zeroBelow positions topology.levels kind 0
  -- The casts to `u8` keep the low octet.
  let address := ⟨10, UInt8.ofNat (acc >>> 16), UInt8.ofNat (acc >>> 8), UInt8.ofNat acc⟩
  let left ← Outcome.checkedSub 32 zeroedBits
  let prefixLen ← Outcome.expect "zeroed_bits <= 24 < 32" (if left < 2 ^ 8 then some left else none)
  pure (address, prefixLen)

/-- The address of a node, as a single host. -/
def hostAddress (naddr : Naddr) : Outcome AddressingError Ipv4Net := do
  let (address, _) ← pack naddr.topology kindGlobal 0 fun level =>
    Outcome.expect "level < topology.levels()" (naddr.pos level)
  pure (Ipv4Net.host address)

/-- The block of the g-node `hc` names, as seen from `myNaddr`: the levels above come from
`myNaddr`, the ones below are free. -/
def gnodeDestination (myNaddr : Naddr) (hc : HCoord) : Outcome AddressingError Ipv4Net := do
  let levels := myNaddr.topology.levels
  if levels ≤ hc.level then Outcome.fail (.levelOutOfRange hc.level levels)
  else do
    let (address, prefixLen) ← pack myNaddr.topology kindGlobal hc.level fun level =>
      if level = hc.level then .ok hc.pos
      else Outcome.expect "level < topology.levels()" (myNaddr.pos level)
    Outcome.unwrap "prefix computed in-range by pack()" (Ipv4Net.new address prefixLen)

/-! ## The fields of the levels -/

/-- A level's field has room for every real position. -/
lemma lt_two_pow_levelBits {pos gsize : UInt32} (h : pos.toNat < gsize.toNat) :
    pos.toNat < 2 ^ levelBits gsize := by
  have hg := gsize.toNat_lt
  refine lt_of_le_of_lt (Nat.le_sub_one_of_lt h) ?_
  unfold levelBits leadingZeros
  split_ifs with h0
  · simp [h0]
  · have hlog : (gsize.toNat - 1).log2 < 32 := (Nat.log2_lt h0).mpr (by omega)
    rw [show 32 - (31 - (gsize.toNat - 1).log2) = (gsize.toNat - 1).log2 + 1 by omega]
    exact Nat.lt_log2_self

/-- The width of the field of `level`. -/
def fieldBits (t : Topology) (level : ℕ) : ℕ := ((t.gsize level).map levelBits).getD 0

/-- The bits of the levels below `n`: where the field of level `n` starts. -/
def offset (t : Topology) (n : ℕ) : ℕ := ((t.gsizes.take n).map levelBits).sum

lemma fieldBits_of_gsize {t : Topology} {level : ℕ} {g : UInt32} (h : t.gsize level = some g) :
    fieldBits t level = levelBits g := by
  simp [fieldBits, h]

lemma offset_succ (t : Topology) (n : ℕ) : offset t (n + 1) = offset t n + fieldBits t n := by
  unfold offset fieldBits Topology.gsize
  rw [List.take_add_one, List.map_append, List.sum_append]
  cases t.gsizes[n]? <;> simp

lemma offset_mono (t : Topology) {m n : ℕ} (h : m ≤ n) : offset t m ≤ offset t n :=
  monotone_nat_of_le_succ (fun n => by rw [offset_succ]; exact Nat.le_add_right _ _) h

lemma prod_fieldBits (t : Topology) (n : ℕ) :
    ∏ i ∈ Finset.range n, 2 ^ fieldBits t i = 2 ^ offset t n := by
  induction n with
  | zero => rfl
  | succ n ih => rw [Finset.prod_range_succ, ih, offset_succ, pow_add]

/-- The sum that `total_bits` computes. -/
lemma sum_levelBits {l : List UInt32} {needed : ℕ} :
    ∀ {s : ℕ}, l.foldlM (fun sum g => Outcome.checkedAdd 32 sum (levelBits g)) s =
      (.ok needed : Outcome AddressingError ℕ) → s + (l.map levelBits).sum = needed := by
  induction l with
  | nil =>
      intro s h
      cases h
      rfl
  | cons g l ih =>
      intro s h
      rw [List.foldlM_cons, Outcome.bind_eq_ok] at h
      obtain ⟨s', hs', h⟩ := h
      rw [Outcome.checkedAdd] at hs'
      split at hs'
      · cases hs'
        rw [← ih h, List.map_cons, List.sum_cons, Nat.add_assoc]
      · cases hs'

/-- A topology that fits leaves the two kind bits free. -/
lemma offset_le_of_fits {t : Topology} (h : checkTopologyFits t = .ok ()) :
    offset t t.levels ≤ 22 ∧ ∃ needed, totalBits t = .ok needed := by
  rw [checkTopologyFits, Outcome.bind_eq_ok] at h
  obtain ⟨needed, hneeded, -⟩ := h
  refine ⟨?_, needed, hneeded⟩
  rw [totalBits, Outcome.bind_eq_ok] at hneeded
  obtain ⟨sum, hsum, h⟩ := hneeded
  obtain ⟨withKind, hkind, h⟩ := Outcome.bind_eq_ok.mp h
  rw [Outcome.checkedAdd] at hkind
  split at hkind
  · cases hkind
    split_ifs at h with hwide
    · cases h
    · have hoffset : offset t t.levels = (t.gsizes.map levelBits).sum := by
        rw [offset, Topology.levels, List.take_length]
      have := sum_levelBits hsum
      omega
  · cases hkind

/-- No level of a topology that fits has room for more than 2²² positions. -/
lemma gsize_le_of_fits {t : Topology} (h : checkTopologyFits t = .ok ()) {level : ℕ} {g : UInt32}
    (hg : t.gsize level = some g) : g.toNat ≤ 2 ^ 22 := by
  have hoffset := (offset_le_of_fits h).1
  have hlevel : level < t.levels := (List.getElem?_eq_some_iff.mp hg).1
  have hmono := offset_mono t (show level + 1 ≤ t.levels from hlevel)
  rw [offset_succ, fieldBits_of_gsize hg] at hmono
  by_contra hbig
  -- The position 2²² would be a real one, and its field has no room for it.
  have hroom : (4194304 : UInt32).toNat < 2 ^ levelBits g :=
    lt_two_pow_levelBits (show 4194304 < g.toNat by omega)
  have hpow : 2 ^ levelBits g ≤ 2 ^ 22 := Nat.pow_le_pow_right (by decide) (by omega)
  exact absurd (lt_of_lt_of_le hroom hpow) (by decide)

/-! ## What `pack` computes -/

/-- The digits that are packed: the levels below `zeroBelow` are zero. -/
def packed (zeroBelow : ℕ) (v : ℕ → UInt32) (level : ℕ) : ℕ :=
  if level < zeroBelow then 0 else (v level).toNat

/-- The positions `v` from `zeroBelow` on are what the closure returns, and are real. -/
def Readable (t : Topology) (zeroBelow : ℕ) (positions : ℕ → Outcome AddressingError UInt32)
    (v : ℕ → UInt32) : Prop :=
  ∀ level g, zeroBelow ≤ level → t.gsize level = some g →
    positions level = .ok (v level) ∧ (v level).toNat < g.toNat

variable {t : Topology} {zeroBelow : ℕ} {positions : ℕ → Outcome AddressingError UInt32}
  {v : ℕ → UInt32}

lemma packed_lt (h : Readable t zeroBelow positions v) {level : ℕ} (hl : level < t.levels) :
    packed zeroBelow v level < 2 ^ fieldBits t level := by
  obtain ⟨g, hg⟩ := Topology.exists_gsize hl
  rw [fieldBits_of_gsize hg]
  unfold packed
  split_ifs with hz
  · positivity
  · exact lt_two_pow_levelBits (h level g (not_lt.mp hz) hg).2

/-- One level: the accumulator moves up by the field and takes the digit in. -/
lemma packLevels_succ (h : Readable t zeroBelow positions v) {level acc zeroedBits : ℕ}
    (hl : level < t.levels) (hacc : acc * 2 ^ fieldBits t level < 2 ^ 32)
    (hbits : fieldBits t level < 32) (hzeroed : zeroedBits + fieldBits t level < 2 ^ 32) :
    packLevels t zeroBelow positions (level + 1) acc zeroedBits =
      packLevels t zeroBelow positions level
        (acc * 2 ^ fieldBits t level + packed zeroBelow v level)
        (if level < zeroBelow then zeroedBits + fieldBits t level else zeroedBits) := by
  obtain ⟨g, hg⟩ := Topology.exists_gsize hl
  have hdigit := packed_lt h hl
  rw [fieldBits_of_gsize hg] at hacc hbits hzeroed hdigit
  have hor : ∀ x, x < 2 ^ levelBits g →
      acc * 2 ^ levelBits g ||| x = acc * 2 ^ levelBits g + x := by
    intro x hx
    rw [← Nat.shiftLeft_eq, Nat.shiftLeft_add_eq_or_of_lt hx]
  rw [packLevels, hg, Outcome.expect_some, Outcome.ok_bind, fieldBits_of_gsize hg]
  unfold packed at hdigit ⊢
  by_cases hz : level < zeroBelow
  · simp [hz, Outcome.checkedShl_of_lt hbits hacc, Outcome.checkedAdd_of_lt hzeroed]
  · obtain ⟨hpos, hreal⟩ := h level g (not_lt.mp hz) hg
    rw [if_neg hz] at hdigit
    simp [hz, hpos, hreal, Outcome.checkedShl_of_lt hbits hacc, hor _ hdigit]

/-- The loop reads a mixed-radix number and adds up the widths it wildcards. -/
lemma packLevels_eq (h : Readable t zeroBelow positions v) {n acc zeroedBits : ℕ}
    (hn : n ≤ t.levels) (hfit : (acc + 1) * 2 ^ offset t n ≤ 2 ^ 22)
    (hzeroed : zeroedBits + offset t n < 2 ^ 32) :
    packLevels t zeroBelow positions n acc zeroedBits =
      .ok (MixedRadix.horner (fun i => 2 ^ fieldBits t i) (packed zeroBelow v) n acc,
        zeroedBits + offset t (min n zeroBelow)) := by
  induction n generalizing acc zeroedBits with
  | zero => simp [packLevels, MixedRadix.horner, offset]
  | succ n ih =>
      have hlevel : n < t.levels := hn
      have hdigit := packed_lt h hlevel
      have hpos : 0 < 2 ^ offset t n := by positivity
      have hstep : (acc * 2 ^ fieldBits t n + packed zeroBelow v n + 1) * 2 ^ offset t n ≤
          2 ^ 22 := by
        calc (acc * 2 ^ fieldBits t n + packed zeroBelow v n + 1) * 2 ^ offset t n
            ≤ (acc * 2 ^ fieldBits t n + 2 ^ fieldBits t n) * 2 ^ offset t n :=
              Nat.mul_le_mul_right _ (by omega)
          _ = (acc + 1) * 2 ^ offset t (n + 1) := by rw [offset_succ, pow_add]; ring
          _ ≤ 2 ^ 22 := hfit
      have hacc : acc * 2 ^ fieldBits t n < 2 ^ 22 := by
        have := Nat.le_mul_of_pos_right (acc * 2 ^ fieldBits t n + packed zeroBelow v n + 1) hpos
        omega
      have hoffset : 2 ^ offset t (n + 1) ≤ 2 ^ 22 :=
        (Nat.le_mul_of_pos_left _ (Nat.succ_pos acc)).trans hfit
      have hbits : offset t (n + 1) ≤ 22 := (Nat.pow_le_pow_iff_right (by norm_num)).mp hoffset
      rw [offset_succ] at hbits hzeroed
      rw [packLevels_succ h hlevel (hacc.trans (by norm_num)) (by omega) (by omega)]
      by_cases hz : n < zeroBelow
      · rw [if_pos hz, ih hlevel.le hstep (by omega), min_eq_left hz.le, min_eq_left hz,
          offset_succ, MixedRadix.horner]
        congr 2
        omega
      · rw [if_neg hz, ih hlevel.le hstep (by omega), min_eq_right (not_lt.mp hz),
          min_eq_right ((not_lt.mp hz).trans (Nat.le_succ n)), MixedRadix.horner]

/-- The four octets of an accumulator of 24 bits. -/
lemma toBits_octets {acc : ℕ} (h : acc < 2 ^ 24) :
    (Ipv4Addr.mk 10 (UInt8.ofNat (acc >>> 16)) (UInt8.ofNat (acc >>> 8))
      (UInt8.ofNat acc)).toBits = 10 * 2 ^ 24 + acc := by
  simp only [Ipv4Addr.toBits, UInt8.toNat_ofNat', Nat.shiftRight_eq_div_pow]
  have hten : UInt8.toNat 10 = 10 := rfl
  rw [hten]
  omega

/-- The number that `pack` writes into the low 24 bits. -/
def image (t : Topology) (zeroBelow : ℕ) (v : ℕ → UInt32) : ℕ :=
  MixedRadix.value (fun i => 2 ^ fieldBits t i) (packed zeroBelow v) t.levels

lemma image_lt (hfits : checkTopologyFits t = .ok ()) (h : Readable t zeroBelow positions v) :
    image t zeroBelow v < 2 ^ 22 := by
  have hlt := MixedRadix.horner_lt_mul (a := 0) (b := 1)
    (fun i hi => packed_lt h hi) Nat.one_pos
  rw [prod_fieldBits, one_mul] at hlt
  exact hlt.trans_le (Nat.pow_le_pow_right (by norm_num) (offset_le_of_fits hfits).1)

/-- **What `pack` computes.** -/
theorem pack_eq_ok (hfits : checkTopologyFits t = .ok ()) (h : Readable t zeroBelow positions v)
    (hz : zeroBelow ≤ t.levels) :
    ∃ address, pack t kindGlobal zeroBelow positions = .ok (address, 32 - offset t zeroBelow) ∧
      address.toBits = 10 * 2 ^ 24 + image t zeroBelow v := by
  obtain ⟨hoffset, needed, hneeded⟩ := offset_le_of_fits hfits
  have hlevels : packLevels t zeroBelow positions t.levels kindGlobal 0 =
      .ok (image t zeroBelow v, offset t zeroBelow) := by
    have hfit : (kindGlobal + 1) * 2 ^ offset t t.levels ≤ 2 ^ 22 := by
      rw [kindGlobal, Nat.zero_add, Nat.one_mul]
      exact Nat.pow_le_pow_right (by norm_num) hoffset
    rw [packLevels_eq h le_rfl hfit (by omega), min_eq_right hz, Nat.zero_add]
    rfl
  have hwild : offset t zeroBelow ≤ 32 := (offset_mono t hz).trans (hoffset.trans (by norm_num))
  refine ⟨_, ?_, toBits_octets ((image_lt hfits h).trans (by norm_num))⟩
  rw [pack, hneeded, Outcome.ok_bind, hlevels, Outcome.ok_bind]
  simp only
  rw [Outcome.checkedSub_of_le hwild, Outcome.ok_bind, if_pos (by omega), Outcome.expect_some,
    Outcome.ok_bind]
  rfl

/-! ## Hosts and g-nodes -/

/-- The positions of an address. -/
def hostPositions (n : Naddr) (level : ℕ) : UInt32 := (n.pos level).getD 0

/-- The positions `gnode_destination` packs. -/
def gnodePositions (me : Naddr) (hc : HCoord) (level : ℕ) : UInt32 :=
  if level = hc.level then hc.pos else hostPositions me level

lemma hostPositions_of_pos {n : Naddr} {level : ℕ} {p : UInt32} (h : n.pos level = some p) :
    hostPositions n level = p := by
  simp [hostPositions, h]

lemma lt_levels_of_isReal {hc : HCoord} (h : hc.IsReal t) : hc.level < t.levels := by
  obtain ⟨g, hg, -⟩ := h
  exact (List.getElem?_eq_some_iff.mp hg).1

/-- A real address has a real position at every level. -/
lemma exists_pos_lt {n : Naddr} (hn : n.IsReal) {level : ℕ} {g : UInt32}
    (hg : n.topology.gsize level = some g) : ∃ p, n.pos level = some p ∧ p.toNat < g.toNat := by
  have hlevel : level < n.topology.levels := (List.getElem?_eq_some_iff.mp hg).1
  obtain ⟨p, g', hp, hg', hlt⟩ := Naddr.isVirtualAt_eq_false.mp (hn level hlevel)
  rw [hg] at hg'
  cases hg'
  exact ⟨p, hp, hlt⟩

lemma readable_host {n : Naddr} (hn : n.IsReal) :
    Readable n.topology 0
      (fun level => Outcome.expect "level < topology.levels()" (n.pos level))
      (hostPositions n) := by
  intro level g _ hg
  obtain ⟨p, hp, hlt⟩ := exists_pos_lt hn hg
  simp only [hp, hostPositions_of_pos hp]
  exact ⟨rfl, hlt⟩

lemma readable_gnode {me : Naddr} (hme : me.IsReal) {hc : HCoord} (hhc : hc.IsReal me.topology) :
    Readable me.topology hc.level
      (fun level => if level = hc.level then .ok hc.pos
        else Outcome.expect "level < topology.levels()" (me.pos level))
      (gnodePositions me hc) := by
  intro level g _ hg
  simp only [gnodePositions]
  split_ifs with h
  · obtain ⟨g', hg', hlt⟩ := hhc
    rw [← h, hg] at hg'
    cases hg'
    exact ⟨rfl, hlt⟩
  · exact readable_host hme level g (Nat.zero_le level) hg

lemma hostAddress_eq_ok {n : Naddr} (hfits : checkTopologyFits n.topology = .ok ())
    (hn : n.IsReal) :
    ∃ address, hostAddress n = .ok (Ipv4Net.host address) ∧
      address.toBits = 10 * 2 ^ 24 + image n.topology 0 (hostPositions n) := by
  obtain ⟨address, hpack, hbits⟩ := pack_eq_ok hfits (readable_host hn) (Nat.zero_le _)
  refine ⟨address, ?_, hbits⟩
  rw [hostAddress, hpack]
  rfl

lemma gnodeDestination_eq_ok {me : Naddr} (hfits : checkTopologyFits me.topology = .ok ())
    (hme : me.IsReal) {hc : HCoord} (hhc : hc.IsReal me.topology) :
    ∃ net, gnodeDestination me hc = .ok net ∧
      32 - net.prefixLen = offset me.topology hc.level ∧
      net.address.toBits = 10 * 2 ^ 24 + image me.topology hc.level (gnodePositions me hc) := by
  have hlevel := lt_levels_of_isReal hhc
  have hoffset : offset me.topology hc.level ≤ 22 :=
    (offset_mono _ hlevel.le).trans (offset_le_of_fits hfits).1
  obtain ⟨address, hpack, hbits⟩ := pack_eq_ok hfits (readable_gnode hme hhc) hlevel.le
  refine ⟨⟨address, 32 - offset me.topology hc.level, Nat.sub_le _ _⟩, ?_,
    Nat.sub_sub_self (by omega), hbits⟩
  simp only [gnodeDestination]
  rw [if_neg (not_le.mpr hlevel), hpack, Outcome.ok_bind]
  simp [Ipv4Net.new]

/-- The fixed octet lies above every prefix. -/
lemma octet_add_div {k : ℕ} (hk : k ≤ 24) (a b : ℕ) :
    (10 * 2 ^ 24 + a) / 2 ^ k = (10 * 2 ^ 24 + b) / 2 ^ k ↔ a / 2 ^ k = b / 2 ^ k := by
  have hsplit : 10 * 2 ^ 24 = 2 ^ k * (10 * 2 ^ (24 - k)) := by
    rw [← mul_assoc, mul_comm (2 ^ k) 10, mul_assoc, ← pow_add, Nat.add_sub_cancel' hk]
  rw [hsplit, Nat.mul_add_div (by positivity), Nat.mul_add_div (by positivity)]
  exact Nat.add_right_inj

/-- Two packed positions lists agree from a level on as the positions themselves do. -/
lemma packed_eq_iff {me n : Naddr} (ht : n.topology = me.topology) {hc : HCoord}
    (hlevel : hc.level < me.topology.levels) :
    (∀ i, hc.level ≤ i → i < me.topology.levels →
        packed hc.level (gnodePositions me hc) i = packed 0 (hostPositions n) i) ↔
      (∀ l, hc.level < l → n.pos l = me.pos l) ∧ n.pos hc.level = some hc.pos := by
  have hpacked : ∀ i, hc.level ≤ i →
      (packed hc.level (gnodePositions me hc) i = packed 0 (hostPositions n) i ↔
        gnodePositions me hc i = hostPositions n i) := by
    intro i hi
    rw [packed, packed, if_neg (not_lt.mpr hi), if_neg (Nat.not_lt_zero i), UInt32.toNat_inj]
  constructor
  · intro h
    refine ⟨fun l hl => ?_, ?_⟩
    · by_cases hin : l < me.topology.levels
      · have heq := (hpacked l hl.le).mp (h l hl.le hin)
        obtain ⟨p, hp⟩ := Naddr.exists_pos hin
        obtain ⟨q, hq⟩ := Naddr.exists_pos (ht ▸ hin)
        rw [gnodePositions, if_neg hl.ne', hostPositions_of_pos hp, hostPositions_of_pos hq] at heq
        rw [hp, hq, heq]
      · rw [Naddr.pos_eq_none (not_lt.mp hin), Naddr.pos_eq_none (ht ▸ not_lt.mp hin)]
    · have heq := (hpacked hc.level le_rfl).mp (h hc.level le_rfl hlevel)
      obtain ⟨q, hq⟩ := Naddr.exists_pos (ht ▸ hlevel)
      rw [gnodePositions, if_pos rfl, hostPositions_of_pos hq] at heq
      rw [hq, heq]
  · rintro ⟨habove, hat⟩ i hi _
    rw [hpacked i hi]
    rcases Nat.eq_or_lt_of_le hi with rfl | hlt
    · rw [gnodePositions, if_pos rfl, hostPositions_of_pos hat]
    · rw [gnodePositions, if_neg hlt.ne', hostPositions, hostPositions, habove i hlt]

/-- **A g-node's block contains its own hosts and no others.** -/
theorem contains_host_iff {me n : Naddr} (hfits : checkTopologyFits me.topology = .ok ())
    (hme : me.IsReal) (ht : n.topology = me.topology) (hn : n.IsReal) {hc : HCoord}
    (hhc : hc.IsReal me.topology) {net host : Ipv4Net} (hnet : gnodeDestination me hc = .ok net)
    (hhost : hostAddress n = .ok host) :
    net.contains host.address = true ↔
      (∀ l, hc.level < l → n.pos l = me.pos l) ∧ n.pos hc.level = some hc.pos := by
  obtain ⟨net', hnet', hwild, hbits⟩ := gnodeDestination_eq_ok hfits hme hhc
  obtain ⟨address, hhost', hbits'⟩ := hostAddress_eq_ok (ht ▸ hfits) hn
  rw [hnet] at hnet'
  rw [hhost] at hhost'
  cases hnet'
  cases hhost'
  have hlevel := lt_levels_of_isReal hhc
  have hoffset : offset me.topology hc.level ≤ 22 :=
    (offset_mono _ hlevel.le).trans (offset_le_of_fits hfits).1
  have hhostRead := readable_host hn
  rw [ht] at hbits' hhostRead
  rw [Ipv4Net.contains_iff, hwild, Ipv4Net.host, hbits, hbits', octet_add_div (by omega), image,
    image, ← prod_fieldBits, MixedRadix.value_div_eq_iff hlevel.le
      (fun i hi => packed_lt (readable_gnode hme hhc) hi) (fun i hi => packed_lt hhostRead hi)]
  exact packed_eq_iff ht hlevel

lemma gnodeDestination_isCanonical {me : Naddr} (hfits : checkTopologyFits me.topology = .ok ())
    (hme : me.IsReal) {hc : HCoord} (hhc : hc.IsReal me.topology) {net : Ipv4Net}
    (hnet : gnodeDestination me hc = .ok net) : net.IsCanonical := by
  obtain ⟨net', hnet', hwild, hbits⟩ := gnodeDestination_eq_ok hfits hme hhc
  rw [hnet] at hnet'
  cases hnet'
  have hlevel := lt_levels_of_isReal hhc
  have hoffset : offset me.topology hc.level ≤ 22 :=
    (offset_mono _ hlevel.le).trans (offset_le_of_fits hfits).1
  rw [Ipv4Net.isCanonical_iff, hwild, hbits]
  refine Nat.dvd_add (Dvd.dvd.mul_left (Nat.pow_dvd_pow 2 (by omega)) 10) ?_
  rw [← prod_fieldBits]
  exact MixedRadix.dvd_value hlevel.le fun i hi => if_pos hi

/-- Different real addresses have different hosts. -/
lemma hostAddress_injective {n m : Naddr} (hfits : checkTopologyFits n.topology = .ok ())
    (ht : m.topology = n.topology) (hn : n.IsReal) (hm : m.IsReal)
    (h : hostAddress n = hostAddress m) : n = m := by
  obtain ⟨a, ha, hbits⟩ := hostAddress_eq_ok hfits hn
  obtain ⟨b, hb, hbits'⟩ := hostAddress_eq_ok (ht ▸ hfits) hm
  have hmRead := readable_host hm
  rw [ht] at hbits' hmRead
  rw [ha, hb, Except.ok.injEq, Ipv4Net.host, Ipv4Net.host, Ipv4Net.mk.injEq] at h
  have himage : image n.topology 0 (hostPositions n) = image n.topology 0 (hostPositions m) := by
    rw [h.1] at hbits
    omega
  refine (Naddr.positions_eq_iff ht.symm).mp fun l hl => ?_
  have hdigit := MixedRadix.value_injective (fun i hi => packed_lt (readable_host hn) hi)
    (fun i hi => packed_lt hmRead hi) himage l hl
  rw [packed, packed, if_neg (Nat.not_lt_zero l), if_neg (Nat.not_lt_zero l),
    UInt32.toNat_inj] at hdigit
  obtain ⟨p, hp⟩ := Naddr.exists_pos hl
  obtain ⟨q, hq⟩ := Naddr.exists_pos (ht ▸ hl)
  rw [hostPositions_of_pos hp, hostPositions_of_pos hq] at hdigit
  rw [hp, hq, hdigit]

/-- The block that `me` routes to `hc` on contains the host of `n`. -/
def BlockCovers (me : Naddr) (hc : HCoord) (n : Naddr) : Prop :=
  ∃ net host, gnodeDestination me hc = .ok net ∧ hostAddress n = .ok host ∧
    net.contains host.address = true

lemma blockCovers_iff {me n : Naddr} (hfits : checkTopologyFits me.topology = .ok ())
    (hme : me.IsReal) (ht : n.topology = me.topology) (hn : n.IsReal) {hc : HCoord}
    (hhc : hc.IsReal me.topology) :
    BlockCovers me hc n ↔ (∀ l, hc.level < l → n.pos l = me.pos l) ∧ n.pos hc.level = some hc.pos := by
  constructor
  · rintro ⟨net, host, hnet, hhost, h⟩
    exact (contains_host_iff hfits hme ht hn hhc hnet hhost).mp h
  · intro h
    obtain ⟨net, hnet, -⟩ := gnodeDestination_eq_ok hfits hme hhc
    obtain ⟨address, hhost, -⟩ := hostAddress_eq_ok (ht ▸ hfits) hn
    exact ⟨net, _, hnet, hhost, (contains_host_iff hfits hme ht hn hhc hnet hhost).mpr h⟩

/-- A coordinate that is not `me`'s own: what `hcoord` computes for another address. -/
lemma blockCovers_iff_hcoord {me n : Naddr} (hfits : checkTopologyFits me.topology = .ok ())
    (hme : me.IsReal) (ht : n.topology = me.topology) (hn : n.IsReal) {hc : HCoord}
    (hhc : hc.IsReal me.topology) (hown : me.pos hc.level ≠ some hc.pos) :
    BlockCovers me hc n ↔ me.hcoord n = .ok (some hc) := by
  have hlevel := lt_levels_of_isReal hhc
  rw [blockCovers_iff hfits hme ht hn hhc, Naddr.hcoord_eq_some]
  constructor
  · rintro ⟨habove, hat⟩
    exact ⟨ht.symm, hlevel, hat, hown, fun l hl => (habove l hl).symm⟩
  · rintro ⟨-, -, hat, -, habove⟩
    exact ⟨fun l hl => (habove l hl).symm, hat⟩

/-- What `packLevels` returns on has been checked, level by level. -/
lemma readable_of_packLevels {n acc zeroedBits : ℕ} {r : ℕ × ℕ}
    (h : packLevels t zeroBelow positions n acc zeroedBits = .ok r) :
    ∀ level, zeroBelow ≤ level → level < n →
      ∃ value g, positions level = .ok value ∧ t.gsize level = some g ∧
        value.toNat < g.toNat := by
  induction n generalizing acc zeroedBits with
  | zero => exact fun level _ hlt => absurd hlt (Nat.not_lt_zero level)
  | succ n ih =>
      intro level hz hlt
      rw [packLevels, Outcome.bind_eq_ok] at h
      obtain ⟨g, hg, h⟩ := h
      simp only [Outcome.expect_eq_ok] at hg
      by_cases hn : n < zeroBelow
      · simp only [hn, if_true, Outcome.pure_eq_ok, Outcome.ok_bind] at h
        obtain ⟨shifted, -, h⟩ := Outcome.bind_eq_ok.mp h
        obtain ⟨zeroed, -, h⟩ := Outcome.bind_eq_ok.mp h
        exact ih h level hz (by omega)
      · simp only [hn, if_false] at h
        obtain ⟨value, hvalue, h⟩ := Outcome.bind_eq_ok.mp h
        split_ifs at h with hge
        · cases h
        · simp only [Outcome.pure_eq_ok, Outcome.ok_bind] at h
          obtain ⟨shifted, -, h⟩ := Outcome.bind_eq_ok.mp h
          rcases Nat.lt_succ_iff_lt_or_eq.mp hlt with hlt | rfl
          · exact ih h level hz hlt
          · exact ⟨value, g, hvalue, hg, not_le.mp hge⟩

/-- Only a real coordinate of a topology that fits has a block. -/
lemma isReal_of_gnodeDestination {me : Naddr} {hc : HCoord} {net : Ipv4Net}
    (h : gnodeDestination me hc = .ok net) :
    checkTopologyFits me.topology = .ok () ∧ hc.IsReal me.topology := by
  simp only [gnodeDestination] at h
  split_ifs at h with hlevel
  · cases h
  · obtain ⟨⟨address, prefixLen⟩, hpack, -⟩ := Outcome.bind_eq_ok.mp h
    rw [pack, Outcome.bind_eq_ok] at hpack
    obtain ⟨needed, hneeded, hpack⟩ := hpack
    obtain ⟨r, hlevels, -⟩ := Outcome.bind_eq_ok.mp hpack
    refine ⟨by rw [checkTopologyFits, hneeded]; rfl, ?_⟩
    obtain ⟨value, g, hvalue, hg, hlt⟩ :=
      readable_of_packLevels hlevels hc.level le_rfl (not_le.mp hlevel)
    rw [if_pos rfl] at hvalue
    cases hvalue
    exact ⟨g, hg, hlt⟩

/-- Some node lies in every g-node that is not `me`'s own. -/
lemma exists_hcoord_eq {me : Naddr} (hme : me.IsReal) {hc : HCoord} (hhc : hc.IsReal me.topology)
    (hown : me.pos hc.level ≠ some hc.pos) :
    ∃ n : Naddr, n.topology = me.topology ∧ n.IsReal ∧ me.hcoord n = .ok (some hc) := by
  have hlevel := lt_levels_of_isReal hhc
  have hlen : hc.level < me.positions.length := me.length_positions ▸ hlevel
  let n : Naddr := ⟨me.topology, me.positions.set hc.level hc.pos, by
    rw [List.length_set]; exact me.length_positions⟩
  have hat : n.pos hc.level = some hc.pos := List.getElem?_set_self hlen
  have hother : ∀ l, l ≠ hc.level → n.pos l = me.pos l := fun l hl =>
    List.getElem?_set_ne hl.symm
  refine ⟨n, rfl, fun l hl => ?_, Naddr.hcoord_eq_some.mpr
    ⟨rfl, hlevel, hat, hown, fun l hl => (hother l hl.ne').symm⟩⟩
  rw [Naddr.isVirtualAt_eq_false]
  by_cases h : l = hc.level
  · obtain ⟨g, hg, hlt⟩ := hhc
    rw [h]
    exact ⟨hc.pos, g, hat, hg, hlt⟩
  · obtain ⟨g, hg⟩ := Topology.exists_gsize hl
    obtain ⟨p, hp, hlt⟩ := exists_pos_lt hme hg
    exact ⟨p, g, (hother l h).trans hp, hg, hlt⟩

/-- Different g-nodes that are not `me`'s own have different blocks. -/
lemma gnodeDestination_injective {me : Naddr} (hme : me.IsReal) {hc hc' : HCoord} {net : Ipv4Net}
    (hnet : gnodeDestination me hc = .ok net) (hnet' : gnodeDestination me hc' = .ok net)
    (hown : me.pos hc.level ≠ some hc.pos) (hown' : me.pos hc'.level ≠ some hc'.pos) :
    hc = hc' := by
  obtain ⟨hfits, hhc⟩ := isReal_of_gnodeDestination hnet
  obtain ⟨-, hhc'⟩ := isReal_of_gnodeDestination hnet'
  -- A node of the first g-node lies in the block, hence in the second one too.
  obtain ⟨n, ht, hn, hcoord⟩ := exists_hcoord_eq hme hhc hown
  obtain ⟨net₁, host, hnet₁, hhost, hcontains⟩ :=
    (blockCovers_iff_hcoord hfits hme ht hn hhc hown).mpr hcoord
  rw [hnet] at hnet₁
  cases hnet₁
  have hcoord' := (blockCovers_iff_hcoord hfits hme ht hn hhc' hown').mp
    ⟨net, host, hnet', hhost, hcontains⟩
  rw [hcoord] at hcoord'
  cases hcoord'
  rfl

/-- **The IPv4 image is exact.**  In a topology that fits, different real addresses get different
hosts; the block of a g-node has no host bits and contains exactly the hosts of the g-node; so
every other node lies in exactly one of the blocks `me` routes on, and `me` in none. -/
theorem ipv4_image_exact {me : Naddr} (hfits : checkTopologyFits me.topology = .ok ())
    (hme : me.IsReal) :
    (∀ n m : Naddr, n.topology = me.topology → m.topology = me.topology → n.IsReal → m.IsReal →
      (∃ net, hostAddress n = .ok net) ∧ (hostAddress n = hostAddress m → n = m)) ∧
    (∀ hc : HCoord, hc.IsReal me.topology → ∃ net, gnodeDestination me hc = .ok net ∧
      net.IsCanonical ∧ ∀ n : Naddr, n.topology = me.topology → n.IsReal → ∀ host,
        hostAddress n = .ok host → (net.contains host.address = true ↔
          (∀ l, hc.level < l → n.pos l = me.pos l) ∧ n.pos hc.level = some hc.pos)) ∧
    (∀ n : Naddr, n.topology = me.topology → n.IsReal → n ≠ me →
      ∃ v, me.hcoord n = .ok (some v) ∧ v.IsReal me.topology ∧ me.pos v.level ≠ some v.pos ∧
        ∀ hc : HCoord, hc.IsReal me.topology → me.pos hc.level ≠ some hc.pos →
          (BlockCovers me hc n ↔ hc = v)) ∧
    (∀ hc : HCoord, hc.IsReal me.topology → me.pos hc.level ≠ some hc.pos →
      ¬ BlockCovers me hc me) := by
  refine ⟨fun n m hn hm hnr hmr => ⟨?_, fun h => ?_⟩, fun hc hhc => ?_, fun n ht hn hne => ?_,
    fun hc hhc hown h => ?_⟩
  · obtain ⟨address, hhost, -⟩ := hostAddress_eq_ok (hn ▸ hfits) hnr
    exact ⟨_, hhost⟩
  · exact hostAddress_injective (hn ▸ hfits) (hm.trans hn.symm) hnr hmr h
  · obtain ⟨net, hnet, -⟩ := gnodeDestination_eq_ok hfits hme hhc
    exact ⟨net, hnet, gnodeDestination_isCanonical hfits hme hhc hnet,
      fun n ht hn host hhost => contains_host_iff hfits hme ht hn hhc hnet hhost⟩
  · obtain ⟨v, hv⟩ := Naddr.exists_hcoord_of_ne ht.symm (Ne.symm hne)
    obtain ⟨-, hlevel, hat, hown, -⟩ := Naddr.hcoord_eq_some.mp hv
    have hvreal : v.IsReal me.topology := by
      obtain ⟨g, hg⟩ := Topology.exists_gsize hlevel
      obtain ⟨p, hp, hlt⟩ := exists_pos_lt hn (ht.symm ▸ hg)
      rw [hat] at hp
      cases hp
      exact ⟨g, hg, hlt⟩
    refine ⟨v, hv, hvreal, hown, fun hc hhc hhown => ?_⟩
    rw [blockCovers_iff_hcoord hfits hme ht hn hhc hhown, hv]
    simp [eq_comm]
  · rw [blockCovers_iff_hcoord hfits hme rfl hme hhc hown, Naddr.hcoord_eq_none.mpr rfl] at h
    cases h

/-- The last node of a hierarchy whose sizes are not powers of two, one of them 1. -/
def lastNaddr : Naddr := ⟨⟨[3, 1, 5], by simp, by simp⟩, [2, 0, 4], rfl⟩

theorem ipv4_image_exact_last :
    checkTopologyFits lastNaddr.topology = .ok () ∧ lastNaddr.IsReal ∧
      (∃ net, gnodeDestination lastNaddr ⟨2, 3⟩ = .ok net ∧ net.IsCanonical) ∧
      ¬ BlockCovers lastNaddr ⟨0, 1⟩ lastNaddr := by
  have hfits : checkTopologyFits lastNaddr.topology = .ok () := by decide +kernel
  have hreal : lastNaddr.IsReal := by decide +kernel
  obtain ⟨-, hgnode, -, hnone⟩ := ipv4_image_exact hfits hreal
  obtain ⟨net, hnet, hcanonical, -⟩ := hgnode ⟨2, 3⟩ ⟨5, rfl, by decide +kernel⟩
  have hown : lastNaddr.pos 0 ≠ some 1 := by decide +kernel
  exact ⟨hfits, hreal, ⟨net, hnet, hcanonical⟩, hnone ⟨0, 1⟩ ⟨3, rfl, by decide +kernel⟩ hown⟩

end Netsukuku
