import Mathlib
import Netsukuku.Common.Address
import Netsukuku.Common.Cost
import Netsukuku.Common.Fingerprint
import Netsukuku.Rpc.Envelope

/-!
# The domain codec

The values of the shared types as the generated wire types carry them.  Encoding never fails;
decoding checks again what the domain types guarantee, for a peer is not trusted to send it.  The
bytes are `prost`'s: it is a parameter.

* `V1` — the wire types, each with `ofDomain` and `toDomain`.
* `Prost` — the generated encoding of one message type.
* `typedValue`, `fromTypedValue` — a message under its tag.
* `toDomain_ofDomain` in each namespace — what is decoded of what was encoded.

A level is a `usize` here and a `u64` on the wire; `usizeBits` is the width of the former.
-/

namespace Netsukuku

open Rpc (TypedValue)

/-- Why a wire value was not decoded. -/
inductive DomainDecodeError where
  | invalid (e : CommonError)
  | missingCostValue
  | missingTopology
  | integerOutOfRange (value : UInt64)
  | typeTagMismatch (expected actual : String)
  | payloadDecode (why : String)
  deriving DecidableEq, Repr

/-- `usize::try_from`. -/
def usizeOf (usizeBits : ℕ) (value : UInt64) : Outcome DomainDecodeError ℕ :=
  if value.toNat < 2 ^ usizeBits then .ok value.toNat else Outcome.fail (.integerOutOfRange value)

section Usize

variable {usizeBits : ℕ}

lemma usizeOf_ofNat (hbits : usizeBits ≤ 64) {level : ℕ} (h : level < 2 ^ usizeBits) :
    usizeOf usizeBits (UInt64.ofNat level) = .ok level := by
  have hlt : level < 2 ^ 64 := h.trans_le (Nat.pow_le_pow_right two_pos hbits)
  rw [usizeOf, UInt64.toNat_ofNat_of_lt' hlt, if_pos h]

lemma lt_of_usizeOf {value : UInt64} {level : ℕ} (h : usizeOf usizeBits value = .ok level) :
    level < 2 ^ usizeBits := by
  rw [usizeOf] at h
  split_ifs at h with hlt
  · cases h
    exact hlt
  · cases h

end Usize

namespace V1

/-! ## Topology and address -/

structure Topology where
  gsizes : List UInt32
  deriving DecidableEq

structure Naddr where
  topology : Option Topology
  pos : List UInt32
  deriving DecidableEq

def Topology.ofDomain (topology : Netsukuku.Topology) : Topology := ⟨topology.gsizes⟩

def Topology.toDomain (wire : Topology) : Outcome DomainDecodeError Netsukuku.Topology :=
  (Netsukuku.Topology.new wire.gsizes).mapErr .invalid

def Naddr.ofDomain (naddr : Netsukuku.Naddr) : Naddr :=
  ⟨some (.ofDomain naddr.topology), naddr.positions⟩

/-- A virtual position is a legitimate state, so only the number of positions is checked. -/
def Naddr.toDomain (wire : Naddr) : Outcome DomainDecodeError Netsukuku.Naddr := do
  let topologyWire ← match wire.topology with
    | some topology => .ok topology
    | none => Outcome.fail .missingTopology
  let topology ← topologyWire.toDomain
  (Netsukuku.Naddr.newAllowingVirtual topology wire.pos).mapErr .invalid

lemma Topology.toDomain_ofDomain (topology : Netsukuku.Topology) :
    (ofDomain topology).toDomain = .ok topology := by
  rw [toDomain, ofDomain, Netsukuku.Topology.new, dif_neg topology.nonempty,
    dif_pos topology.gsize_pos]
  rfl

lemma Naddr.toDomain_ofDomain (naddr : Netsukuku.Naddr) :
    (ofDomain naddr).toDomain = .ok naddr := by
  rw [toDomain, ofDomain]
  simp only [Outcome.ok_bind, Topology.toDomain_ofDomain]
  rw [Netsukuku.Naddr.newAllowingVirtual, dif_pos naddr.length_positions]
  rfl

/-! ## Coordinates -/

structure HCoord where
  level : UInt64
  pos : UInt32
  deriving DecidableEq

def HCoord.ofDomain (hcoord : Netsukuku.HCoord) : HCoord := ⟨UInt64.ofNat hcoord.level, hcoord.pos⟩

def HCoord.toDomain (usizeBits : ℕ) (wire : HCoord) :
    Outcome DomainDecodeError Netsukuku.HCoord := do
  let level ← usizeOf usizeBits wire.level
  .ok ⟨level, wire.pos⟩

section Coordinates

variable {usizeBits : ℕ} {hcoord : Netsukuku.HCoord}

lemma HCoord.toDomain_ofDomain (hbits : usizeBits ≤ 64) (h : hcoord.level < 2 ^ usizeBits) :
    (ofDomain hcoord).toDomain usizeBits = .ok hcoord := by
  rw [toDomain, ofDomain, usizeOf_ofNat hbits h]
  rfl

lemma HCoord.lt_of_toDomain {wire : HCoord} (h : wire.toDomain usizeBits = .ok hcoord) :
    hcoord.level < 2 ^ usizeBits := by
  obtain ⟨level, hlevel, h⟩ := Outcome.bind_eq_ok.mp h
  cases h
  exact lt_of_usizeOf hlevel

end Coordinates

/-! ## Costs -/

/-- The arms of the `oneof`; which one is set is all that the first and the last say. -/
inductive CostValue where
  | null (set : Bool)
  | finite (magnitude : UInt64)
  | dead (set : Bool)
  deriving DecidableEq

structure Cost where
  value : Option CostValue
  deriving DecidableEq

def Cost.ofDomain : Netsukuku.Cost → Cost
  | .null => ⟨some (.null true)⟩
  | .finite magnitude => ⟨some (.finite magnitude)⟩
  | .dead => ⟨some (.dead true)⟩

def Cost.toDomain (wire : Cost) : Outcome DomainDecodeError Netsukuku.Cost :=
  match wire.value with
  | some (.null _) => .ok .null
  | some (.finite magnitude) => .ok (.finite magnitude)
  | some (.dead _) => .ok .dead
  | none => Outcome.fail .missingCostValue

lemma Cost.toDomain_ofDomain (cost : Netsukuku.Cost) : (ofDomain cost).toDomain = .ok cost := by
  cases cost with
  | null => rfl
  | finite magnitude => rfl
  | dead => rfl

/-! ## Fingerprints -/

structure OptionalEldership where
  value : Option UInt32
  deriving DecidableEq

structure Fingerprint where
  id : List UInt8
  level : UInt64
  eldership : Option UInt32
  pendingElderships : List UInt32
  eldershipsSeed : List OptionalEldership
  deriving DecidableEq

def Fingerprint.ofDomain (fingerprint : Netsukuku.Fingerprint (List UInt8)) : Fingerprint :=
  let parts := fingerprint.toParts
  { id := parts.id
    level := UInt64.ofNat parts.level
    eldership := parts.eldership
    pendingElderships := parts.pendingElderships
    eldershipsSeed := parts.eldershipsSeed.map fun value => ⟨value⟩ }

def Fingerprint.toDomain (usizeBits : ℕ) (wire : Fingerprint) :
    Outcome DomainDecodeError (Netsukuku.Fingerprint (List UInt8)) := do
  let level ← usizeOf usizeBits wire.level
  let parts : FingerprintParts (List UInt8) :=
    { id := wire.id
      level
      eldership := wire.eldership
      pendingElderships := wire.pendingElderships
      eldershipsSeed := wire.eldershipsSeed.map OptionalEldership.value }
  (Netsukuku.Fingerprint.fromParts parts).mapErr .invalid

section Fingerprints

variable {usizeBits : ℕ} {fingerprint : Netsukuku.Fingerprint (List UInt8)}

lemma Fingerprint.toDomain_ofDomain (hbits : usizeBits ≤ 64)
    (hlevel : fingerprint.level < 2 ^ usizeBits) (h : fingerprint.Valid) :
    (ofDomain fingerprint).toDomain usizeBits = .ok fingerprint := by
  have hseed : (fingerprint.toParts.eldershipsSeed.map OptionalEldership.mk).map
      OptionalEldership.value = fingerprint.toParts.eldershipsSeed := by
    rw [List.map_map]
    exact List.map_id _
  have hparts := h.fromParts_toParts
  rw [toDomain, ofDomain]
  simp only [hseed]
  rw [show fingerprint.toParts.level = fingerprint.level from rfl, usizeOf_ofNat hbits hlevel,
    Outcome.ok_bind, Outcome.mapErr_eq_ok]
  exact hparts

lemma Fingerprint.valid_of_toDomain {wire : Fingerprint}
    (h : wire.toDomain usizeBits = .ok fingerprint) :
    fingerprint.Valid ∧ fingerprint.level < 2 ^ usizeBits := by
  obtain ⟨level, hlevel, h⟩ := Outcome.bind_eq_ok.mp h
  have hparts := Outcome.mapErr_eq_ok.mp h
  refine ⟨Netsukuku.Fingerprint.valid_of_fromParts hparts, ?_⟩
  rw [Netsukuku.Fingerprint.fromParts] at hparts
  split_ifs at hparts
  · cases hparts
  · cases hparts
    exact lt_of_usizeOf hlevel

end Fingerprints

end V1

/-! ## Tagged payloads -/

/-- The generated encoding of the messages `M`. -/
structure Prost (M : Type) where
  encodeToVec : M → List UInt8
  decode : List UInt8 → Except String M

variable {M : Type}

/-- It decodes what it encoded. -/
def Prost.Decodes (prost : Prost M) (msg : M) : Prop :=
  prost.decode (prost.encodeToVec msg) = .ok msg

def typedValue (prost : Prost M) (typeTag : String) (msg : M) : TypedValue :=
  ⟨typeTag, prost.encodeToVec msg⟩

def fromTypedValue (prost : Prost M) (tv : TypedValue) (expectedTag : String) :
    Outcome DomainDecodeError M :=
  if tv.typeTag ≠ expectedTag then Outcome.fail (.typeTagMismatch expectedTag tv.typeTag)
  else
    match prost.decode tv.payload with
    | .ok msg => .ok msg
    | .error why => Outcome.fail (.payloadDecode why)

lemma fromTypedValue_typedValue {prost : Prost M} {msg : M} (h : prost.Decodes msg)
    (typeTag : String) : fromTypedValue prost (typedValue prost typeTag msg) typeTag = .ok msg := by
  rw [fromTypedValue, typedValue, if_neg (by simp), h]

end Netsukuku
