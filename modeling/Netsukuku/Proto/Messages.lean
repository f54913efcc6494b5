import Mathlib
import Netsukuku.Core.Protobuf
import Netsukuku.Proto.Domain

/-!
# The messages of `domain.proto`

Each message with the numbers and the kinds of its fields.  A codec put together from them is an
encoding as `prost` generates it, and reads back every message (`prost_decodes`).
-/

namespace Netsukuku

open Protobuf

section Generated

variable {M : Type}

/-- The generated encoding of a message. -/
def Protobuf.MessageCodec.prost (c : MessageCodec M) : Prost M where
  encodeToVec := c.encode
  decode bs :=
    match c.decode bs with
    | some msg => .ok msg
    | none => .error "failed to decode Protobuf message"

lemma Protobuf.MessageCodec.prost_decodes (c : MessageCodec M) (msg : M) :
    c.prost.Decodes msg := by
  have hdecode := c.decode_encode msg
  simp only [Prost.Decodes, prost, hdecode]

end Generated

namespace V1

def Topology.codec : MessageCodec Topology where
  fields m := numbered 1 ((FieldCodec.packed .uint32).encode m.gsizes)
  read fs := do
    let gsizes ← (FieldCodec.packed .uint32).decode (occurrences 1 fs)
    some ⟨gsizes⟩
  read_fields m := by simp

def Naddr.codec : MessageCodec Naddr where
  fields m :=
    numbered 1 ((FieldCodec.embedded Topology.codec).encode m.topology) ++
      numbered 2 ((FieldCodec.packed .uint32).encode m.pos)
  read fs := do
    let topology ← (FieldCodec.embedded Topology.codec).decode (occurrences 1 fs)
    let pos ← (FieldCodec.packed .uint32).decode (occurrences 2 fs)
    some ⟨topology, pos⟩
  read_fields m := by simp

def HCoord.codec : MessageCodec HCoord where
  fields m :=
    numbered 1 ((FieldCodec.scalar .uint64 0).encode m.level) ++
      numbered 2 ((FieldCodec.scalar .uint32 0).encode m.pos)
  read fs := do
    let level ← (FieldCodec.scalar .uint64 0).decode (occurrences 1 fs)
    let pos ← (FieldCodec.scalar .uint32 0).decode (occurrences 2 fs)
    some ⟨level, pos⟩
  read_fields m := by simp

/-- The field of an arm of the `oneof`, written even at its default. -/
def CostValue.field : CostValue → Field
  | .null set => (1, .number (Number.bool.toNumber set))
  | .finite magnitude => (2, .number (Number.uint64.toNumber magnitude))
  | .dead set => (3, .number (Number.bool.toNumber set))

/-- The arm after one more field: the last one given is set. -/
def CostValue.readField (held : Option CostValue) (f : Field) : Option (Option CostValue) :=
  match f.1 with
  | 1 => f.2.number?.map fun n => some (.null (Number.bool.ofNumber n))
  | 2 => f.2.number?.map fun n => some (.finite (Number.uint64.ofNumber n))
  | 3 => f.2.number?.map fun n => some (.dead (Number.bool.ofNumber n))
  | _ => some held

lemma CostValue.readField_field (held : Option CostValue) (value : CostValue) :
    readField held value.field = some (some value) := by
  cases value with
  | null set => exact congrArg (fun b => some (some (null b))) (Number.bool.ofNumber_toNumber set)
  | finite magnitude =>
      exact congrArg (fun v => some (some (finite v))) (Number.uint64.ofNumber_toNumber magnitude)
  | dead set => exact congrArg (fun b => some (some (dead b))) (Number.bool.ofNumber_toNumber set)

def Cost.codec : MessageCodec Cost where
  fields m := (m.value.map CostValue.field).toList
  read fs := (fs.foldlM CostValue.readField none).map Cost.mk
  read_fields m := by
    obtain ⟨value⟩ := m
    cases value with
    | none => rfl
    | some value => simp [CostValue.readField_field]

def OptionalEldership.codec : MessageCodec OptionalEldership where
  fields m := numbered 1 ((FieldCodec.optional .uint32).encode m.value)
  read fs := do
    let value ← (FieldCodec.optional .uint32).decode (occurrences 1 fs)
    some ⟨value⟩
  read_fields m := by simp

def Fingerprint.codec : MessageCodec Fingerprint where
  fields m :=
    numbered 1 (FieldCodec.text.encode m.id) ++
      numbered 2 ((FieldCodec.scalar .uint64 0).encode m.level) ++
      numbered 3 ((FieldCodec.optional .uint32).encode m.eldership) ++
      numbered 4 ((FieldCodec.packed .uint32).encode m.pendingElderships) ++
      numbered 5 ((FieldCodec.repeated OptionalEldership.codec).encode m.eldershipsSeed)
  read fs := do
    let id ← FieldCodec.text.decode (occurrences 1 fs)
    let level ← (FieldCodec.scalar .uint64 0).decode (occurrences 2 fs)
    let eldership ← (FieldCodec.optional .uint32).decode (occurrences 3 fs)
    let pendingElderships ← (FieldCodec.packed .uint32).decode (occurrences 4 fs)
    let eldershipsSeed ← (FieldCodec.repeated OptionalEldership.codec).decode (occurrences 5 fs)
    some ⟨id, level, eldership, pendingElderships, eldershipsSeed⟩
  read_fields m := by simp

end V1

end Netsukuku
