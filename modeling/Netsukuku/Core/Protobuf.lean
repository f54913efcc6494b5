import Mathlib

/-!
# Protocol buffers

A message in the `proto3` encoding is a sequence of numbered fields, each a varint or a text behind
its length; a field at its default is left out.  Messages are built from such fields, so a codec of
a message is put together from codecs of its fields, and each carries the proof that it reads back
what it wrote.

* `varint`, `readVarint` — seven bits a byte.
* `bytes`, `parse` — a sequence of fields, and the fields of a text (`parse_bytes`).
* `FieldCodec` — a value from all the fields of one number: `scalar`, `packed`, `embedded`,
  `repeated` and their like.
* `MessageCodec` — a message from its fields (`MessageCodec.decode_encode`).

Numbers have no width here and the two fixed-width wire types are left out.
-/

namespace Netsukuku

namespace Protobuf

/-! ## Varints -/

/-- Seven bits a byte, the lowest first, in at most `fuel + 1` bytes. -/
def varintIn : ℕ → ℕ → List UInt8
  | 0, n => [UInt8.ofNat n]
  | fuel + 1, n =>
      if n < 128 then [UInt8.ofNat n]
      else UInt8.ofNat (n % 128 + 128) :: varintIn fuel (n / 128)

def varint (n : ℕ) : List UInt8 := varintIn n n

/-- The number at the front, and what follows it. -/
def readVarint : List UInt8 → Option (ℕ × List UInt8)
  | [] => none
  | b :: bs =>
      if b.toNat < 128 then some (b.toNat, bs)
      else (readVarint bs).map fun r => (b.toNat - 128 + 128 * r.1, r.2)

lemma toNat_ofNat_of_lt {n : ℕ} (h : n < 256) : (UInt8.ofNat n).toNat = n := by
  rw [UInt8.toNat_ofNat', Nat.mod_eq_of_lt h]

lemma readVarint_varintIn {fuel n : ℕ} (h : n ≤ fuel) (rest : List UInt8) :
    readVarint (varintIn fuel n ++ rest) = some (n, rest) := by
  induction fuel generalizing n with
  | zero =>
      obtain rfl := Nat.le_zero.mp h
      rfl
  | succ fuel ih =>
      rw [varintIn]
      split_ifs with hsmall
      · rw [List.singleton_append, readVarint, toNat_ofNat_of_lt (by omega), if_pos hsmall]
      · rw [List.cons_append, readVarint, toNat_ofNat_of_lt (by omega), if_neg (by omega),
          ih (by omega), Option.map_some]
        simp only [Option.some.injEq, Prod.mk.injEq, and_true]
        omega

lemma readVarint_varint (n : ℕ) (rest : List UInt8) :
    readVarint (varint n ++ rest) = some (n, rest) :=
  readVarint_varintIn le_rfl rest

lemma varint_ne_nil (n : ℕ) : varint n ≠ [] := by
  intro h
  have hread := readVarint_varint n []
  rw [h] at hread
  cases hread

/-- All the numbers of a text; `fuel` bounds how many. -/
def readVarints : ℕ → List UInt8 → Option (List ℕ)
  | _, [] => some []
  | 0, _ :: _ => none
  | fuel + 1, b :: bs => do
      let r ← readVarint (b :: bs)
      let numbers ← readVarints fuel r.2
      some (r.1 :: numbers)

lemma readVarints_flatMap {fuel : ℕ} {l : List ℕ} (h : l.length ≤ fuel) :
    readVarints fuel (l.flatMap varint) = some l := by
  induction l generalizing fuel with
  | nil => cases fuel <;> rfl
  | cons n l ih =>
      obtain ⟨fuel, rfl⟩ := Nat.exists_eq_add_one_of_ne_zero
        (Nat.ne_of_gt (Nat.lt_of_lt_of_le (Nat.succ_pos _) h))
      obtain ⟨b, bs, hbytes⟩ := List.exists_cons_of_ne_nil (varint_ne_nil n)
      have hread := readVarint_varint n (l.flatMap varint)
      rw [List.flatMap_cons, hbytes, List.cons_append, readVarints, ← List.cons_append, ← hbytes,
        hread]
      simp only [Option.bind_eq_bind, Option.bind_some, ih (Nat.le_of_succ_le_succ h)]

lemma length_le_flatMap_varint (l : List ℕ) : l.length ≤ (l.flatMap varint).length := by
  induction l with
  | nil => exact le_rfl
  | cons n l ih =>
      have hpos := List.length_pos_iff.mpr (varint_ne_nil n)
      rw [List.flatMap_cons, List.length_append, List.length_cons]
      omega

/-! ## Fields -/

/-- What one field carries. -/
inductive Payload where
  | number (n : ℕ)
  | text (bs : List UInt8)
  deriving DecidableEq, Repr

namespace Payload

def wireType : Payload → ℕ
  | number _ => 0
  | text _ => 2

def bytes : Payload → List UInt8
  | number n => varint n
  | text bs => varint bs.length ++ bs

/-- The number, where it is one. -/
def number? : Payload → Option ℕ
  | number n => some n
  | text _ => none

/-- The text, where it is one. -/
def text? : Payload → Option (List UInt8)
  | number _ => none
  | text bs => some bs

def read (wireType : ℕ) (bs : List UInt8) : Option (Payload × List UInt8) :=
  if wireType = 0 then (readVarint bs).map fun r => (number r.1, r.2)
  else if wireType = 2 then
    (readVarint bs).bind fun r =>
      if r.1 ≤ r.2.length then some (text (r.2.take r.1), r.2.drop r.1) else none
  else none

lemma read_bytes (p : Payload) (rest : List UInt8) :
    read p.wireType (p.bytes ++ rest) = some (p, rest) := by
  cases p with
  | number n => rw [read, wireType, if_pos rfl, bytes, readVarint_varint, Option.map_some]
  | text bs =>
      rw [read, wireType, if_neg (by decide), if_pos rfl, bytes, List.append_assoc,
        readVarint_varint, Option.bind_some, if_pos (by simp)]
      simp

end Payload

/-- The number of a field, and what it carries. -/
abbrev Field : Type := ℕ × Payload

def Field.bytes (f : Field) : List UInt8 := varint (8 * f.1 + f.2.wireType) ++ f.2.bytes

/-- The fields one after the other. -/
def bytes (fs : List Field) : List UInt8 := fs.flatMap Field.bytes

/-- The fields of a text; `fuel` bounds how many. -/
def parse : ℕ → List UInt8 → Option (List Field)
  | _, [] => some []
  | 0, _ :: _ => none
  | fuel + 1, b :: bs => do
      let key ← readVarint (b :: bs)
      let payload ← Payload.read (key.1 % 8) key.2
      let fields ← parse fuel payload.2
      some ((key.1 / 8, payload.1) :: fields)

lemma Field.bytes_ne_nil (f : Field) : f.bytes ≠ [] := by
  rw [Field.bytes]
  exact List.append_ne_nil_of_left_ne_nil (varint_ne_nil _) _

lemma length_le_bytes (fs : List Field) : fs.length ≤ (bytes fs).length := by
  induction fs with
  | nil => exact le_rfl
  | cons f fs ih =>
      have hpos := List.length_pos_iff.mpr f.bytes_ne_nil
      rw [bytes, List.flatMap_cons, List.length_append, List.length_cons]
      rw [bytes] at ih
      omega

lemma parse_bytes_of_le {fuel : ℕ} {fs : List Field} (h : fs.length ≤ fuel) :
    parse fuel (bytes fs) = some fs := by
  induction fs generalizing fuel with
  | nil => cases fuel <;> rfl
  | cons f fs ih =>
      obtain ⟨number, payload⟩ := f
      obtain ⟨fuel, rfl⟩ := Nat.exists_eq_add_one_of_ne_zero
        (Nat.ne_of_gt (Nat.lt_of_lt_of_le (Nat.succ_pos _) h))
      have hrest := ih (Nat.le_of_succ_le_succ h)
      obtain ⟨b, bs, hbytes⟩ := List.exists_cons_of_ne_nil (Field.bytes_ne_nil (number, payload))
      have hkey := readVarint_varint (8 * number + payload.wireType) (payload.bytes ++ bytes fs)
      rw [← List.append_assoc] at hkey
      have hwire : (8 * number + payload.wireType) % 8 = payload.wireType := by
        cases payload with
        | number n => simp [Payload.wireType]
        | text bs => simp [Payload.wireType]
      have hnumber : (8 * number + payload.wireType) / 8 = number := by
        cases payload with
        | number n => simp [Payload.wireType]
        | text bs =>
            simp only [Payload.wireType]
            omega
      rw [bytes, List.flatMap_cons, hbytes, List.cons_append, parse, ← List.cons_append, ← hbytes]
      rw [Field.bytes, ← bytes, hkey]
      simp only [Option.bind_eq_bind, Option.bind_some, hwire, Payload.read_bytes, hrest, hnumber]

lemma parse_bytes (fs : List Field) : parse (bytes fs).length (bytes fs) = some fs :=
  parse_bytes_of_le (length_le_bytes fs)

/-- What the fields of one number carry. -/
def occurrences (number : ℕ) (fs : List Field) : List Payload :=
  (fs.filter fun f => f.1 = number).map Prod.snd

/-- Fields of one number. -/
def numbered (number : ℕ) (ps : List Payload) : List Field := ps.map (Prod.mk number)

@[simp] lemma occurrences_nil (number : ℕ) : occurrences number [] = [] := rfl

@[simp] lemma occurrences_append (number : ℕ) (fs gs : List Field) :
    occurrences number (fs ++ gs) = occurrences number fs ++ occurrences number gs := by
  simp [occurrences]

@[simp] lemma occurrences_numbered (number other : ℕ) (ps : List Payload) :
    occurrences number (numbered other ps) = if number = other then ps else [] := by
  split_ifs with h
  · rw [h, occurrences, numbered, List.filter_eq_self.mpr, List.map_map]
    · exact List.map_id _
    · simp
  · simp [occurrences, numbered, Ne.symm h]

/-! ## Codecs -/

/-- A value as what the fields of one number carry, in their order. -/
structure FieldCodec (α : Type) where
  encode : α → List Payload
  decode : List Payload → Option α
  decode_encode : ∀ a, decode (encode a) = some a

attribute [simp] FieldCodec.decode_encode

/-- A message as its fields. -/
structure MessageCodec (M : Type) where
  fields : M → List Field
  read : List Field → Option M
  read_fields : ∀ m, read (fields m) = some m

namespace MessageCodec

variable {M : Type}

def encode (c : MessageCodec M) (m : M) : List UInt8 := bytes (c.fields m)

def decode (c : MessageCodec M) (bs : List UInt8) : Option M :=
  (parse bs.length bs).bind c.read

theorem decode_encode (c : MessageCodec M) (m : M) : c.decode (c.encode m) = some m := by
  rw [decode, encode, parse_bytes, Option.bind_some, c.read_fields]

end MessageCodec

/-- How a number of some width is written as a varint. -/
structure Number (α : Type) where
  toNumber : α → ℕ
  ofNumber : ℕ → α
  ofNumber_toNumber : ∀ a, ofNumber (toNumber a) = a

namespace Number

def uint32 : Number UInt32 := ⟨UInt32.toNat, UInt32.ofNat, fun _ => UInt32.ofNat_toNat⟩

def uint64 : Number UInt64 := ⟨UInt64.toNat, UInt64.ofNat, fun _ => UInt64.ofNat_toNat⟩

lemma int32_back (n : Int32) : (UInt32.ofNat n.toInt64.toUInt64.toNat).toInt32 = n := by
  have hwidth : (n.toBitVec.signExtend 64).setWidth 32 = n.toBitVec := by
    ext i hi
    rw [BitVec.getElem_setWidth, BitVec.getLsbD_signExtend, if_pos hi]
    simp [BitVec.getLsbD_eq_getElem hi, Nat.lt_trans hi (by decide : 32 < 64)]
  rw [← Int32.toBitVec_inj]
  simpa using hwidth

/-- Negative numbers are written as if of 64 bits. -/
def int32 : Number Int32 :=
  ⟨fun n => n.toInt64.toUInt64.toNat, fun n => (UInt32.ofNat n).toInt32, int32_back⟩

def bool : Number Bool := ⟨Bool.toNat, fun n => decide (n ≠ 0), fun b => by cases b <;> rfl⟩

end Number

namespace FieldCodec

variable {α M : Type}

/-- The last value given, if all that are given are of the right kind. -/
def lastOf (read : Payload → Option α) (start : α) (ps : List Payload) : Option α :=
  ps.foldlM (fun _ p => read p) start

/-- A number, left out at its default; of several the last counts. -/
def scalar [DecidableEq α] (number : Number α) (zero : α) : FieldCodec α where
  encode a := if a = zero then [] else [.number (number.toNumber a)]
  decode := lastOf (fun p => p.number?.map number.ofNumber) zero
  decode_encode a := by
    split_ifs with h
    · rw [h]
      rfl
    · exact congrArg some (number.ofNumber_toNumber a)

/-- A number that may be absent. -/
def optional (number : Number α) : FieldCodec (Option α) where
  encode a := (a.map fun a => .number (number.toNumber a)).toList
  decode := lastOf (fun p => p.number?.map fun n => some (number.ofNumber n)) none
  decode_encode a := by
    cases a with
    | none => rfl
    | some a => exact congrArg (fun a => some (some a)) (number.ofNumber_toNumber a)

/-- A text, left out if empty; of several the last counts. -/
def text : FieldCodec (List UInt8) where
  encode bs := if bs = [] then [] else [.text bs]
  decode := lastOf Payload.text? []
  decode_encode bs := by
    split_ifs with h
    · rw [h]
      rfl
    · rfl

/-- The numbers of one field: a single one, or a text of many. -/
def numbersOf : Payload → Option (List ℕ)
  | .number n => some [n]
  | .text bs => readVarints bs.length bs

/-- Many numbers, written into one text. -/
def packed (number : Number α) : FieldCodec (List α) where
  encode l :=
    if l = [] then [] else [.text ((l.map number.toNumber).flatMap varint)]
  decode ps := (ps.mapM numbersOf).map fun ls => ls.flatten.map number.ofNumber
  decode_encode l := by
    split_ifs with h
    · rw [h]
      rfl
    · have hread := readVarints_flatMap (length_le_flatMap_varint (l.map number.toNumber))
      have hback : number.ofNumber ∘ number.toNumber = id := funext number.ofNumber_toNumber
      rw [List.mapM_cons, List.mapM_nil, numbersOf, hread]
      simp [hback]

/-- A message that may be absent; given in several parts, it is the message of them all. -/
def embedded (c : MessageCodec M) : FieldCodec (Option M) where
  encode m := (m.map fun m => .text (c.encode m)).toList
  decode ps :=
    if ps = [] then some none
    else (ps.mapM Payload.text?).bind fun texts => (c.decode texts.flatten).map some
  decode_encode m := by
    cases m with
    | none => rfl
    | some m => simp [Payload.text?, c.decode_encode]

/-- Any number of messages. -/
def repeated (c : MessageCodec M) : FieldCodec (List M) where
  encode l := l.map fun m => .text (c.encode m)
  decode ps := ps.mapM fun p => p.text?.bind c.decode
  decode_encode l := by
    induction l with
    | nil => rfl
    | cons m l ih =>
        rw [List.map_cons, List.mapM_cons, ih]
        simp [Payload.text?, c.decode_encode]

end FieldCodec

end Protobuf

end Netsukuku
