import Mathlib
import Netsukuku.Core.Outcome
import Netsukuku.Core.Encoding
import Netsukuku.Andna.Snsd

/-!
# Registrations and the hostname cache

A name is claimed by a signed request.  The node that hosts the name keeps one record for it, and
`Cache.register` decides what a further request does to that record: a renewal by the owner, a
takeover of an expired name, or a refusal.

* `RegisterRequest.signingBytes` — what the signature covers.
* `Cache.checkRegister` — every check of `register`, in the source's order; none of them writes.
* `Cache.register`, `Cache.purgeExpired` — the two operations that write the cache.

The signature scheme is a parameter: `Ed25519` has the bytes of a public key and the verdict on a
signature, and nothing is assumed about either.
-/

namespace Netsukuku

/-- The signature scheme, as far as a request uses it. -/
class Ed25519 (Key Signature : Type) where
  keyBytes : Key → List UInt8
  verify : Key → List UInt8 → Signature → Bool

/-- A span of time: whole seconds and a rest below one second. -/
structure Duration where
  secs : ℕ
  nanos : ℕ
  nanos_lt : nanos < 10 ^ 9
  deriving DecidableEq, Repr

namespace Duration

def fromSecs (secs : ℕ) : Duration := ⟨secs, 0, by decide⟩

/-- `as_secs`: the rest below one second is dropped. -/
def asSecs (d : Duration) : ℕ := d.secs

def asNanos (d : Duration) : ℕ := d.secs * 10 ^ 9 + d.nanos

instance : LT Duration := ⟨fun a b => a.asNanos < b.asNanos⟩

instance (a b : Duration) : Decidable (a < b) := inferInstanceAs (Decidable (_ < _))

end Duration

/-- `MAX_TIMESTAMP_SKEW_SECS`. -/
def maxTimestampSkewSecs : ℕ := 3600

/-- `encode_target`. -/
def encodeTarget : SnsdTarget → List UInt8
  | .address naddr =>
      0 :: leBytes 4 naddr.positions.length ++
        (naddr.topology.gsizes.flatMap fun g => leBytes 4 g.toNat) ++
        naddr.positions.flatMap fun p => leBytes 4 p.toNat
  | .alias hostname =>
      1 :: leBytes 4 hostname.name.utf8ByteSize ++ hostname.name.toUTF8.toList

/-- A signed registration or renewal of a name. -/
structure RegisterRequest (Key Signature : Type) where
  hostname : Hostname
  ownerKey : Key
  ownerNaddr : Naddr
  sequence : UInt64
  timestampUnix : UInt64
  zeroPriority : UInt8
  zeroWeight : UInt8
  snsdRecords : List SnsdRecord
  signature : Signature

/-- What a hosting node keeps about a name. -/
structure HostedRecord (Key : Type) where
  ownerKey : Key
  sequence : UInt64
  registeredAt : ℕ
  renewedAt : ℕ
  expiresAt : ℕ
  snsd : SnsdTable

inductive RegisterOutcome where
  | registered (expiresAt : ℕ)
  | renewed (expiresAt : ℕ)
  deriving DecidableEq, Repr

inductive SnsdCapError where
  | total (max : ℕ)
  | perService (service max : ℕ)
  deriving DecidableEq, Repr

/-- Why `register` declined a request. -/
inductive RegisterRejected where
  | invalidSignature
  | reservedServiceZero
  | ownedByOther
  | staleSequence (given stored : UInt64)
  | renewalTooSoon (retryAfter : Duration)
  | snsdCap (e : SnsdCapError)
  | hostCapacityExceeded (cap : ℕ)
  | staleTimestamp (timestamp : UInt64) (now : ℕ)
  | weightTooLarge (weight : UInt8)
  deriving DecidableEq, Repr

/-- `snsd_error`: an insertion is refused for its caps only. -/
def snsdError : AndnaError → Outcome RegisterRejected SnsdCapError
  | .tooManySnsdRecords max => .ok (.total max)
  | .tooManyRecordsForService service max => .ok (.perService service max)
  | _ => .error (.panic "SnsdTable::insert never returns this for a capacity check")

/-- The limits a registration is checked against. -/
structure RegisterLimits where
  minRenewalInterval : Duration
  maxSnsdPerService : ℕ
  maxSnsdTotal : ℕ
  maxHostedRecords : ℕ

namespace RegisterRequest

variable {Key Signature : Type} [Ed25519 Key Signature]

/-- `signing_bytes`: every field but the signature, variable-length data behind its length. -/
def signingBytes (req : RegisterRequest Key Signature) : List UInt8 :=
  leBytes 4 req.hostname.name.utf8ByteSize ++ req.hostname.name.toUTF8.toList ++
    Ed25519.keyBytes Signature req.ownerKey ++ encodeTarget (.address req.ownerNaddr) ++
    leBytes 8 req.sequence.toNat ++ leBytes 8 req.timestampUnix.toNat ++
    [req.zeroPriority, req.zeroWeight] ++ leBytes 4 req.snsdRecords.length ++
    req.snsdRecords.flatMap fun r =>
      leBytes 2 r.service.toNat ++ [r.priority, r.weight] ++ encodeTarget r.target

/-- `verify`. -/
def verify (req : RegisterRequest Key Signature) : Bool :=
  Ed25519.verify req.ownerKey req.signingBytes req.signature

/-- The table a request asks for: the zero record, then the others one by one. -/
def snsdTable (req : RegisterRequest Key Signature) (limits : RegisterLimits) :
    Outcome RegisterRejected SnsdTable :=
  let zero := SnsdTable.new.setZeroRecord req.ownerNaddr req.zeroPriority req.zeroWeight
  req.snsdRecords.foldlM (fun t record =>
    match t.insert record limits.maxSnsdPerService limits.maxSnsdTotal with
    | (t', .ok ()) => .ok t'
    | (_, .error (.err e)) => do Outcome.fail (.snsdCap (← snsdError e))
    | (_, .error (.panic site)) => .error (.panic site)) zero

end RegisterRequest

namespace HostedRecord

variable {Key : Type}

def isExpired (r : HostedRecord Key) (now : ℕ) : Bool := decide (r.expiresAt ≤ now)

end HostedRecord

/-- The names this node hosts. -/
structure Cache (Key : Type) where
  records : KeyedMap Hostname (HostedRecord Key)

namespace Cache

variable {Key Signature : Type}

def new : Cache Key := ⟨KeyedMap.empty⟩

section Register

variable [DecidableEq Key] [Ed25519 Key Signature]

/-- The slot is free for a registration, as opposed to a renewal: nothing is hosted, or what is
hosted is expired or another's. -/
def isFreshSlot (c : Cache Key) (req : RegisterRequest Key Signature) (now : ℕ) : Bool :=
  (c.records.get? req.hostname).all fun existing =>
    existing.isExpired now || decide (existing.ownerKey ≠ req.ownerKey)

/-- The policy on the record already there: a renewal must move the sequence on and must not come
too soon, and a live record of another owner stays. -/
def checkSlot (c : Cache Key) (req : RegisterRequest Key Signature) (now : ℕ)
    (minRenewalInterval : Duration) : Outcome RegisterRejected Unit :=
  if c.isFreshSlot req now then
    match c.records.get? req.hostname with
    | some existing =>
        if !existing.isExpired now && decide (existing.ownerKey ≠ req.ownerKey) then
          Outcome.fail .ownedByOther
        else .ok ()
    | none => .ok ()
  else do
    let existing ← Outcome.expect "checked above" (c.records.get? req.hostname)
    if req.sequence ≤ existing.sequence then
      Outcome.fail (.staleSequence req.sequence existing.sequence)
    else
      let minNext := min (existing.renewedAt + minRenewalInterval.asSecs) (2 ^ 64 - 1)
      if now < minNext then
        Outcome.fail (.renewalTooSoon (Duration.fromSecs (minNext - now)))
      else .ok ()

/-- Everything `register` checks and computes before it writes: the new table and the new
expiry. -/
def checkRegister (c : Cache Key) (req : RegisterRequest Key Signature) (now : ℕ) (ttl : Duration)
    (limits : RegisterLimits) : Outcome RegisterRejected (SnsdTable × ℕ) :=
  if !req.verify then Outcome.fail .invalidSignature
  else if req.snsdRecords.any fun r => decide (r.service = zeroService) then
    Outcome.fail .reservedServiceZero
  else if maxWeight < req.zeroWeight then Outcome.fail (.weightTooLarge req.zeroWeight)
  else if maxTimestampSkewSecs < Nat.dist req.timestampUnix.toNat now then
    Outcome.fail (.staleTimestamp req.timestampUnix now)
  else if !c.records.contains req.hostname &&
      decide (limits.maxHostedRecords ≤ c.records.entries.length) then
    Outcome.fail (.hostCapacityExceeded limits.maxHostedRecords)
  else do
    c.checkSlot req now limits.minRenewalInterval
    let snsd ← req.snsdTable limits
    let expiresAt ← Outcome.checkedAdd 64 now ttl.asSecs
    .ok (snsd, expiresAt)

/-- `register`: the cache afterwards, and the answer. -/
def register (c : Cache Key) (req : RegisterRequest Key Signature) (now : ℕ) (ttl : Duration)
    (limits : RegisterLimits) : Cache Key × Outcome RegisterRejected RegisterOutcome :=
  match c.checkRegister req now ttl limits with
  | .error e => (c, .error e)
  | .ok (snsd, expiresAt) =>
      if c.isFreshSlot req now then
        (⟨c.records.insertOrdered req.hostname
          ⟨req.ownerKey, req.sequence, now, now, expiresAt, snsd⟩⟩, .ok (.registered expiresAt))
      else
        match c.records.get? req.hostname with
        | some record =>
            (⟨c.records.insertOrdered req.hostname
              { record with
                sequence := req.sequence
                renewedAt := now
                expiresAt := expiresAt
                snsd := snsd }⟩, .ok (.renewed expiresAt))
        | none => (c, .error (.panic "is_fresh_slot=false implies a live record exists"))

end Register

/-- `purge_expired`: the cache afterwards, and the names freed. -/
def purgeExpired (c : Cache Key) (now : ℕ) : Cache Key × List Hostname :=
  let expired := (c.records.entries.filter fun e => e.2.isExpired now).map Prod.fst
  (⟨expired.foldl KeyedMap.erase c.records⟩, expired)

end Cache

end Netsukuku
