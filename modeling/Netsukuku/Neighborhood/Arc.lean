import Mathlib
import Netsukuku.Core.KeyedMap
import Netsukuku.Common.Cost

/-!
# Arcs to neighbours, and the pure parts of the neighbourhood manager

* `Arc` — one discovered link to a neighbour on one of our own network interfaces.
* `emaStep`, `exceedsHysteresis` — the smoothing of the measured round-trip times and the gate a
  smoothed value passes before it is published.
* `parseIpv4` — the dotted form of an address, as the standard library reads it.
-/

namespace Netsukuku.Neighborhood

abbrev Mac : Type := String

abbrev Dev : Type := String

abbrev NicAddr : Type := String

/-- A public key; all that is ever asked of two is whether they are the same. -/
abbrev VerifyingKey : Type := ℕ

/-- A discovery id: a positive `i32`. -/
structure NodeId where
  raw : ℤ
  pos : 0 < raw
  le_max : raw ≤ 2147483647
  deriving DecidableEq

/-- The lifecycle of an arc. -/
inductive ArcState where
  | discovered
  | requested
  | established
  | removed
  deriving DecidableEq, Repr

/-- A link to one neighbour. -/
structure Arc where
  neighbourId : NodeId
  neighbourMac : Mac
  neighbourNicAddr : NicAddr
  myDev : Dev
  state : ArcState
  cost : Option Cost
  deriving DecidableEq

/-- `Arc::new`. -/
def Arc.new (neighbourId : NodeId) (neighbourMac : Mac) (neighbourNicAddr : NicAddr)
    (myDev : Dev) : Arc :=
  ⟨neighbourId, neighbourMac, neighbourNicAddr, myDev, .discovered, none⟩

/-! ## Costs -/

/-- One smoothing step: up by a tenth of the difference, down by a third, but always by one. -/
def emaStep (last sample : UInt64) : UInt64 :=
  let delta := sample.toInt64 - last.toInt64
  let damped : Int64 :=
    if delta = 0 then 0
    else if delta > 0 then (if delta / 10 < 1 then 1 else delta / 10)
    else (if delta / 3 > -1 then -1 else delta / 3)
  let next := last.toInt64 + damped
  (if next < 0 then 0 else next).toUInt64

/-- `saturating_mul(2)`. -/
def saturatingDouble (v : UInt64) : ℕ := min (v.toNat * 2) (2 ^ 64 - 1)

/-- The gate: below half of the published value, or twice it and more. -/
def exceedsHysteresis (published smoothed : UInt64) : Bool :=
  smoothed ≠ published ∧
    (saturatingDouble smoothed < published.toNat ∨ saturatingDouble published ≤ smoothed.toNat)

lemma not_exceedsHysteresis_self (v : UInt64) : exceedsHysteresis v v = false := by
  simp [exceedsHysteresis]

/-! ## Addresses -/

/-- One number of a dotted address: at most three digits, no leading zero, at most 255. -/
def readOctet (digits : List Char) : Option ℕ :=
  if digits = [] ∨ 3 < digits.length ∨ ¬digits.all Char.isDigit then none
  else if digits.head? = some '0' ∧ 1 < digits.length then none
  else
    let value := digits.foldl (fun n c => n * 10 + (c.toNat - 48)) 0
    if 255 < value then none else some value

/-- `parse::<Ipv4Addr>`, as the four octets. -/
def parseIpv4 (s : String) : Option (List ℕ) :=
  let groups := s.toList.splitOn '.'
  if groups.length = 4 then groups.mapM readOctet else none

/-- An address in `169.254.0.0/16`. -/
def isLinkLocal (s : String) : Bool :=
  match parseIpv4 s with
  | some (a :: b :: _) => a = 169 ∧ b = 254
  | _ => false

end Netsukuku.Neighborhood
