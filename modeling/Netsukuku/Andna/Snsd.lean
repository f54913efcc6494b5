import Mathlib
import Netsukuku.Core.KeyedMap
import Netsukuku.Common.Address

/-!
# Names and their service records

A host name is registered together with a table of records, one list per service number.  Service
0 is the name's own address; the others point to addresses or to further names.

* `Hostname` — a case-folded name.
* `SnsdTable.insert` — one more record, within the caps per service and in total.
* `SnsdTable.setZeroRecord` — the name's own address.
-/

namespace Netsukuku

/-- The errors of the naming service that a registration can meet. -/
inductive AndnaError where
  | invalidSignature
  | reservedServiceZero
  | weightTooLarge (weight : UInt8)
  | tooManySnsdRecords (max : ℕ)
  | tooManyRecordsForService (service : ℕ) (max : ℕ)
  deriving DecidableEq, Repr

/-- `ANDNA_MAX_HNAME_LEN` less the terminator. -/
def maxHostnameLen : ℕ := 511

/-- What `Hostname::new` accepts, after the case folding. -/
def IsHostname (name : String) : Prop :=
  name ≠ "" ∧ name.utf8ByteSize ≤ maxHostnameLen ∧
    ∀ c ∈ name.toList, (c.isDigit || c.isLower) = true

instance (name : String) : Decidable (IsHostname name) :=
  inferInstanceAs (Decidable (_ ∧ _ ∧ ∀ _ ∈ _, _))

structure Hostname where
  name : String
  valid : IsHostname name
  deriving DecidableEq

namespace Hostname

lemma name_injective : Function.Injective Hostname.name := by
  rintro ⟨a, ha⟩ ⟨b, hb⟩ h
  cases h
  rfl

/-- Names are kept in the order of their text. -/
instance : LinearOrder Hostname := LinearOrder.lift' Hostname.name name_injective

end Hostname

/-- What a record resolves to: an address, or another name to look up. -/
inductive SnsdTarget where
  | address (naddr : Naddr)
  | alias (hostname : Hostname)
  deriving DecidableEq

structure SnsdRecord where
  service : UInt16
  priority : UInt8
  weight : UInt8
  target : SnsdTarget
  deriving DecidableEq

def maxWeight : UInt8 := 127

def zeroService : UInt16 := 0

/-- The records of one name. -/
structure SnsdTable where
  byService : KeyedMap UInt16 (List SnsdRecord)
  total : ℕ

namespace SnsdTable

def new : SnsdTable := ⟨KeyedMap.empty, 0⟩

/-- `insert`: the bucket of the service exists afterwards even when the record is refused. -/
def insert (t : SnsdTable) (record : SnsdRecord) (maxPerService maxTotal : ℕ) :
    SnsdTable × Outcome AndnaError Unit :=
  if maxTotal ≤ t.total then (t, Outcome.fail (.tooManySnsdRecords maxTotal))
  else
    let bucket := (t.byService.get? record.service).getD []
    if maxPerService ≤ bucket.length then
      ({ t with byService := t.byService.insert record.service bucket },
        Outcome.fail (.tooManyRecordsForService record.service.toNat maxPerService))
    else
      (⟨t.byService.insert record.service (bucket ++ [record]), t.total + 1⟩, .ok ())

/-- `set_zero_record`: the whole service-0 entry becomes the owner's address. -/
def setZeroRecord (t : SnsdTable) (ownerNaddr : Naddr) (priority weight : UInt8) : SnsdTable :=
  let old := (t.byService.get? zeroService).getD []
  ⟨t.byService.insert zeroService [⟨zeroService, priority, weight, .address ownerNaddr⟩],
    t.total - old.length + 1⟩

end SnsdTable

end Netsukuku
