import Mathlib
import Netsukuku.Core.KeyedMap
import Netsukuku.Common.Address

/-!
# The identity registry

The identity map of one node and which of its entries is the main identity.  The role of an
identity is kept twice, in `mainId` and in the status of its record, and nothing but the callers of
`setStatus`, `reassignMain` and `dismiss` keeps the two copies together.

* `OneMain` — the two copies agree: `mainId` is registered with status `main`, every other
  registered identity has status `connectivity`.
-/

namespace Netsukuku.Identities

abbrev IdentityId : Type := UInt64

/-- `IdentityStatus`. -/
inductive IdentityStatus where
  | main
  | connectivity
  | dismissed
  deriving DecidableEq, Repr

/-- `IdentityRecord`: the position an identity holds, if any, and its role. -/
structure IdentityRecord where
  id : IdentityId
  naddr : Option Naddr
  status : IdentityStatus

abbrev ArcId : Type := UInt64

abbrev MigrationId : Type := Int32

/-- `Error`: what the registry and the actor refuse, and a failed call. -/
inductive Error where
  | unknownIdentity (id : IdentityId)
  | duplicateIdentity (id : IdentityId)
  | cannotRemoveMainIdentity
  | unknownArc (arc : ArcId)
  | duplicateArc (arc : ArcId)
  | duplicateMigration (migrationId : MigrationId) (oldId : IdentityId)
  | unknownMigration (migrationId : MigrationId) (oldId : IdentityId)
  | missingField (field : String)
  | unexpectedResponse (what : String)
  | rpc
  deriving DecidableEq, Repr

/-- `Registry`. -/
structure Registry where
  mainId : IdentityId
  identities : KeyedMap IdentityId IdentityRecord

namespace Registry

/-- `Registry::new`: a single main identity. -/
def new (mainId : IdentityId) (naddr : Option Naddr) : Registry where
  mainId := mainId
  identities := KeyedMap.empty.insert mainId ⟨mainId, naddr, .main⟩

def get (r : Registry) (id : IdentityId) : Option IdentityRecord := r.identities.get? id

/-- The ids now reachable. -/
def ids (r : Registry) : List IdentityId := r.identities.keys

/-- What `fresh_id` may return: an id `generate` makes, which is never `0`, and that is not in the
registry. -/
def Fresh (r : Registry) (id : IdentityId) : Prop := id ≠ 0 ∧ r.get id = none

/-- `Registry::insert`. -/
def insert (r : Registry) (record : IdentityRecord) : Registry × Except Error Unit :=
  if r.identities.contains record.id then (r, .error (.duplicateIdentity record.id))
  else ({ r with identities := r.identities.insert record.id record }, .ok ())

/-- `get_mut` and an assignment: `set_status` and `set_naddr` are this with their own field. -/
def update (r : Registry) (id : IdentityId) (f : IdentityRecord → IdentityRecord) :
    Registry × Except Error Unit :=
  match r.get id with
  | some record => ({ r with identities := r.identities.insert id (f record) }, .ok ())
  | none => (r, .error (.unknownIdentity id))

/-- `Registry::set_status`. -/
def setStatus (r : Registry) (id : IdentityId) (status : IdentityStatus) :
    Registry × Except Error Unit :=
  r.update id ({ · with status })

/-- `Registry::set_naddr`. -/
def setNaddr (r : Registry) (id : IdentityId) (naddr : Option Naddr) :
    Registry × Except Error Unit :=
  r.update id ({ · with naddr })

/-- `Registry::reassign_main`. -/
def reassignMain (r : Registry) (newMain : IdentityId) : Registry := { r with mainId := newMain }

/-- `Registry::dismiss`. -/
def dismiss (r : Registry) (id : IdentityId) : Registry × Except Error IdentityRecord :=
  if id = r.mainId then (r, .error .cannotRemoveMainIdentity)
  else
    match r.get id with
    | some record => ({ r with identities := r.identities.erase id }, .ok record)
    | none => (r, .error (.unknownIdentity id))

/-! ## What a lookup finds afterwards -/

variable (r : Registry)

lemma mem_ids {id : IdentityId} : id ∈ r.ids ↔ ∃ record, r.get id = some record :=
  KeyedMap.mem_keys_iff

@[simp] lemma new_mainId (id : IdentityId) (naddr : Option Naddr) :
    (new id naddr).mainId = id := rfl

lemma new_get (id : IdentityId) (naddr : Option Naddr) :
    (new id naddr).get = Function.update (fun _ => none) id (some ⟨id, naddr, .main⟩) :=
  KeyedMap.get?_insert_eq_update _ _ _

@[simp] lemma insert_mainId (record : IdentityRecord) : (r.insert record).1.mainId = r.mainId := by
  unfold insert
  split <;> rfl

lemma insert_get {record : IdentityRecord} (h : r.get record.id = none) :
    (r.insert record).1.get = Function.update r.get record.id (some record) := by
  have hc : r.identities.contains record.id = false := by
    rw [KeyedMap.contains, show r.identities.get? record.id = none from h]
    rfl
  rw [insert, hc, if_neg Bool.false_ne_true]
  exact KeyedMap.get?_insert_eq_update _ _ _

@[simp] lemma update_mainId (id : IdentityId) (f : IdentityRecord → IdentityRecord) :
    (r.update id f).1.mainId = r.mainId := by
  unfold update
  cases r.get id <;> rfl

lemma update_get (id : IdentityId) (f : IdentityRecord → IdentityRecord) :
    (r.update id f).1.get = Function.update r.get id ((r.get id).map f) := by
  cases h : r.get id with
  | none =>
      have hself := Function.update_eq_self id r.get
      rw [h] at hself
      rw [update, h, Option.map_none, hself]
  | some record =>
      rw [update, h]
      exact KeyedMap.get?_insert_eq_update _ _ _

@[simp] lemma setStatus_mainId (id : IdentityId) (status : IdentityStatus) :
    (r.setStatus id status).1.mainId = r.mainId := r.update_mainId _ _

@[simp] lemma setNaddr_mainId (id : IdentityId) (naddr : Option Naddr) :
    (r.setNaddr id naddr).1.mainId = r.mainId := r.update_mainId _ _

lemma setStatus_get (id : IdentityId) (status : IdentityStatus) :
    (r.setStatus id status).1.get
      = Function.update r.get id ((r.get id).map ({ · with status })) :=
  r.update_get _ _

lemma setNaddr_get (id : IdentityId) (naddr : Option Naddr) :
    (r.setNaddr id naddr).1.get
      = Function.update r.get id ((r.get id).map ({ · with naddr })) :=
  r.update_get _ _

@[simp] lemma reassignMain_mainId (id : IdentityId) : (r.reassignMain id).mainId = id := rfl

@[simp] lemma reassignMain_get (id : IdentityId) : (r.reassignMain id).get = r.get := rfl

@[simp] lemma dismiss_mainId (id : IdentityId) : (r.dismiss id).1.mainId = r.mainId := by
  unfold dismiss
  split
  · rfl
  · cases r.get id <;> rfl

lemma dismiss_get {id : IdentityId} (h : id ≠ r.mainId) :
    (r.dismiss id).1.get = Function.update r.get id none := by
  rw [dismiss, if_neg h]
  cases hg : r.get id with
  | none =>
      have hself := Function.update_eq_self id r.get
      rw [hg] at hself
      exact hself.symm
  | some record => exact KeyedMap.get?_erase_eq_update _ _

/-- An assignment to a record neither registers nor dismisses anything. -/
@[simp] lemma update_isSome (id : IdentityId) (f : IdentityRecord → IdentityRecord)
    (id' : IdentityId) : ((r.update id f).1.get id').isSome = (r.get id').isSome := by
  rw [update_get]
  by_cases h : id' = id
  · rw [h, Function.update_self, Option.isSome_map]
  · rw [Function.update_of_ne h]

/-- A dismissal leaves every other identity, and the main one in any case. -/
lemma dismiss_get_of_ne {id id' : IdentityId} (h : id' ≠ id ∨ id' = r.mainId) :
    (r.dismiss id).1.get id' = r.get id' := by
  by_cases hid : id = r.mainId
  · rw [dismiss, if_pos hid]
  · have hne : id' ≠ id := h.elim (fun h => h) fun h heq => hid (heq.symm.trans h)
    rw [dismiss_get r hid, Function.update_of_ne hne]

/-! ## The two copies of the role -/

/-- `mainId` is registered and has status `main`; every other registered identity has status
`connectivity`. -/
structure OneMain (r : Registry) : Prop where
  main : ∃ record, r.get r.mainId = some record ∧ record.status = .main
  others : ∀ id record, r.get id = some record → id ≠ r.mainId → record.status = .connectivity

variable {r}

theorem oneMain_new (id : IdentityId) (naddr : Option Naddr) : (new id naddr).OneMain where
  main := ⟨_, by rw [new_get, new_mainId, Function.update_self], rfl⟩
  others := by
    intro id' record h hne
    rw [new_get, Function.update_of_ne (by simpa using hne)] at h
    cases h

/-- What `OneMain` says of one record. -/
lemma OneMain.status_eq (h : r.OneMain) {id : IdentityId} {record : IdentityRecord}
    (hget : r.get id = some record) :
    record.status = if id = r.mainId then .main else .connectivity := by
  split
  · next hid =>
      obtain ⟨m, hm, hstatus⟩ := h.main
      rw [hid, hm] at hget
      exact Option.some.inj hget ▸ hstatus
  · next hid => exact h.others id record hget hid

end Registry

end Netsukuku.Identities
