import Mathlib
import Netsukuku.Identities.Actor

/-!
# Who is the main identity

The main role is handed over by a fork and handed back by an abort.  Both write `mainId` and the
statuses from records that may have changed since the fork.

* `State.handle_registry` — what a command can do to the registry.
* `Registry.OneMain.fork`, `Registry.OneMain.revert` — the two handovers keep `OneMain`; the second
  only while the identity the role is handed back to is not the main one already.
* `oneMain_and_abort_restores` — every run whose aborts are like that keeps exactly one main
  identity, and an abort right after its fork undoes it.
-/

namespace Netsukuku.Identities

/-! ## What a command does to the registry -/

namespace Registry

/-- The registry an abort leaves. -/
def revert (r : Registry) (newRecord : IdentityRecord) (oldId newId : IdentityId) : Registry :=
  (((if r.mainId = newId then r.reassignMain oldId else r).setStatus oldId
    newRecord.status).1.dismiss newId).1

/-- What a command may turn the registry into. -/
inductive Effect (d : Draw) (r : Registry) : Cmd → Registry → Prop
  | same (cmd : Cmd) : Effect d r cmd r
  | fork {migrationId : MigrationId} {oldId : IdentityId} {devices : Devices}
      {oldRecord : IdentityRecord} (hold : r.get oldId = some oldRecord) :
      Effect d r (.migrate migrationId oldId devices) (State.forkIdentity r oldRecord oldId d.newId)
  | dismissed {id : IdentityId} (hid : id ≠ r.mainId) :
      Effect d r (.removeIdentity id) (r.dismiss id).1
  | reverted {oldId newId : IdentityId} {oldRecord newRecord : IdentityRecord}
      (hold : r.get oldId = some oldRecord) (hnew : r.get newId = some newRecord) :
      Effect d r (.abortMigration oldId newId) (r.revert newRecord oldId newId)
  | moved (id : IdentityId) (naddr : Option Naddr) :
      Effect d r (.setNaddr id naddr) (r.setNaddr id naddr).1

end Registry

namespace State

@[simp] lemma removeArc_registry (s : State) (arc : ArcId) :
    (s.removeArc arc).1.registry = s.registry := by
  unfold removeArc
  split <;> rfl

lemma foldl_removeArc_registry (arcs : List ArcId) (s : State) :
    (arcs.foldl (fun s arc => (s.removeArc arc).1) s).registry = s.registry := by
  induction arcs generalizing s with
  | nil => rfl
  | cons arc arcs ih => rw [List.foldl_cons, ih, removeArc_registry]

@[simp] lemma onApplyMigrationDuplication_registry (s : State) (oldId newId : IdentityId)
    (outcomes : List ArcDuplicationOutcome) :
    (s.onApplyMigrationDuplication oldId newId outcomes).state.registry = s.registry := by
  unfold onApplyMigrationDuplication
  cases s.registry.get newId with
  | none => rfl
  | some record => exact foldl_removeArc_registry _ _

@[simp] lemma onNeighbourMigrated_registry (s : State) (myId oldId newId : IdentityId)
    (mac linklocal : String) (arc : ArcId) :
    (s.onNeighbourMigrated myId oldId newId mac linklocal arc).registry = s.registry := by
  unfold onNeighbourMigrated
  repeat' split
  all_goals rfl

@[simp] lemma onNotifyIdentityArcRemoved_registry (s : State) (myId peerId : IdentityId)
    (arc : ArcId) : (s.onNotifyIdentityArcRemoved myId peerId arc).registry = s.registry := by
  unfold onNotifyIdentityArcRemoved
  split <;> rfl

/-- What `on_migrate` does to the registry: nothing, or the fork of a registered identity. -/
lemma onMigrate_registry (d : Draw) (s : State) (migrationId : MigrationId) (oldId : IdentityId)
    (devices : Devices) :
    Registry.Effect d s.registry (.migrate migrationId oldId devices)
      (s.onMigrate d migrationId oldId devices).state.registry := by
  unfold onMigrate
  split
  · exact .same _
  · exact .same _
  · next hold => exact .fork hold

lemma onAbortMigration_registry (d : Draw) (s : State) (oldId newId : IdentityId) :
    Registry.Effect d s.registry (.abortMigration oldId newId)
      (s.onAbortMigration d oldId newId).state.registry := by
  unfold onAbortMigration
  split
  · exact .same _
  · exact .same _
  · next hnew hold => exact .reverted hold hnew

lemma onRemoveIdentity_registry (d : Draw) (s : State) (id : IdentityId) :
    Registry.Effect d s.registry (.removeIdentity id)
      (s.onRemoveIdentity d id).state.registry := by
  unfold onRemoveIdentity
  split
  · exact .same _
  · next hid =>
      cases s.registry.get id with
      | none => exact .same _
      | some record => exact .dismissed hid

/-- Everything a command can do to the registry. -/
theorem handle_registry (d : Draw) (s : State) (cmd : Cmd) :
    Registry.Effect d s.registry cmd (s.handle d cmd).state.registry := by
  cases cmd with
  | addArc arc info =>
      show Registry.Effect _ _ _ (s.onAddArc arc info).state.registry
      unfold onAddArc
      split <;> exact .same _
  | applyArcAdd arc peerMainId =>
      show Registry.Effect _ _ _ (s.onApplyArcAdd arc peerMainId).state.registry
      unfold onApplyArcAdd
      split
      · split <;> exact .same _
      · rw [removeArc_registry]
        exact .same _
  | removeArc arc =>
      show Registry.Effect _ _ _ (s.removeArc arc).1.registry
      rw [removeArc_registry]
      exact .same _
  | prepareMigration migrationId oldId =>
      show Registry.Effect _ _ _ (s.onPrepareMigration migrationId oldId).state.registry
      unfold onPrepareMigration
      split
      · exact .same _
      · split <;> exact .same _
  | migrate migrationId oldId devices => exact onMigrate_registry d s migrationId oldId devices
  | applyMigrationDuplication migrationId oldId newId outcomes =>
      show Registry.Effect _ _ _
        (s.onApplyMigrationDuplication oldId newId outcomes).state.registry
      rw [onApplyMigrationDuplication_registry]
      exact .same _
  | cleanupMigration migrationId oldId => exact .same _
  | removeIdentity id => exact onRemoveIdentity_registry d s id
  | abortMigration oldId newId => exact onAbortMigration_registry d s oldId newId
  | setNaddr id naddr => exact .moved id naddr
  | neighbourMigrated myId oldId newId mac linklocal arc =>
      show Registry.Effect _ _ _
        (s.onNeighbourMigrated myId oldId newId mac linklocal arc).registry
      rw [onNeighbourMigrated_registry]
      exact .same _
  | notifyIdentityArcRemoved myId peerId arc =>
      show Registry.Effect _ _ _ (s.onNotifyIdentityArcRemoved myId peerId arc).registry
      rw [onNotifyIdentityArcRemoved_registry]
      exact .same _

end State

/-! ## The handovers -/

namespace Registry

variable {r : Registry} {oldId newId id : IdentityId} {oldRecord newRecord : IdentityRecord}

lemma fork_mainId :
    (State.forkIdentity r oldRecord oldId newId).mainId
      = if r.mainId = oldId then newId else r.mainId := by
  unfold State.forkIdentity
  simp only [setStatus_mainId, insert_mainId]
  split
  · rfl
  · simp

lemma fork_get (hold : r.get oldId = some oldRecord) (hnew : r.get newId = none) :
    (State.forkIdentity r oldRecord oldId newId).get
      = Function.update (Function.update r.get newId (some ⟨newId, none, oldRecord.status⟩)) oldId
          (some { oldRecord with status := .connectivity }) := by
  have hne : oldId ≠ newId := by
    rintro rfl
    rw [hold] at hnew
    cases hnew
  have hget : ∀ r' : Registry, (if r'.mainId = oldId then r'.reassignMain newId else r').get
      = r'.get := by
    intro r'
    split <;> rfl
  unfold State.forkIdentity
  rw [hget, setStatus_get, insert_get r hnew, Function.update_of_ne hne, hold]
  rfl

/-- A fork keeps exactly one main identity. -/
theorem OneMain.fork (h : r.OneMain) (hold : r.get oldId = some oldRecord)
    (hnew : r.get newId = none) : (State.forkIdentity r oldRecord oldId newId).OneMain := by
  have hne : newId ≠ oldId := by
    rintro rfl
    rw [hold] at hnew
    cases hnew
  have hstatus := h.status_eq hold
  constructor
  · rw [fork_get hold hnew, fork_mainId]
    by_cases hm : r.mainId = oldId
    · rw [if_pos hm, Function.update_of_ne hne, Function.update_self]
      exact ⟨_, rfl, by rw [hstatus, if_pos hm.symm]⟩
    · obtain ⟨record, hrecord, hmain⟩ := h.main
      have hmn : r.mainId ≠ newId := by
        rintro hmn
        rw [hmn, hnew] at hrecord
        cases hrecord
      rw [if_neg hm, Function.update_of_ne hm, Function.update_of_ne hmn]
      exact ⟨record, hrecord, hmain⟩
  · intro id record hid hmain
    rw [fork_get hold hnew] at hid
    rw [fork_mainId] at hmain
    by_cases hio : id = oldId
    · rw [hio, Function.update_self] at hid
      exact Option.some.inj hid ▸ rfl
    · rw [Function.update_of_ne hio] at hid
      by_cases hin : id = newId
      · rw [hin, Function.update_self] at hid
        have hm : ¬r.mainId = oldId := fun hm => hmain (by rw [if_pos hm, hin])
        rw [← Option.some.inj hid]
        exact hstatus.trans (if_neg fun h => hm h.symm)
      · rw [Function.update_of_ne hin] at hid
        refine h.others id record hid fun him => hmain ?_
        rw [if_neg fun hm => hio (him.trans hm), him]

/-- Dismissing any other identity keeps the main one. -/
theorem OneMain.dismiss (h : r.OneMain) (hid : id ≠ r.mainId) : (r.dismiss id).1.OneMain := by
  constructor
  · rw [dismiss_get _ hid, dismiss_mainId, Function.update_of_ne hid.symm]
    exact h.main
  · intro id' record hget hne
    rw [dismiss_get _ hid] at hget
    rw [dismiss_mainId] at hne
    by_cases hid' : id' = id
    · rw [hid', Function.update_self] at hget
      cases hget
    · rw [Function.update_of_ne hid'] at hget
      exact h.others id' record hget hne

/-- A position is not a role. -/
theorem OneMain.setNaddr (h : r.OneMain) (id : IdentityId) (naddr : Option Naddr) :
    (r.setNaddr id naddr).1.OneMain := by
  constructor
  · obtain ⟨record, hrecord, hmain⟩ := h.main
    rw [setNaddr_get, setNaddr_mainId]
    by_cases hm : r.mainId = id
    · rw [← hm, Function.update_self, hrecord]
      exact ⟨_, rfl, hmain⟩
    · rw [Function.update_of_ne hm]
      exact ⟨record, hrecord, hmain⟩
  · intro id' record hget hne
    rw [setNaddr_get] at hget
    rw [setNaddr_mainId] at hne
    by_cases hid : id' = id
    · rw [hid, Function.update_self, Option.map_eq_some_iff] at hget
      obtain ⟨record', hrecord', rfl⟩ := hget
      exact h.others id record' hrecord' (hid ▸ hne)
    · rw [Function.update_of_ne hid] at hget
      exact h.others id' record hget hne

lemma revert_mainId :
    (r.revert newRecord oldId newId).mainId = if r.mainId = newId then oldId else r.mainId := by
  rw [revert, dismiss_mainId, setStatus_mainId]
  split <;> rfl

lemma revert_get (newRecord : IdentityRecord) (hold : r.get oldId = some oldRecord)
    (hne : newId ≠ if r.mainId = newId then oldId else r.mainId) :
    (r.revert newRecord oldId newId).get
      = Function.update
          (Function.update r.get oldId (some { oldRecord with status := newRecord.status }))
          newId none := by
  have hget : (if r.mainId = newId then r.reassignMain oldId else r).get = r.get := by
    split <;> rfl
  have hmain : (if r.mainId = newId then r.reassignMain oldId else r).mainId
      = if r.mainId = newId then oldId else r.mainId := by
    split <;> rfl
  rw [revert, dismiss_get _ (by rwa [setStatus_mainId, hmain]), setStatus_get, hget, hold]
  rfl

/-- An abort keeps exactly one main identity, if the identity it hands the role back to is not the
main one. -/
theorem OneMain.revert (h : r.OneMain) (hold : r.get oldId = some oldRecord)
    (hnew : r.get newId = some newRecord) (hmain : oldId ≠ r.mainId) :
    (r.revert newRecord oldId newId).OneMain := by
  have hstatus := h.status_eq hnew
  have hne : newId ≠ if r.mainId = newId then oldId else r.mainId := by
    split
    · next hm => exact fun hno => hmain (hno ▸ hm.symm)
    · next hm => exact fun hno => hm hno.symm
  have hget := revert_get newRecord hold hne
  constructor
  · rw [hget, revert_mainId, Function.update_of_ne hne.symm]
    by_cases hm : r.mainId = newId
    · rw [if_pos hm, Function.update_self]
      exact ⟨_, rfl, by rw [hstatus, if_pos hm.symm]⟩
    · rw [if_neg hm, Function.update_of_ne (Ne.symm hmain)]
      exact h.main
  · intro id record hid him
    rw [hget] at hid
    rw [revert_mainId] at him
    have hin : id ≠ newId := by
      rintro rfl
      rw [Function.update_self] at hid
      cases hid
    rw [Function.update_of_ne hin] at hid
    by_cases hio : id = oldId
    · rw [hio, Function.update_self] at hid
      have hm : ¬r.mainId = newId := fun hm => him (by rw [if_pos hm, hio])
      rw [← Option.some.inj hid]
      exact hstatus.trans (if_neg fun h => hm h.symm)
    · rw [Function.update_of_ne hio] at hid
      refine h.others id record hid fun hirm => him ?_
      rw [if_neg fun hm => hin (hirm.trans hm), hirm]

/-- Where the identity to hand the role back to is the main one, the abort takes its status
away. -/
theorem not_oneMain_revert (h : r.OneMain) (hold : r.get r.mainId = some oldRecord)
    (hnew : r.get newId = some newRecord) (hne : newId ≠ r.mainId) :
    ¬(r.revert newRecord r.mainId newId).OneMain := by
  intro hone
  have hm : (if r.mainId = newId then r.mainId else r.mainId) = r.mainId := ite_self _
  obtain ⟨record, hrecord, hmain⟩ := hone.main
  rw [revert_mainId, hm, revert_get newRecord hold (by rwa [hm]), Function.update_of_ne hne.symm,
    Function.update_self] at hrecord
  rw [← Option.some.inj hrecord] at hmain
  rw [show newRecord.status = .connectivity from h.others newId newRecord hnew hne] at hmain
  cases hmain

/-- An abort undoes the fork it follows. -/
lemma revert_fork (hmain : ∃ record, r.get r.mainId = some record)
    (hold : r.get oldId = some oldRecord) (hnew : r.get newId = none) :
    ((State.forkIdentity r oldRecord oldId newId).revert ⟨newId, none, oldRecord.status⟩ oldId
        newId).mainId = r.mainId ∧
      ((State.forkIdentity r oldRecord oldId newId).revert ⟨newId, none, oldRecord.status⟩ oldId
        newId).get = r.get := by
  have hno : newId ≠ oldId := by
    rintro rfl
    rw [hold] at hnew
    cases hnew
  have hnm : newId ≠ r.mainId := by
    rintro rfl
    obtain ⟨record, hrecord⟩ := hmain
    rw [hnew] at hrecord
    cases hrecord
  -- the role comes back whether or not the fork took it along
  have hback : (if (State.forkIdentity r oldRecord oldId newId).mainId = newId then oldId
      else (State.forkIdentity r oldRecord oldId newId).mainId) = r.mainId := by
    rw [fork_mainId]
    by_cases hm : r.mainId = oldId
    · rw [if_pos hm, if_pos rfl, hm]
    · rw [if_neg hm, if_neg hnm.symm]
  refine ⟨by rw [revert_mainId, hback], ?_⟩
  have hfork := fork_get hold hnew
  have hold' : (State.forkIdentity r oldRecord oldId newId).get oldId
      = some { oldRecord with status := .connectivity } := by
    rw [hfork, Function.update_self]
  rw [revert_get _ hold' (by rwa [hback]), hfork]
  funext id
  by_cases hin : id = newId
  · rw [hin, Function.update_self, hnew]
  · rw [Function.update_of_ne hin]
    by_cases hio : id = oldId
    · rw [hio, Function.update_self, hold]
    · rw [Function.update_of_ne hio, Function.update_of_ne hio, Function.update_of_ne hin]

end Registry

/-! ## Runs -/

/-- `on_migrate` forks: the migration is pending and the identity registered. -/
def State.Forks (s : State) (migrationId : MigrationId) (oldId : IdentityId) : Prop :=
  s.pendingMigrations.contains (migrationId, oldId) = true ∧ (s.registry.get oldId).isSome = true

instance (s : State) (migrationId : MigrationId) (oldId : IdentityId) :
    Decidable (s.Forks migrationId oldId) :=
  inferInstanceAs (Decidable (_ ∧ _))

/-- The pair a command produces, if it forks an identity. -/
def State.produced (d : Draw) (s : State) : Cmd → List (IdentityId × IdentityId)
  | .migrate migrationId oldId _ => if s.Forks migrationId oldId then [(oldId, d.newId)] else []
  | _ => []

/-- An abort is issued for a pair a fork has produced. -/
def Issuable (pairs : List (IdentityId × IdentityId)) : Cmd → Prop
  | .abortMigration oldId newId => (oldId, newId) ∈ pairs
  | _ => True

/-- A run from `Handle::spawn`: the state it is in and the pairs produced so far, each command
issued in a state in which `C` holds of it. -/
inductive Run (C : State → Cmd → Prop) : State → List (IdentityId × IdentityId) → Prop
  | spawn (mainId : IdentityId) (initialNaddr : Option Naddr) :
      Run C (State.spawn mainId initialNaddr) []
  | step {s : State} {pairs : List (IdentityId × IdentityId)} (run : Run C s pairs) (d : Draw)
      (allowed : d.Allowed s) (cmd : Cmd) (issuable : Issuable pairs cmd) (cond : C s cmd) :
      Run C (s.handle d cmd).state (pairs ++ s.produced d cmd)

/-- An abort does not hand the role back to the identity that has it: if both identities are
registered, the old one is not the main identity. -/
def KeepsMain (s : State) : Cmd → Prop
  | .abortMigration oldId newId =>
      (s.registry.get newId).isSome = true → oldId ≠ s.registry.mainId
  | _ => True

/-- One command keeps exactly one main identity. -/
theorem handle_oneMain {d : Draw} {s : State} {cmd : Cmd} (h : s.registry.OneMain)
    (hd : d.Allowed s) (hc : KeepsMain s cmd) : (s.handle d cmd).state.registry.OneMain := by
  have heffect := s.handle_registry d cmd
  generalize (s.handle d cmd).state.registry = r' at heffect
  cases heffect with
  | same => exact h
  | fork hold => exact h.fork hold hd.2
  | dismissed hid => exact h.dismiss hid
  | reverted hold hnew => exact h.revert hold hnew (hc (by rw [hnew]; rfl))
  | moved id naddr => exact h.setNaddr id naddr

theorem Run.oneMain {s : State} {pairs : List (IdentityId × IdentityId)}
    (h : Run KeepsMain s pairs) : s.registry.OneMain := by
  induction h with
  | spawn mainId initialNaddr => exact Registry.oneMain_new mainId initialNaddr
  | step _ d allowed cmd _ cond ih => exact handle_oneMain ih allowed cond

/-- The registry right after a fork. -/
lemma State.migrate_registry {s : State} {migrationId : MigrationId} {oldId : IdentityId}
    (hf : s.Forks migrationId oldId) (d : Draw) (devices : Devices) :
    ∃ oldRecord, s.registry.get oldId = some oldRecord ∧
      (s.handle d (.migrate migrationId oldId devices)).state.registry
        = State.forkIdentity s.registry oldRecord oldId d.newId := by
  obtain ⟨hp, hr⟩ := hf
  obtain ⟨pending, hpending⟩ := KeyedMap.contains_iff.mp hp
  obtain ⟨oldRecord, hold⟩ := Option.isSome_iff_exists.mp hr
  refine ⟨oldRecord, hold, ?_⟩
  show (s.onMigrate d migrationId oldId devices).state.registry = _
  rw [State.onMigrate, hpending, hold]

/-- The registry an abort of two registered identities leaves. -/
lemma State.abort_registry {s : State} {oldId newId : IdentityId}
    {oldRecord newRecord : IdentityRecord} (hold : s.registry.get oldId = some oldRecord)
    (hnew : s.registry.get newId = some newRecord) (d : Draw) :
    (s.handle d (.abortMigration oldId newId)).state.registry
      = s.registry.revert newRecord oldId newId := by
  show (s.onAbortMigration d oldId newId).state.registry = _
  rw [State.onAbortMigration, hnew, hold]
  rfl

/-- The condition on an abort is exact. -/
theorem abort_oneMain_iff {s : State} {oldId newId : IdentityId} (h : s.registry.OneMain)
    (hne : oldId ≠ newId) {d : Draw} (hd : d.Allowed s) :
    (s.handle d (.abortMigration oldId newId)).state.registry.OneMain
      ↔ KeepsMain s (.abortMigration oldId newId) := by
  refine ⟨fun hone hnew hmain => ?_, fun hc => handle_oneMain h hd hc⟩
  obtain ⟨newRecord, hnew⟩ := Option.isSome_iff_exists.mp hnew
  obtain ⟨oldRecord, hold, _⟩ := h.main
  rw [hmain, State.abort_registry hold hnew] at hone
  exact Registry.not_oneMain_revert h hold hnew (hmain ▸ hne.symm) hone

/-- The states an abort right after a fork can be issued in: the fork's own, or the one its
duplication has been applied to. -/
def RightAfter (s : State) (d : Draw) (migrationId : MigrationId) (oldId : IdentityId)
    (devices : Devices) (t : State) : Prop :=
  t = (s.handle d (.migrate migrationId oldId devices)).state ∨
    ∃ d' outcomes, t = ((s.handle d (.migrate migrationId oldId devices)).state.handle d'
      (.applyMigrationDuplication migrationId oldId d.newId outcomes)).state

lemma RightAfter.registry {s t : State} {d : Draw} {migrationId : MigrationId}
    {oldId : IdentityId} {devices : Devices} (h : RightAfter s d migrationId oldId devices t) :
    t.registry = (s.handle d (.migrate migrationId oldId devices)).state.registry := by
  rcases h with rfl | ⟨d', outcomes, rfl⟩
  · rfl
  · exact State.onApplyMigrationDuplication_registry _ _ _ _

/-- **Exactly one main identity.**  In every run whose aborts do not hand the role back to the
identity that has it, `mainId` is registered with status `main` and every other identity is a
connectivity fork; and an abort issued right after the fork of its pair restores `mainId` and every
record to what they were before the fork. -/
theorem oneMain_and_abort_restores {s : State} {pairs : List (IdentityId × IdentityId)}
    (h : Run KeepsMain s pairs) :
    s.registry.OneMain ∧
      ∀ (d : Draw) (migrationId : MigrationId) (oldId : IdentityId) (devices : Devices),
        d.Allowed s → s.Forks migrationId oldId →
        ∀ t, RightAfter s d migrationId oldId devices t → ∀ d' : Draw,
          (t.handle d' (.abortMigration oldId d.newId)).state.registry.mainId
            = s.registry.mainId ∧
          (t.handle d' (.abortMigration oldId d.newId)).state.registry.get = s.registry.get := by
  refine ⟨h.oneMain, fun d migrationId oldId devices hd hf t ht d' => ?_⟩
  obtain ⟨oldRecord, hold, hfork⟩ := State.migrate_registry hf d devices
  have hne : d.newId ≠ oldId := by
    intro heq
    have hnew := hd.2
    rw [heq, hold] at hnew
    cases hnew
  have hget := Registry.fork_get hold hd.2
  have htold : t.registry.get oldId = some { oldRecord with status := .connectivity } := by
    rw [ht.registry, hfork, hget, Function.update_self]
  have htnew : t.registry.get d.newId = some ⟨d.newId, none, oldRecord.status⟩ := by
    rw [ht.registry, hfork, hget, Function.update_of_ne hne, Function.update_self]
  obtain ⟨record, hrecord, _⟩ := h.oneMain.main
  rw [State.abort_registry htold htnew, ht.registry, hfork]
  exact Registry.revert_fork ⟨record, hrecord⟩ hold hd.2

/-! ## Two forks of one identity -/

/-- A draw of the id `newId`. -/
def Draw.of (newId : IdentityId) : Draw := ⟨newId, HashOrder.asInserted⟩

/-- Identity 1, prepared for the migrations 7 and 8. -/
def preparedTwice : State :=
  (((State.spawn 1 none).handle (.of 2) (.prepareMigration 7 1)).state.handle (.of 2)
    (.prepareMigration 8 1)).state

lemma preparedTwice_run (C : State → Cmd → Prop)
    (h : ∀ s migrationId oldId, C s (.prepareMigration migrationId oldId)) :
    Run C preparedTwice [] :=
  .step (.step (.spawn 1 none) (.of 2) ⟨by decide, rfl⟩ (.prepareMigration 7 1) trivial (h _ _ _))
    (.of 2) ⟨by decide, rfl⟩ (.prepareMigration 8 1) trivial (h _ _ _)

/-- Aborting a fork of the main identity right after it was made. -/
theorem oneMain_and_abort_restores_first_fork :
    (((preparedTwice.handle (.of 2) (.migrate 7 1 KeyedMap.empty)).state.handle (.of 3)
      (.abortMigration 1 2)).state.registry.mainId = 1) :=
  ((oneMain_and_abort_restores (preparedTwice_run KeepsMain fun _ _ _ => trivial)).2 (.of 2) 7 1
    KeyedMap.empty ⟨by decide, rfl⟩ ⟨rfl, rfl⟩ _ (.inl rfl) (.of 3)).1

/-- Identity 1 forked into 2 and then into 3, with both forks aborted in the order they were
made. -/
def abortedTwice : State :=
  ((((preparedTwice.handle (.of 2) (.migrate 7 1 KeyedMap.empty)).state.handle (.of 3)
    (.migrate 8 1 KeyedMap.empty)).state.handle (.of 4) (.abortMigration 1 2)).state.handle (.of 4)
      (.abortMigration 1 3)).state

/-- The second abort restores the status the old identity had when it was forked again: the main
identity ends as a connectivity fork. -/
theorem not_oneMain_two_forks :
    ¬∀ s pairs, Run (fun _ _ => True) s pairs → s.registry.OneMain := by
  intro h
  have hrun : Run (fun _ _ => True) abortedTwice [(1, 2), (1, 3)] :=
    .step (.step (.step (.step (preparedTwice_run _ fun _ _ _ => trivial) (.of 2)
      ⟨by decide, rfl⟩ (.migrate 7 1 KeyedMap.empty) trivial trivial) (.of 3) ⟨by decide, rfl⟩
      (.migrate 8 1 KeyedMap.empty) trivial trivial) (.of 4) ⟨by decide, rfl⟩
      (.abortMigration 1 2) (by simp only [Issuable]; decide +kernel) trivial) (.of 4)
      ⟨by decide, rfl⟩ (.abortMigration 1 3) (by simp only [Issuable]; decide +kernel) trivial
  obtain ⟨record, hrecord, hmain⟩ := (h _ _ hrun).main
  have hstatus : (abortedTwice.registry.get abortedTwice.registry.mainId).map (·.status)
      = some .connectivity := by decide +kernel
  rw [hrecord, Option.map_some, hmain] at hstatus
  cases hstatus

end Netsukuku.Identities
