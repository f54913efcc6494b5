import Mathlib
import Netsukuku.Identities.Registry

/-!
# Commands, calls and background tasks of the identity manager

The actor runs one command at a time.  Whatever has to wait for a peer runs beside it, as a task
that makes calls over arcs and may end by sending the actor a command with what came of them.

* `Process` — such a task: at each point it waits for one call, sends its last command, or is done.
* `resolvePeerMainId`, `runMigrationDuplication`, `notifyPeersArcRemoved` — the three tasks.
* `Process.Sends` — a fact about every command a task may end up sending.
-/

namespace Netsukuku.Identities

/-! ## Data -/

structure ArcInfo where
  dev : String
  peerMac : String
  peerLinklocal : String
  deriving DecidableEq, Repr

/-- One local identity's view of a peer identity over an arc. -/
structure IdentityArc where
  peerId : IdentityId
  peerMac : String
  peerLinklocal : String
  deriving DecidableEq, Repr

/-- The addresses of the pseudo-device an old identity moves to. -/
structure MigrationDeviceInfo where
  oldIdNewMac : String
  oldIdNewLinklocal : String
  deriving DecidableEq, Repr

structure DuplicationData where
  peerNewId : IdentityId
  peerOldIdNewMac : String
  peerOldIdNewLinklocal : String
  deriving DecidableEq, Repr

/-- Outcome of duplicating one identity-arc. -/
structure IdentityArcDuplication where
  peerId : IdentityId
  dupData : Option DuplicationData
  deriving DecidableEq, Repr

/-- Outcome of duplicating every identity-arc of one arc. -/
structure ArcDuplicationOutcome where
  arc : ArcId
  broken : Bool
  identityArcs : List IdentityArcDuplication
  deriving DecidableEq, Repr

abbrev Devices : Type := KeyedMap String MigrationDeviceInfo

/-- `Cmd`: what changes the actor's state.  The three commands that only read it are
`Registry`'s and `State`'s own functions. -/
inductive Cmd where
  | addArc (arc : ArcId) (info : ArcInfo)
  | applyArcAdd (arc : ArcId) (peerMainId : Except Error IdentityId)
  | removeArc (arc : ArcId)
  | prepareMigration (migrationId : MigrationId) (oldId : IdentityId)
  | migrate (migrationId : MigrationId) (oldId : IdentityId) (devices : Devices)
  | applyMigrationDuplication (migrationId : MigrationId) (oldId newId : IdentityId)
      (outcomes : List ArcDuplicationOutcome)
  | cleanupMigration (migrationId : MigrationId) (oldId : IdentityId)
  | removeIdentity (id : IdentityId)
  | abortMigration (oldId newId : IdentityId)
  | setNaddr (id : IdentityId) (naddr : Option Naddr)
  | neighbourMigrated (myId myPeerOldId myPeerNewId : IdentityId)
      (myPeerOldIdNewMac myPeerOldIdNewLinklocal : String) (arc : ArcId)
  | notifyIdentityArcRemoved (myId peerId : IdentityId) (arc : ArcId)

/-! ## Calls -/

/-- `IdentityMatchDuplicationArgs`; a field left unset on the wire is `none`. -/
structure MatchDuplicationArgs where
  migrationId : MigrationId
  peerId : Option IdentityId
  oldId : Option IdentityId
  newId : Option IdentityId
  oldIdNewMac : String
  oldIdNewLinklocal : String
  deriving DecidableEq, Repr

/-- The three methods of the identity manager. -/
inductive MethodCall where
  | getPeerMainId
  | matchDuplication (args : MatchDuplicationArgs)
  | notifyIdentityArcRemoved (peerId myId : Option IdentityId)
  deriving DecidableEq, Repr

/-- `ResponsePayload`: a typed value is the id or the duplication data it is tagged for. -/
inductive Payload where
  | unset
  | empty
  | boolean (b : Bool)
  | identityId (id : IdentityId)
  | duplicationData (data : DuplicationData)
  deriving DecidableEq, Repr

/-- What a call over an arc comes back with. -/
abbrev CallResult : Type := Except Error Payload

/-- `resolve_peer_main_id`, once the call has come back. -/
def decodePeerMainId : CallResult → Except Error IdentityId
  | .ok (.identityId id) => .ok id
  | .ok (.duplicationData _) => .error (.unexpectedResponse "identities.IdentityId")
  | .ok _ => .error (.unexpectedResponse "get_peer_main_id: expected TypedValue")
  | .error e => .error e

/-- `decode_duplication_response`. -/
def decodeDuplicationResponse : Payload → Except Error (Option DuplicationData)
  | .empty | .unset => .ok none
  | .duplicationData data => .ok (some data)
  | .identityId _ => .error (.unexpectedResponse "identities.DuplicationData")
  | .boolean _ => .error (.unexpectedResponse "match_duplication: unexpected bool response")

/-- `build_match_duplication_call`. -/
def buildMatchDuplicationCall (migrationId : MigrationId) (peerId oldId newId : IdentityId)
    (devdata : MigrationDeviceInfo) : MethodCall :=
  .matchDuplication
    { migrationId, peerId := some peerId, oldId := some oldId, newId := some newId
      oldIdNewMac := devdata.oldIdNewMac, oldIdNewLinklocal := devdata.oldIdNewLinklocal }

/-! ## Background tasks -/

/-- A background task: it waits for a call over an arc, sends its last command, or is done. -/
inductive Process where
  | call (arc : ArcId) (method : MethodCall) (resume : CallResult → Process)
  | send (cmd : Cmd)
  | done

/-- The task `on_add_arc` spawns. -/
def resolvePeerMainId (arc : ArcId) : Process :=
  .call arc .getPeerMainId fun result => .send (.applyArcAdd arc (decodePeerMainId result))

/-- The identity-arcs of one arc, one call after the other; once one has failed, or without data
for the arc's device, no more calls are made. -/
def duplicateArc (migrationId : MigrationId) (oldId newId : IdentityId) (arc : ArcId)
    (devdata : Option MigrationDeviceInfo) (next : ArcDuplicationOutcome → Process) :
    List IdentityArc → Bool → List IdentityArcDuplication → Process
  | [], broken, outcomes => next ⟨arc, broken, outcomes⟩
  | w0 :: rest, broken, outcomes =>
      match broken, devdata with
      | false, some dev =>
          .call arc (buildMatchDuplicationCall migrationId w0.peerId oldId newId dev) fun outcome =>
            match outcome.bind decodeDuplicationResponse with
            | .ok dupData =>
                duplicateArc migrationId oldId newId arc devdata next rest false
                  (outcomes ++ [⟨w0.peerId, dupData⟩])
            | .error _ =>
                duplicateArc migrationId oldId newId arc devdata next rest true
                  (outcomes ++ [⟨w0.peerId, none⟩])
      | _, _ =>
          duplicateArc migrationId oldId newId arc devdata next rest broken
            (outcomes ++ [⟨w0.peerId, none⟩])

/-- `run_migration_duplication`, up to the command it ends with. -/
def runMigrationDuplication (migrationId : MigrationId) (oldId newId : IdentityId)
    (devices : Devices) :
    List (ArcId × ArcInfo × List IdentityArc) → List ArcDuplicationOutcome → Process
  | [], results => .send (.applyMigrationDuplication migrationId oldId newId results)
  | (arc, info, identityArcs) :: arcs, results =>
      duplicateArc migrationId oldId newId arc (devices.get? info.dev)
        (fun outcome =>
          runMigrationDuplication migrationId oldId newId devices arcs (results ++ [outcome]))
        identityArcs (devices.get? info.dev).isNone []

/-- The call `notify_peers_arc_removed` makes for one identity-arc. -/
def notifyCall (myId peerId : IdentityId) : MethodCall :=
  .notifyIdentityArcRemoved (some peerId) (some myId)

/-- `notify_peers_arc_removed`: an arc is left alone after its first failure. -/
def notifyPeersArcRemoved (myId : IdentityId) : List (ArcId × IdentityId) → List ArcId → Process
  | [], _ => .done
  | (arc, peerId) :: targets, brokenArcs =>
      if arc ∈ brokenArcs then notifyPeersArcRemoved myId targets brokenArcs
      else
        .call arc (notifyCall myId peerId) fun outcome =>
          match outcome with
          | .ok _ => notifyPeersArcRemoved myId targets brokenArcs
          | .error _ => notifyPeersArcRemoved myId targets (arc :: brokenArcs)

/-! ## What a task may send -/

/-- Whatever answers with `A` the task gets, a command it sends is in `P`. -/
def Process.Sends (A : CallResult → Prop) (P : Cmd → Prop) : Process → Prop
  | .call _ _ resume => ∀ result, A result → (resume result).Sends A P
  | .send cmd => P cmd
  | .done => True

variable {A : CallResult → Prop} {P : Cmd → Prop}

lemma sends_resolvePeerMainId {arc : ArcId}
    (h : ∀ result, A result → P (.applyArcAdd arc (decodePeerMainId result))) :
    (resolvePeerMainId arc).Sends A P := h

lemma sends_notifyPeersArcRemoved (myId : IdentityId) (targets : List (ArcId × IdentityId))
    (brokenArcs : List ArcId) : (notifyPeersArcRemoved myId targets brokenArcs).Sends A P := by
  induction targets generalizing brokenArcs with
  | nil => exact trivial
  | cons target targets ih =>
      rw [notifyPeersArcRemoved]
      split
      · exact ih brokenArcs
      · intro result _
        cases result with
        | ok payload => exact ih brokenArcs
        | error e => exact ih (target.1 :: brokenArcs)

/-- What every answered identity-arc of an outcome satisfies. -/
def ArcDuplicationOutcome.Forall (D : DuplicationData → Prop) (o : ArcDuplicationOutcome) : Prop :=
  ∀ ia ∈ o.identityArcs, ∀ dup, ia.dupData = some dup → D dup

lemma sends_duplicateArc {D : DuplicationData → Prop}
    (hA : ∀ data, A (.ok (.duplicationData data)) → D data)
    {migrationId : MigrationId} {oldId newId : IdentityId} {arc : ArcId}
    {devdata : Option MigrationDeviceInfo} {next : ArcDuplicationOutcome → Process}
    (hnext : ∀ o : ArcDuplicationOutcome, o.arc = arc → o.Forall D → (next o).Sends A P)
    (identityArcs : List IdentityArc) (broken : Bool) (outcomes : List IdentityArcDuplication)
    (ho : ∀ ia ∈ outcomes, ∀ dup, ia.dupData = some dup → D dup) :
    (duplicateArc migrationId oldId newId arc devdata next identityArcs broken
      outcomes).Sends A P := by
  have hsnoc : ∀ (outcomes : List IdentityArcDuplication) (ia : IdentityArcDuplication),
      (∀ ia ∈ outcomes, ∀ dup, ia.dupData = some dup → D dup) →
      (∀ dup, ia.dupData = some dup → D dup) →
      ∀ ia' ∈ outcomes ++ [ia], ∀ dup, ia'.dupData = some dup → D dup := by
    intro outcomes ia ho hia ia' hmem
    rcases List.mem_append.mp hmem with h | h
    · exact ho ia' h
    · exact List.mem_singleton.mp h ▸ hia
  induction identityArcs generalizing broken outcomes with
  | nil => exact hnext ⟨arc, broken, outcomes⟩ rfl ho
  | cons w0 rest ih =>
      have hnone := hsnoc outcomes ⟨w0.peerId, none⟩ ho nofun
      cases broken with
      | true => exact ih true _ hnone
      | false =>
          cases devdata with
          | none => exact ih false _ hnone
          | some dev =>
              intro result hresult
              show Process.Sends A P (match result.bind decodeDuplicationResponse with
                | .ok _ => _
                | .error _ => _)
              split
              · next dupData hdup =>
                  refine ih false _ (hsnoc outcomes _ ho fun dup hd => hA dup ?_)
                  -- only a payload tagged as duplication data decodes to some
                  cases result with
                  | error e => cases hdup
                  | ok payload =>
                      cases payload <;> cases hdup <;> cases hd
                      exact hresult
              · exact ih true _ hnone

/-- The task of a migration sends one outcome for each arc it was given, in that order. -/
lemma sends_runMigrationDuplication {D : DuplicationData → Prop}
    (hA : ∀ data, A (.ok (.duplicationData data)) → D data)
    {migrationId : MigrationId} {oldId newId : IdentityId} (devices : Devices)
    (arcs : List (ArcId × ArcInfo × List IdentityArc)) (results : List ArcDuplicationOutcome)
    (hr : ∀ o ∈ results, o.Forall D)
    (hP : ∀ outcomes : List ArcDuplicationOutcome, (∀ o ∈ outcomes, o.Forall D) →
      outcomes.map (·.arc) = results.map (·.arc) ++ arcs.map (·.1) →
      P (.applyMigrationDuplication migrationId oldId newId outcomes)) :
    (runMigrationDuplication migrationId oldId newId devices arcs results).Sends A P := by
  induction arcs generalizing results with
  | nil => exact hP results hr (by rw [List.map_nil, List.append_nil])
  | cons entry arcs ih =>
      refine sends_duplicateArc hA (fun o harc ho => ih _ ?_ fun outcomes hout hmap => ?_) _ _ _
        (by simp)
      · intro o' ho'
        rcases List.mem_append.mp ho' with h | h
        · exact hr o' h
        · exact List.mem_singleton.mp h ▸ ho
      · refine hP outcomes hout ?_
        rw [hmap, List.map_append, List.map_cons, List.map_nil, harc, List.append_assoc,
          List.singleton_append, List.map_cons]

end Netsukuku.Identities
