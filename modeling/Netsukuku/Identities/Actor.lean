import Mathlib
import Netsukuku.Identities.Tasks

/-!
# The identity-manager actor

The state one node's identity manager owns and the handler of each command.  Events, snapshots and
the clock are left out: nothing the handlers decide depends on them, and the cleanup of a migration
is a command that may come at any time.

* `State.handle` — one command.  What the source draws at random or leaves to the hasher, the id of
  a new identity and the order in which the arcs are met, comes from a `Draw`.
* `State.table` — the identity-arc table as a function of identity and arc; each handler has a
  lemma saying what it makes of the table, of the arcs and of the registry.
-/

namespace Netsukuku.Identities

/-- `PendingMigration`.  Whoever waits for it to be ready holds the receiving end of `channel`. -/
structure PendingMigration where
  channel : ℕ
  ready : Bool
  newId : Option IdentityId
  devices : Devices

abbrev ArcTable : Type := KeyedMap (IdentityId × ArcId) (List IdentityArc)

/-- The actor's state; `channels` is the number of channels made so far. -/
structure State where
  registry : Registry
  arcs : KeyedMap ArcId ArcInfo
  identityArcs : ArcTable
  pendingMigrations : KeyedMap (MigrationId × IdentityId) PendingMigration
  channels : ℕ

/-- What a command leaves: the new state, the answer unless a task gives it later, and the tasks
it spawns. -/
structure Handled where
  state : State
  reply : Option (Except Error Unit)
  spawned : List Process

/-- The choices a handler does not make itself. -/
structure Draw where
  newId : IdentityId
  order : HashOrder (ArcId × ArcInfo)

namespace ArcTable

/-- `entry(key).or_default()`, left as it is. -/
def orDefault (m : ArcTable) (key : IdentityId × ArcId) : ArcTable :=
  if m.contains key then m else m.insert key []

/-- `entry(key).or_default().push(ia)`. -/
def push (m : ArcTable) (key : IdentityId × ArcId) (ia : IdentityArc) : ArcTable :=
  m.insert key ((m.get? key).getD [] ++ [ia])

/-- The first identity-arc to `peerId` gets other addresses. -/
def readdress (peerId : IdentityId) (mac linklocal : String) :
    List IdentityArc → List IdentityArc
  | [] => []
  | w :: ws =>
      if w.peerId = peerId then { w with peerMac := mac, peerLinklocal := linklocal } :: ws
      else w :: readdress peerId mac linklocal ws

/-- `find(|w| w.peer_id == peer_id)`. -/
def findPeer (peerId : IdentityId) (l : List IdentityArc) : Option IdentityArc :=
  l.find? (·.peerId = peerId)

lemma get?_push (m : ArcTable) (key : IdentityId × ArcId) (ia : IdentityArc) :
    (m.push key ia).get? = Function.update m.get? key (some ((m.get? key).getD [] ++ [ia])) :=
  KeyedMap.get?_insert_eq_update _ _ _

lemma get?_orDefault (m : ArcTable) (key k : IdentityId × ArcId) :
    (orDefault m key).get? k = if k = key then some ((m.get? k).getD []) else m.get? k := by
  unfold orDefault
  by_cases hk : k = key
  · rw [if_pos hk, ← hk]
    cases hg : m.get? k with
    | none => rw [KeyedMap.contains, hg, if_neg (by simp), KeyedMap.get?_insert_self]; rfl
    | some list => rw [KeyedMap.contains, hg, if_pos (by simp), hg]; rfl
  · rw [if_neg hk]
    split
    · rfl
    · exact KeyedMap.get?_insert_of_ne m [] hk

/-- Entries made one after the other: a key that has one already keeps it. -/
lemma get?_foldl_orDefault {α : Type} (f : α → IdentityId × ArcId) (l : List α) (m : ArcTable)
    (k : IdentityId × ArcId) :
    (l.foldl (fun m a => orDefault m (f a)) m).get? k
      = if k ∈ l.map f then some ((m.get? k).getD []) else m.get? k := by
  induction l generalizing m with
  | nil => rfl
  | cons a l ih =>
      rw [List.foldl_cons, ih, get?_orDefault]
      by_cases hk : k = f a
      · have hmem : k ∈ (a :: l).map f := List.mem_map.mpr ⟨a, List.mem_cons_self, hk.symm⟩
        rw [if_pos hk, if_pos hmem]
        split <;> rfl
      · rw [if_neg hk]
        simp only [List.map_cons, List.mem_cons, hk, false_or]

/-- An entry made is an empty list, or what was there. -/
lemma getD_orDefault (m : ArcTable) (key k : IdentityId × ArcId) :
    ((orDefault m key).get? k).getD [] = (m.get? k).getD [] := by
  rw [get?_orDefault]
  split <;> rfl

@[simp] lemma map_peerId_readdress (peerId : IdentityId) (mac linklocal : String)
    (l : List IdentityArc) :
    (readdress peerId mac linklocal l).map (·.peerId) = l.map (·.peerId) := by
  induction l with
  | nil => rfl
  | cons w ws ih =>
      unfold readdress
      split
      · rfl
      · rw [List.map_cons, ih, List.map_cons]

/-- An identity-arc of a readdressed list was there before, or is the one with the new
addresses. -/
lemma mem_readdress {peerId : IdentityId} {mac linklocal : String} {l : List IdentityArc}
    {ia : IdentityArc} (h : ia ∈ readdress peerId mac linklocal l) :
    ia ∈ l ∨ ia.peerMac = mac ∧ ia.peerLinklocal = linklocal := by
  induction l with
  | nil => exact .inl h
  | cons w ws ih =>
      unfold readdress at h
      split at h
      · rcases List.mem_cons.mp h with rfl | h
        · exact .inr ⟨rfl, rfl⟩
        · exact .inl (List.mem_cons_of_mem _ h)
      · rcases List.mem_cons.mp h with rfl | h
        · exact .inl List.mem_cons_self
        · exact (ih h).imp_left (List.mem_cons_of_mem _)

lemma findPeer_some {peerId : IdentityId} {l : List IdentityArc}
    (h : peerId ∈ l.map (·.peerId)) : ∃ w ∈ l, findPeer peerId l = some w := by
  obtain ⟨ia, hia, hpeer⟩ := List.mem_map.mp h
  cases hf : findPeer peerId l with
  | none => exact absurd hpeer (by simpa using List.find?_eq_none.mp hf ia hia)
  | some w => exact ⟨w, List.mem_of_find?_eq_some hf, rfl⟩

end ArcTable

/-- Upper bound on a peer-supplied MAC or link-local string. -/
def maxPeerStringLen : ℕ := 64

namespace State

/-- `Handle::spawn`: one main identity, no arcs. -/
def spawn (mainId : IdentityId) (initialNaddr : Option Naddr) : State where
  registry := Registry.new mainId initialNaddr
  arcs := KeyedMap.empty
  identityArcs := KeyedMap.empty
  pendingMigrations := KeyedMap.empty
  channels := 0

/-! ## Arcs -/

/-- `State::remove_arc`. -/
def removeArc (s : State) (arc : ArcId) : State × Bool :=
  if s.arcs.contains arc then
    ({ s with
        arcs := s.arcs.erase arc
        identityArcs := s.registry.ids.foldl (fun m id => m.erase (id, arc)) s.identityArcs },
      true)
  else (s, false)

/-- `on_add_arc`. -/
def onAddArc (s : State) (arc : ArcId) (info : ArcInfo) : Handled :=
  if s.arcs.contains arc then ⟨s, some (.error (.duplicateArc arc)), []⟩
  else
    ⟨{ s with
        arcs := s.arcs.insert arc info
        identityArcs :=
          s.registry.ids.foldl (fun m id => ArcTable.orDefault m (id, arc)) s.identityArcs },
      none, [resolvePeerMainId arc]⟩

/-- `on_apply_arc_add`. -/
def onApplyArcAdd (s : State) (arc : ArcId) (peerMainId : Except Error IdentityId) : Handled :=
  match peerMainId with
  | .ok peerId =>
      match s.arcs.get? arc with
      | none => ⟨s, some (.error (.unknownArc arc)), []⟩
      | some info =>
          ⟨{ s with
              identityArcs := ArcTable.push s.identityArcs (s.registry.mainId, arc)
                ⟨peerId, info.peerMac, info.peerLinklocal⟩ },
            some (.ok ()), []⟩
  | .error e => ⟨(s.removeArc arc).1, some (.error e), []⟩

/-! ## Migrations -/

/-- `on_prepare_migration`. -/
def onPrepareMigration (s : State) (migrationId : MigrationId) (oldId : IdentityId) : Handled :=
  match s.registry.get oldId with
  | none => ⟨s, some (.error (.unknownIdentity oldId)), []⟩
  | some _ =>
      if s.pendingMigrations.contains (migrationId, oldId) then
        ⟨s, some (.error (.duplicateMigration migrationId oldId)), []⟩
      else
        ⟨{ s with
            pendingMigrations := s.pendingMigrations.insert (migrationId, oldId)
              ⟨s.channels, false, none, KeyedMap.empty⟩
            channels := s.channels + 1 },
          some (.ok ()), []⟩

/-- The registry `on_migrate` leaves: the new identity takes the role of the old one, which becomes
a connectivity fork. -/
def forkIdentity (r : Registry) (oldRecord : IdentityRecord) (oldId newId : IdentityId) :
    Registry :=
  let r := (r.insert ⟨newId, none, oldRecord.status⟩).1
  let r := (r.setStatus oldId .connectivity).1
  if r.mainId = oldId then r.reassignMain newId else r

/-- The identity-arcs `on_migrate` has duplicated, arc by arc. -/
def perArc (arcs : List (ArcId × ArcInfo)) (m : ArcTable) (oldId : IdentityId) :
    List (ArcId × ArcInfo × List IdentityArc) :=
  arcs.filterMap fun entry =>
    match m.get? (oldId, entry.1) with
    | some (ia :: ias) => some (entry.1, entry.2, ia :: ias)
    | _ => none

/-- `on_migrate`. -/
def onMigrate (d : Draw) (s : State) (migrationId : MigrationId) (oldId : IdentityId)
    (devices : Devices) : Handled :=
  match s.pendingMigrations.get? (migrationId, oldId), s.registry.get oldId with
  | none, _ => ⟨s, some (.error (.unknownMigration migrationId oldId)), []⟩
  | some _, none => ⟨s, some (.error (.unknownIdentity oldId)), []⟩
  | some pending, some oldRecord =>
      let arcs := d.order.arrange s.arcs.entries
      ⟨{ s with
          registry := forkIdentity s.registry oldRecord oldId d.newId
          identityArcs :=
            arcs.foldl (fun m entry => ArcTable.orDefault m (d.newId, entry.1)) s.identityArcs
          pendingMigrations := s.pendingMigrations.insert (migrationId, oldId)
            { pending with ready := true, newId := some d.newId, devices } },
        none,
        [runMigrationDuplication migrationId oldId d.newId devices
          (perArc arcs s.identityArcs oldId) []]⟩

/-- The body of `on_apply_migration_duplication`'s loop: one duplicated identity-arc. -/
def applyDuplication (oldId newId : IdentityId) (arc : ArcId) (m : ArcTable)
    (ia : IdentityArcDuplication) : ArcTable :=
  let m :=
    match m.get? (oldId, arc), ia.dupData with
    | some list, some dup =>
        m.insert (oldId, arc)
          (ArcTable.readdress ia.peerId dup.peerOldIdNewMac dup.peerOldIdNewLinklocal list)
    | _, _ => m
  let w0Now := (m.get? (oldId, arc)).bind (ArcTable.findPeer ia.peerId)
  ArcTable.push m (newId, arc)
    ⟨(ia.dupData.map (·.peerNewId)).getD ia.peerId,
      (w0Now.map (·.peerMac)).getD "", (w0Now.map (·.peerLinklocal)).getD ""⟩

/-- All the identity-arcs of one outcome. -/
def applyOutcome (oldId newId : IdentityId) (m : ArcTable) (o : ArcDuplicationOutcome) : ArcTable :=
  o.identityArcs.foldl (applyDuplication oldId newId o.arc) m

/-- `on_apply_migration_duplication`. -/
def onApplyMigrationDuplication (s : State) (oldId newId : IdentityId)
    (outcomes : List ArcDuplicationOutcome) : Handled :=
  match s.registry.get newId with
  | none => ⟨s, some (.error (.unknownIdentity newId)), []⟩
  | some _ =>
      let outcomes := outcomes.filter (fun o => s.arcs.contains o.arc)
      let s := { s with identityArcs := outcomes.foldl (applyOutcome oldId newId) s.identityArcs }
      let brokenArcs := (outcomes.filter (·.broken)).map (·.arc)
      ⟨brokenArcs.foldl (fun s arc => (s.removeArc arc).1) s, some (.ok ()), []⟩

/-- `fetch_duplication_data`. -/
def fetchDuplicationData (s : State) (migrationId : MigrationId) (oldId : IdentityId)
    (arc : ArcId) : Except Error DuplicationData :=
  match s.pendingMigrations.get? (migrationId, oldId) with
  | none => .error (.unknownMigration migrationId oldId)
  | some pending =>
      match pending.newId with
      | none => .error (.unknownMigration migrationId oldId)
      | some newId =>
          match s.arcs.get? arc with
          | none => .error (.unknownArc arc)
          | some info =>
              match pending.devices.get? info.dev with
              | none => .error (.missingField "MigrationDeviceInfo for arc's device")
              | some devdata =>
                  .ok ⟨newId, devdata.oldIdNewMac, devdata.oldIdNewLinklocal⟩

/-! ## What a neighbour reports -/

/-- `on_neighbour_migrated`. -/
def onNeighbourMigrated (s : State) (myId myPeerOldId myPeerNewId : IdentityId)
    (newMac newLinklocal : String) (arc : ArcId) : State :=
  match s.identityArcs.get? (myId, arc) with
  | none => s
  | some list =>
      if list.any (·.peerId = myPeerNewId) then s
      else if maxPeerStringLen < newMac.utf8ByteSize ∨
          maxPeerStringLen < newLinklocal.utf8ByteSize then s
      else
        match ArcTable.findPeer myPeerOldId list with
        | none => s
        | some w0 =>
            { s with
              identityArcs := s.identityArcs.insert (myId, arc)
                (ArcTable.readdress myPeerOldId newMac newLinklocal list
                  ++ [⟨myPeerNewId, w0.peerMac, w0.peerLinklocal⟩]) }

/-- `on_notify_identity_arc_removed`. -/
def onNotifyIdentityArcRemoved (s : State) (myId peerId : IdentityId) (arc : ArcId) : State :=
  match s.identityArcs.get? (myId, arc) with
  | none => s
  | some list =>
      { s with identityArcs := s.identityArcs.insert (myId, arc) (list.eraseP (·.peerId = peerId)) }

/-! ## Dismissal -/

/-- The identity-arcs `dismiss_identity` tells the peers about. -/
def notifyTargets (arcs : List ArcId) (m : ArcTable) (id : IdentityId) :
    List (ArcId × IdentityId) :=
  arcs.flatMap fun arc => ((m.get? (id, arc)).getD []).map fun ia => (arc, ia.peerId)

/-- `dismiss_identity`. -/
def dismissIdentity (d : Draw) (s : State) (id : IdentityId) : State × Process :=
  let arcs := (d.order.arrange s.arcs.entries).map Prod.fst
  ({ s with
      registry := (s.registry.dismiss id).1
      identityArcs := arcs.foldl (fun m arc => m.erase (id, arc)) s.identityArcs },
    notifyPeersArcRemoved id (notifyTargets arcs s.identityArcs id) [])

/-- `on_remove_identity`. -/
def onRemoveIdentity (d : Draw) (s : State) (id : IdentityId) : Handled :=
  if id = s.registry.mainId then ⟨s, some (.error .cannotRemoveMainIdentity), []⟩
  else
    match s.registry.get id with
    | none => ⟨s, some (.error (.unknownIdentity id)), []⟩
    | some _ =>
        let (s, task) := s.dismissIdentity d id
        ⟨s, some (.ok ()), [task]⟩

/-- The state `on_abort_migration` dismisses the new identity from. -/
def revertFork (s : State) (newRecord : IdentityRecord) (oldId newId : IdentityId) : State :=
  let r := if s.registry.mainId = newId then s.registry.reassignMain oldId else s.registry
  { s with
    registry := (r.setStatus oldId newRecord.status).1
    pendingMigrations := s.pendingMigrations.retain
      fun key p => !(key.2 = oldId && p.newId = some newId) }

/-- `on_abort_migration`. -/
def onAbortMigration (d : Draw) (s : State) (oldId newId : IdentityId) : Handled :=
  match s.registry.get newId, s.registry.get oldId with
  | none, _ => ⟨s, some (.error (.unknownIdentity newId)), []⟩
  | some _, none => ⟨s, some (.error (.unknownIdentity oldId)), []⟩
  | some newRecord, some _ =>
      let (s, task) := (s.revertFork newRecord oldId newId).dismissIdentity d newId
      ⟨s, some (.ok ()), [task]⟩

/-- `Cmd::SetNaddr`. -/
def onSetNaddr (s : State) (id : IdentityId) (naddr : Option Naddr) : Handled :=
  let (registry, result) := s.registry.setNaddr id naddr
  ⟨{ s with registry }, some result, []⟩

/-- `State::handle`. -/
def handle (d : Draw) (s : State) : Cmd → Handled
  | .addArc arc info => s.onAddArc arc info
  | .applyArcAdd arc peerMainId => s.onApplyArcAdd arc peerMainId
  | .removeArc arc =>
      let (s, removed) := s.removeArc arc
      ⟨s, some (if removed then .ok () else .error (.unknownArc arc)), []⟩
  | .prepareMigration migrationId oldId => s.onPrepareMigration migrationId oldId
  | .migrate migrationId oldId devices => s.onMigrate d migrationId oldId devices
  | .applyMigrationDuplication _ oldId newId outcomes =>
      s.onApplyMigrationDuplication oldId newId outcomes
  | .cleanupMigration migrationId oldId =>
      ⟨{ s with pendingMigrations := s.pendingMigrations.erase (migrationId, oldId) }, none, []⟩
  | .removeIdentity id => s.onRemoveIdentity d id
  | .abortMigration oldId newId => s.onAbortMigration d oldId newId
  | .setNaddr id naddr => s.onSetNaddr id naddr
  | .neighbourMigrated myId myPeerOldId myPeerNewId newMac newLinklocal arc =>
      ⟨s.onNeighbourMigrated myId myPeerOldId myPeerNewId newMac newLinklocal arc, none, []⟩
  | .notifyIdentityArcRemoved myId peerId arc =>
      ⟨s.onNotifyIdentityArcRemoved myId peerId arc, none, []⟩

end State

/-! ## What a duplicated identity-arc leaves in the table -/

/-- The peer identity the new identity-arc leads to. -/
def IdentityArcDuplication.newPeer (ia : IdentityArcDuplication) : IdentityId :=
  (ia.dupData.map (·.peerNewId)).getD ia.peerId

/-- The old identity's list after its identity-arc was duplicated. -/
def IdentityArcDuplication.readdressed (ia : IdentityArcDuplication) (l : List IdentityArc) :
    List IdentityArc :=
  match ia.dupData with
  | some dup =>
      ArcTable.readdress ia.peerId dup.peerOldIdNewMac dup.peerOldIdNewLinklocal l
  | none => l

/-- The identity-arc the new identity gets, from what the old identity's list is by then. -/
def IdentityArcDuplication.added (ia : IdentityArcDuplication) (l : Option (List IdentityArc)) :
    IdentityArc :=
  ⟨ia.newPeer, ((l.bind (ArcTable.findPeer ia.peerId)).map (·.peerMac)).getD "",
    ((l.bind (ArcTable.findPeer ia.peerId)).map (·.peerLinklocal)).getD ""⟩

@[simp] lemma IdentityArcDuplication.map_peerId_readdressed (ia : IdentityArcDuplication)
    (l : List IdentityArc) : (ia.readdressed l).map (·.peerId) = l.map (·.peerId) := by
  unfold readdressed
  cases ia.dupData with
  | none => rfl
  | some dup => exact ArcTable.map_peerId_readdress _ _ _ _

lemma State.get?_applyDuplication {oldId newId : IdentityId} (hne : oldId ≠ newId) (arc : ArcId)
    (m : ArcTable) (ia : IdentityArcDuplication) :
    (State.applyDuplication oldId newId arc m ia).get?
      = Function.update
          (Function.update m.get? (oldId, arc) ((m.get? (oldId, arc)).map ia.readdressed))
          (newId, arc)
          (some ((m.get? (newId, arc)).getD []
            ++ [ia.added ((m.get? (oldId, arc)).map ia.readdressed)])) := by
  have hkey : (newId, arc) ≠ (oldId, arc) := fun h => hne (congrArg Prod.fst h).symm
  -- the first half rewrites the old identity's list where it stands
  have hold : (match m.get? (oldId, arc), ia.dupData with
      | some list, some dup =>
          m.insert (oldId, arc)
            (ArcTable.readdress ia.peerId dup.peerOldIdNewMac dup.peerOldIdNewLinklocal list)
      | _, _ => m).get?
        = Function.update m.get? (oldId, arc) ((m.get? (oldId, arc)).map ia.readdressed) := by
    unfold IdentityArcDuplication.readdressed
    cases hg : m.get? (oldId, arc) with
    | none =>
        have hself := Function.update_eq_self (oldId, arc) m.get?
        rw [hg] at hself
        rw [Option.map_none, hself]
    | some list =>
        cases ia.dupData with
        | none =>
            have hself := Function.update_eq_self (oldId, arc) m.get?
            rw [hg] at hself
            rw [Option.map_some, hself]
        | some dup => exact KeyedMap.get?_insert_eq_update _ _ _
  unfold State.applyDuplication
  simp only [ArcTable.get?_push, hold, Function.update_self, Function.update_of_ne hkey]
  rfl

/-- A draw the source may make in this state: the id of the new identity is fresh. -/
def Draw.Allowed (d : Draw) (s : State) : Prop := s.registry.Fresh d.newId

end Netsukuku.Identities
