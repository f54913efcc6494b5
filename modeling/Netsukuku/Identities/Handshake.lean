import Mathlib
import Netsukuku.Identities.ArcTable
import Netsukuku.Identities.Network

/-!
# The duplication handshake of two nodes

Two nodes share an arc and hold an identity-arc each way.  One of them forks its identity, or both
do under one migration id.  Every prepare is done before any migrate, nothing fails, and otherwise
commands and calls interleave as they may.

* `Party` — one side: its node, its identity, the addresses its device has and those of the
  pseudo-device the old identity moves to.
* `Session` — a network with the commands still to be issued; `Session.Step` issues one or lets the
  network move.
* `Agreement` — each identity-arc exists on both sides, once, and carries the address its peer's
  device has after the migration.
-/

namespace Netsukuku.Identities

variable {ν : Type}

/-! ## The parties and what they are to agree on -/

/-- One side of the handshake. -/
structure Party (ν : Type) where
  node : ν
  arc : ArcId
  info : ArcInfo
  id : IdentityId
  mac : String
  linklocal : String
  init : State
  draw : Draw
  devices : Devices
  dev : MigrationDeviceInfo

namespace Party

/-- The identity that replaces `id`. -/
def newId (p : Party ν) : IdentityId := p.draw.newId

/-- The addresses an identity's device has once it is all over: the pseudo-device's for an identity
that has migrated away, the original ones for the identity in its place. -/
def addresses (p : Party ν) (migrated : Bool) (id : IdentityId) : String × String :=
  if migrated ∧ id = p.id then (p.dev.oldIdNewMac, p.dev.oldIdNewLinklocal)
  else (p.mac, p.linklocal)

/-- `p` is at rest with one arc, over which `p.id` has an identity-arc to `q.id` with the addresses
`q` has now, and no other identity has any. -/
structure Linked (migrationId : MigrationId) (p q : Party ν) : Prop where
  arcs : p.init.arcs.entries = [(p.arc, p.info)]
  registered : (p.init.registry.get p.id).isSome = true
  unprepared : p.init.pendingMigrations.get? (migrationId, p.id) = none
  linked : p.init.identityArcs.get? (p.id, p.arc) = some [⟨q.id, q.mac, q.linklocal⟩]
  others : ∀ key, key ≠ (p.id, p.arc) → (p.init.identityArcs.get? key).getD [] = []

/-- `p` can migrate: the new identity is fresh and there is data for the arc's device. -/
structure CanMigrate (p : Party ν) : Prop where
  fresh : p.draw.Allowed p.init
  device : p.devices.get? p.info.dev = some p.dev

/-- The two parties share an arc and hold an identity-arc each way. -/
structure Sharing (links : Links ν) (migrationId : MigrationId) (p q : Party ν) : Prop where
  distinct : p.node ≠ q.node
  link : links.peer p.node p.arc = some (q.node, q.arc)
  linked : Linked migrationId p q
  linked' : Linked migrationId q p

lemma Sharing.symm {links : Links ν} {migrationId : MigrationId} {p q : Party ν}
    (S : Sharing links migrationId p q) : Sharing links migrationId q p where
  distinct := S.distinct.symm
  link := links.symm S.link
  linked := S.linked'
  linked' := S.linked

/-- `prepare_migration`, as the party issues it. -/
def prepareCmd (migrationId : MigrationId) (p : Party ν) : ν × Draw × Cmd :=
  (p.node, p.draw, .prepareMigration migrationId p.id)

/-- `migrate`, as the party issues it. -/
def migrateCmd (migrationId : MigrationId) (p : Party ν) : ν × Draw × Cmd :=
  (p.node, p.draw, .migrate migrationId p.id p.devices)

end Party

/-- The tables agree.  `mp` and `mq` say which of the two sides has migrated. -/
structure Agreement (p q : Party ν) (mp mq : Bool) (sp sq : State) : Prop where
  paired : ∀ x y, y ∈ peers sp.identityArcs (x, p.arc) ↔ x ∈ peers sq.identityArcs (y, q.arc)
  once : ∀ x, (peers sp.identityArcs (x, p.arc)).Nodup
  once' : ∀ y, (peers sq.identityArcs (y, q.arc)).Nodup
  addressed : ∀ x, ∀ ia ∈ (sp.identityArcs.get? (x, p.arc)).getD [],
    (ia.peerMac, ia.peerLinklocal) = q.addresses mq ia.peerId
  addressed' : ∀ y, ∀ ia ∈ (sq.identityArcs.get? (y, q.arc)).getD [],
    (ia.peerMac, ia.peerLinklocal) = p.addresses mp ia.peerId

/-! ## Sessions -/

/-- A network and the commands still to be issued in it. -/
structure Session (ν : Type) where
  prepares : Multiset (ν × Draw × Cmd)
  migrates : Multiset (ν × Draw × Cmd)
  net : Network ν

/-- A command is issued, the migrates once every prepare is done, or the network moves. -/
inductive Session.Step [DecidableEq ν] (links : Links ν) : Session ν → Session ν → Prop
  | prepare {w : Session ν} {n : ν} {d : Draw} {cmd : Cmd} {rest : Multiset (ν × Draw × Cmd)}
      (hc : w.prepares = (n, d, cmd) ::ₘ rest) (hd : d.Allowed (w.net.state n)) :
      Step links w ⟨rest, w.migrates, w.net.execute n d cmd⟩
  | migrate {w : Session ν} {n : ν} {d : Draw} {cmd : Cmd} {rest : Multiset (ν × Draw × Cmd)}
      (hp : w.prepares = 0) (hc : w.migrates = (n, d, cmd) ::ₘ rest)
      (hd : d.Allowed (w.net.state n)) : Step links w ⟨0, rest, w.net.execute n d cmd⟩
  | move {w : Session ν} {net : Network ν} (hmove : Network.Move links w.net net) :
      Step links w { w with net }

/-- Nothing is left to be issued, executed or answered. -/
structure Session.Over (w : Session ν) : Prop where
  prepares : w.prepares = 0
  migrates : w.migrates = 0
  tasks : w.net.tasks = 0
  inbox : w.net.inbox = 0
  calls : w.net.calls = 0

/-- A network at rest in which `p` and `q` are in their initial states. -/
structure Session.AtRest (p q : Party ν) (net : Network ν) : Prop where
  state : net.state p.node = p.init
  state' : net.state q.node = q.init
  tasks : net.tasks = 0
  inbox : net.inbox = 0
  calls : net.calls = 0

/-! ## What a migrating party goes through -/

namespace Party

variable (migrationId : MigrationId) (p q : Party ν)

/-- The channel of the party's pending migration. -/
def channel : ℕ := p.init.channels

/-- The state after `prepare_migration`. -/
def prepared : State :=
  { p.init with
    pendingMigrations := p.init.pendingMigrations.insert (migrationId, p.id)
      ⟨p.channel, false, none, KeyedMap.empty⟩
    channels := p.init.channels + 1 }

/-- The state after `migrate`. -/
def migrated : State :=
  ((p.prepared migrationId).onMigrate p.draw migrationId p.id p.devices).state

/-- The call the party makes for its identity-arc to `q.id`. -/
def ask : MethodCall := buildMatchDuplicationCall migrationId q.id p.id p.newId p.dev

/-- The command the party's task ends with. -/
def apply (broken : Bool) (dupData : Option DuplicationData) : Cmd :=
  .applyMigrationDuplication migrationId p.id p.newId [⟨p.arc, broken, [⟨q.id, dupData⟩]⟩]

/-- How the party's task goes on when its call comes back. -/
def resume (outcome : CallResult) : Process :=
  match outcome.bind decodeDuplicationResponse with
  | .ok dupData => .send (p.apply migrationId q false dupData)
  | .error _ => .send (p.apply migrationId q true none)

/-- The arguments of the party's call. -/
def args : MatchDuplicationArgs where
  migrationId := migrationId
  peerId := some q.id
  oldId := some p.id
  newId := some p.newId
  oldIdNewMac := p.dev.oldIdNewMac
  oldIdNewLinklocal := p.dev.oldIdNewLinklocal

/-- The peer's handler once it has fetched its answer, or failed to. -/
def afterFetch (fetched : Except Error DuplicationData) : Serving :=
  match fetched with
  | .ok data => .reply (.ok (.duplicationData data))
  | .error _ => unmatched (p.args migrationId q) q.id p.id p.newId q.arc

/-- The peer's handler once the migration is known to be ready, or not to be. -/
def afterWait (readyInTime : Bool) : Serving :=
  if readyInTime then .fetch migrationId q.id q.arc (p.afterFetch migrationId q)
  else unmatched (p.args migrationId q) q.id p.id p.newId q.arc

/-- The peer's handler once it has looked the migration up. -/
def afterLookup (pending : Option ℕ) : Serving :=
  match pending with
  | none => unmatched (p.args migrationId q) q.id p.id p.newId q.arc
  | some channel => .wait migrationId q.id channel (p.afterWait migrationId q)

variable {migrationId p q}

/-- A command of `p` leaves `q` as it is. -/
lemma execute_state [DecidableEq ν] {links : Links ν} (S : Sharing links migrationId p q)
    (net : Network ν) (d : Draw) (cmd : Cmd) :
    (net.execute p.node d cmd).state p.node = ((net.state p.node).handle d cmd).state ∧
      (net.execute p.node d cmd).state q.node = net.state q.node :=
  ⟨Function.update_self _ _ _, Function.update_of_ne S.distinct.symm _ _⟩

lemma prepared_eq (h : Linked migrationId p q) :
    p.init.onPrepareMigration migrationId p.id = ⟨p.prepared migrationId, some (.ok ()), []⟩ := by
  obtain ⟨record, hrecord⟩ := Option.isSome_iff_exists.mp h.registered
  unfold State.onPrepareMigration
  rw [hrecord]
  simp only [KeyedMap.contains, h.unprepared, Option.isSome_none, Bool.false_eq_true, if_false]
  rfl

/-- What a migration finds pending in the prepared state. -/
lemma get?_prepared :
    (p.prepared migrationId).pendingMigrations.get? (migrationId, p.id)
      = some ⟨p.channel, false, none, KeyedMap.empty⟩ :=
  KeyedMap.get?_insert_self _ _ _

lemma arrange_arcs (h : Linked migrationId p q) :
    p.draw.order.arrange (p.prepared migrationId).arcs.entries = [(p.arc, p.info)] := by
  show p.draw.order.arrange p.init.arcs.entries = _
  rw [h.arcs]
  exact (p.draw.order.perm _).eq_singleton

/-- What `migrate` leaves: the state, and a task that makes one call. -/
lemma migrated_eq (h : Linked migrationId p q) (hm : p.CanMigrate) :
    ∃ oldRecord, p.init.registry.get p.id = some oldRecord ∧
      (p.prepared migrationId).onMigrate p.draw migrationId p.id p.devices =
        ⟨{ p.prepared migrationId with
            registry := State.forkIdentity p.init.registry oldRecord p.id p.newId
            identityArcs := ArcTable.orDefault p.init.identityArcs (p.newId, p.arc)
            pendingMigrations := (p.prepared migrationId).pendingMigrations.insert
              (migrationId, p.id) ⟨p.channel, true, some p.newId, p.devices⟩ },
          none, [.call p.arc (p.ask migrationId q) (p.resume migrationId q)]⟩ := by
  obtain ⟨record, hrecord⟩ := Option.isSome_iff_exists.mp h.registered
  refine ⟨record, hrecord, ?_⟩
  have hreg : (p.prepared migrationId).registry.get p.id = some record := hrecord
  have hper : State.perArc [(p.arc, p.info)] (p.prepared migrationId).identityArcs p.id
      = [(p.arc, p.info, [⟨q.id, q.mac, q.linklocal⟩])] := by
    show State.perArc [(p.arc, p.info)] p.init.identityArcs p.id = _
    rw [State.perArc, List.filterMap_cons, h.linked]
    rfl
  unfold State.onMigrate
  rw [get?_prepared, hreg, arrange_arcs h]
  dsimp only
  rw [hper]
  have htask : runMigrationDuplication migrationId p.id p.newId p.devices
      [(p.arc, p.info, [⟨q.id, q.mac, q.linklocal⟩])] []
        = .call p.arc (p.ask migrationId q) (p.resume migrationId q) := by
    rw [runMigrationDuplication, hm.device]
    rfl
  exact congrArg (fun task => (⟨_, none, [task]⟩ : Handled)) htask

/-- The forked registry has the new identity. -/
lemma newId_registered (h : Linked migrationId p q) (hm : p.CanMigrate) :
    ∃ record, (p.migrated migrationId).registry.get p.newId = some record := by
  obtain ⟨oldRecord, hold, heq⟩ := migrated_eq h hm
  have hnew : p.init.registry.get p.newId = none := hm.fresh.2
  have hne : p.newId ≠ p.id := by
    intro hno
    rw [hno, hold] at hnew
    cases hnew
  rw [migrated, heq]
  show ∃ record, (State.forkIdentity p.init.registry oldRecord p.id p.newId).get p.newId
    = some record
  rw [Registry.fork_get hold hnew, Function.update_of_ne hne, Function.update_self]
  exact ⟨_, rfl⟩

lemma migrated_pending (h : Linked migrationId p q) (hm : p.CanMigrate) :
    (p.migrated migrationId).pendingMigrations.get? (migrationId, p.id)
      = some ⟨p.channel, true, some p.newId, p.devices⟩ := by
  obtain ⟨_, _, heq⟩ := migrated_eq h hm
  rw [migrated, heq]
  exact KeyedMap.get?_insert_self _ _ _

lemma migrated_arcs (h : Linked migrationId p q) (hm : p.CanMigrate) :
    (p.migrated migrationId).arcs.get? p.arc = some p.info := by
  obtain ⟨_, _, heq⟩ := migrated_eq h hm
  rw [migrated, heq, ← KeyedMap.mem_entries_iff]
  show (p.arc, p.info) ∈ p.init.arcs.entries
  rw [h.arcs]
  exact List.mem_singleton_self _

/-- What the party's pending migration answers a peer that asks about it. -/
def answer (p : Party ν) : DuplicationData :=
  ⟨p.newId, p.dev.oldIdNewMac, p.dev.oldIdNewLinklocal⟩

/-- The state in which the outcome of the call has been applied. -/
def final (migrationId : MigrationId) (p q : Party ν) (dupData : Option DuplicationData) : State :=
  { p.migrated migrationId with
    identityArcs := State.applyDuplication p.id p.newId p.arc (p.migrated migrationId).identityArcs
      ⟨q.id, dupData⟩ }

/-- The command the task ends with, executed. -/
lemma handle_apply (h : Linked migrationId p q) (hm : p.CanMigrate) (d : Draw)
    (dupData : Option DuplicationData) :
    (p.migrated migrationId).handle d (p.apply migrationId q false dupData)
      = ⟨p.final migrationId q dupData, some (.ok ()), []⟩ := by
  obtain ⟨record, hrecord⟩ := newId_registered h hm
  show (p.migrated migrationId).onApplyMigrationDuplication p.id p.newId _ = _
  have hknown : (p.migrated migrationId).arcs.contains p.arc = true := by
    rw [KeyedMap.contains, migrated_arcs h hm]
    rfl
  unfold State.onApplyMigrationDuplication
  rw [hrecord]
  simp only [List.filter_cons, hknown, if_true, List.filter_nil]
  rfl

/-- A migrated party answers with its new identity and its pseudo-device, before and after its own
outcome has been applied. -/
lemma fetch_migrated (h : Linked migrationId p q) (hm : p.CanMigrate) :
    (p.migrated migrationId).fetchDuplicationData migrationId p.id p.arc = .ok p.answer := by
  unfold State.fetchDuplicationData
  rw [migrated_pending h hm]
  dsimp only
  rw [migrated_arcs h hm]
  dsimp only
  rw [hm.device]
  rfl

end Party

/-- What a multiset with one element more than another is split into, if each part has at most
one. -/
lemma cons_eq_add_cases {α : Type} {a : α} {u s t : Multiset α} (hs : s.card ≤ 1)
    (ht : t.card ≤ 1) (h : a ::ₘ u = s + t) : (s = {a} ∧ u = t) ∨ (t = {a} ∧ u = s) := by
  have hsplit : ∀ {s t : Multiset α}, s.card ≤ 1 → a ∈ s → a ::ₘ u = s + t → s = {a} ∧ u = t := by
    intro s t hs hmem h
    obtain ⟨s', rfl⟩ := Multiset.exists_cons_of_mem hmem
    rw [Multiset.card_cons] at hs
    have hs' : s' = 0 := Multiset.card_eq_zero.mp (by omega)
    subst hs'
    rw [Multiset.cons_add, zero_add] at h
    exact ⟨rfl, (Multiset.cons_inj_right a).mp h⟩
  have hmem : a ∈ s + t := h ▸ Multiset.mem_cons_self a u
  rcases Multiset.mem_add.mp hmem with hmem | hmem
  · exact .inl (hsplit hs hmem h)
  · exact .inr (hsplit ht hmem (h.trans (add_comm _ _)))

end Netsukuku.Identities
