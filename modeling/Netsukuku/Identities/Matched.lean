import Mathlib
import Netsukuku.Identities.Handshake

/-!
# The handshake when both sides migrate

Each side goes through the same stages.  Its call finds the peer's migration pending, waits until
it is ready, fetches the peer's new identity and pseudo-device, and its task has that applied.

* `Party.Matched` — a session in which each side has got to a stage of its own.
* `Party.Matched.step` — every step takes one side one stage further.
* `Party.matched_over`, `Party.both_complete` — where that ends, and that it does.
-/

namespace Netsukuku.Identities

variable {ν : Type}

namespace Party

/-! ## The stages of a side -/

/-- How far a party has got. -/
inductive Stage where
  | idle
  | prepared
  | asking
  | looking
  | waiting
  | fetching
  | answered
  | sending
  | queued
  | applied

/-- The party has issued `prepare_migration`. -/
def Stage.HasPrepared : Stage → Prop
  | .idle => False
  | _ => True

/-- The party has issued `migrate`. -/
def Stage.HasMigrated : Stage → Prop
  | .idle | .prepared => False
  | _ => True

/-- The party's call has met the peer's migration. -/
def Stage.HasMet : Stage → Prop
  | .fetching | .answered | .sending | .queued | .applied => True
  | _ => False

section Matched

variable (migrationId : MigrationId) (p q : Party ν)

def stateAt : Stage → State
  | .idle => p.init
  | .prepared => p.prepared migrationId
  | .applied => p.final migrationId q (some q.answer)
  | _ => p.migrated migrationId

def tasksAt : Stage → Multiset (ν × Process)
  | .asking => {(p.node, .call p.arc (p.ask migrationId q) (p.resume migrationId q))}
  | .sending => {(p.node, .send (p.apply migrationId q false (some q.answer)))}
  | _ => 0

def inboxAt : Stage → Multiset (ν × Cmd)
  | .queued => {(p.node, p.apply migrationId q false (some q.answer))}
  | _ => 0

/-- The party's call, with what the peer's handler has left to do. -/
def callsAt : Stage → Multiset (Call ν)
  | .looking => {⟨p.node, p.resume migrationId q, q.node,
      .lookup migrationId q.id (p.afterLookup migrationId q)⟩}
  | .waiting => {⟨p.node, p.resume migrationId q, q.node,
      .wait migrationId q.id q.channel (p.afterWait migrationId q)⟩}
  | .fetching => {⟨p.node, p.resume migrationId q, q.node,
      .fetch migrationId q.id q.arc (p.afterFetch migrationId q)⟩}
  | .answered => {⟨p.node, p.resume migrationId q, q.node,
      .reply (.ok (.duplicationData q.answer))⟩}
  | _ => 0

def preparesAt : Stage → Multiset (ν × Draw × Cmd)
  | .idle => {p.prepareCmd migrationId}
  | _ => 0

def migratesAt : Stage → Multiset (ν × Draw × Cmd)
  | .idle | .prepared => {p.migrateCmd migrationId}
  | _ => 0

/-- A session in which `p` has got to `sp` and `q` to `sq`. -/
structure Matched (sp sq : Stage) (w : Session ν) : Prop where
  state : w.net.state p.node = p.stateAt migrationId q sp
  state' : w.net.state q.node = q.stateAt migrationId p sq
  tasks : w.net.tasks = p.tasksAt migrationId q sp + q.tasksAt migrationId p sq
  inbox : w.net.inbox = p.inboxAt migrationId q sp + q.inboxAt migrationId p sq
  calls : w.net.calls = p.callsAt migrationId q sp + q.callsAt migrationId p sq
  prepares : w.prepares = p.preparesAt migrationId sp + q.preparesAt migrationId sq
  migrates : w.migrates = p.migratesAt migrationId sp + q.migratesAt migrationId sq
  ordered : sp.HasMigrated ∨ sq.HasMigrated → sp.HasPrepared ∧ sq.HasPrepared
  met : sp.HasMet → sq.HasMigrated
  met' : sq.HasMet → sp.HasMigrated

variable {migrationId p q} {sp sq : Stage} {w : Session ν}

lemma Matched.symm (h : Matched migrationId p q sp sq w) : Matched migrationId q p sq sp w where
  state := h.state'
  state' := h.state
  tasks := h.tasks.trans (add_comm _ _)
  inbox := h.inbox.trans (add_comm _ _)
  calls := h.calls.trans (add_comm _ _)
  prepares := h.prepares.trans (add_comm _ _)
  migrates := h.migrates.trans (add_comm _ _)
  ordered := fun hor => (h.ordered hor.symm).symm
  met := h.met'
  met' := h.met

/-- What the peer's handler finds pending once the party has prepared. -/
lemma stateAt_pending (h : Linked migrationId p q) (hm : p.CanMigrate) (hs : sp.HasPrepared) :
    ∃ pending, (p.stateAt migrationId q sp).pendingMigrations.get? (migrationId, p.id)
      = some pending ∧ pending.channel = p.channel ∧ (pending.ready = true → sp.HasMigrated) := by
  cases sp with
  | idle => exact hs.elim
  | prepared => exact ⟨_, get?_prepared, rfl, fun hready => Bool.noConfusion hready⟩
  | _ => exact ⟨_, migrated_pending h hm, rfl, fun _ => trivial⟩

/-- What it fetches once the party has migrated. -/
lemma stateAt_fetch (h : Linked migrationId p q) (hm : p.CanMigrate) (hs : sp.HasMigrated) :
    (p.stateAt migrationId q sp).fetchDuplicationData migrationId p.id p.arc = .ok p.answer := by
  cases sp with
  | idle => exact hs.elim
  | prepared => exact hs.elim
  | _ => exact fetch_migrated h hm

end Matched

/-! ## One step -/

variable {links : Links ν} {migrationId : MigrationId} {p q : Party ν} {sp sq : Stage}
  {w : Session ν}

/-- The two sides of a handshake in which both migrate. -/
structure BothMigrate (links : Links ν) (migrationId : MigrationId) (p q : Party ν) : Prop extends
    Sharing links migrationId p q where
  migrates : p.CanMigrate
  migrates' : q.CanMigrate

lemma BothMigrate.symm (B : BothMigrate links migrationId p q) :
    BothMigrate links migrationId q p :=
  ⟨B.toSharing.symm, B.migrates', B.migrates⟩

lemma card_tasksAt (s : Stage) : (p.tasksAt migrationId q s).card ≤ 1 := by
  cases s <;> simp [tasksAt]

lemma card_inboxAt (s : Stage) : (p.inboxAt migrationId q s).card ≤ 1 := by
  cases s <;> simp [inboxAt]

lemma card_callsAt (s : Stage) : (p.callsAt migrationId q s).card ≤ 1 := by
  cases s <;> simp [callsAt]

lemma card_preparesAt (s : Stage) : (p.preparesAt migrationId s).card ≤ 1 := by
  cases s <;> simp [preparesAt]

lemma card_migratesAt (s : Stage) : (p.migratesAt migrationId s).card ≤ 1 := by
  cases s <;> simp [migratesAt]

/-- What a task of `p` may be doing. -/
lemma tasksAt_cases {t : ν × Process} (hside : p.tasksAt migrationId q sp = {t}) :
    (sp = .asking ∧ t = (p.node, .call p.arc (p.ask migrationId q) (p.resume migrationId q))) ∨
      (sp = .sending ∧ t = (p.node, .send (p.apply migrationId q false (some q.answer)))) := by
  cases sp with
  | asking => exact .inl ⟨rfl, (Multiset.singleton_inj.mp hside).symm⟩
  | sending => exact .inr ⟨rfl, (Multiset.singleton_inj.mp hside).symm⟩
  | _ => exact absurd hside (Multiset.zero_ne_singleton _)

/-- Where a call of `p` may be. -/
lemma callsAt_cases {c : Call ν} (hside : p.callsAt migrationId q sp = {c}) :
    (sp = .looking ∧ c = ⟨p.node, p.resume migrationId q, q.node,
        .lookup migrationId q.id (p.afterLookup migrationId q)⟩) ∨
      (sp = .waiting ∧ c = ⟨p.node, p.resume migrationId q, q.node,
        .wait migrationId q.id q.channel (p.afterWait migrationId q)⟩) ∨
      (sp = .fetching ∧ c = ⟨p.node, p.resume migrationId q, q.node,
        .fetch migrationId q.id q.arc (p.afterFetch migrationId q)⟩) ∨
      (sp = .answered ∧ c = ⟨p.node, p.resume migrationId q, q.node,
        .reply (.ok (.duplicationData q.answer))⟩) := by
  cases sp with
  | looking => exact .inl ⟨rfl, (Multiset.singleton_inj.mp hside).symm⟩
  | waiting => exact .inr (.inl ⟨rfl, (Multiset.singleton_inj.mp hside).symm⟩)
  | fetching => exact .inr (.inr (.inl ⟨rfl, (Multiset.singleton_inj.mp hside).symm⟩))
  | answered => exact .inr (.inr (.inr ⟨rfl, (Multiset.singleton_inj.mp hside).symm⟩))
  | _ => exact absurd hside (Multiset.zero_ne_singleton _)

lemma Matched.send (h : Matched migrationId p q sp sq w) {n : ν} {cmd : Cmd}
    (hside : p.tasksAt migrationId q sp = {(n, .send cmd)}) :
    Matched migrationId p q .queued sq { w with net := { w.net with
      tasks := q.tasksAt migrationId p sq, inbox := (n, cmd) ::ₘ w.net.inbox } } := by
  rcases tasksAt_cases hside with ⟨rfl, heq⟩ | ⟨rfl, heq⟩
  · cases heq
  · cases heq
    refine ⟨h.state, h.state', (zero_add _).symm, ?_, h.calls, h.prepares, h.migrates, h.ordered,
      h.met, fun _ => trivial⟩
    show _ ::ₘ w.net.inbox = _
    rw [h.inbox]
    exact congrArg _ (zero_add _)

lemma Matched.dial (B : BothMigrate links migrationId p q)
    (h : Matched migrationId p q sp sq w) {n m : ν} {arc arc' : ArcId} {method : MethodCall}
    {resume : CallResult → Process} (hside : p.tasksAt migrationId q sp = {(n, .call arc method resume)})
    (hlink : links.peer n arc = some (m, arc')) :
    Matched migrationId p q .looking sq { w with net := { w.net with
      tasks := q.tasksAt migrationId p sq
      calls := ⟨n, resume, m, serve (some arc') method⟩ ::ₘ w.net.calls } } := by
  rcases tasksAt_cases hside with ⟨rfl, heq⟩ | ⟨rfl, heq⟩
  · cases heq
    rw [B.link] at hlink
    cases hlink
    refine ⟨h.state, h.state', (zero_add _).symm, h.inbox, ?_, h.prepares, h.migrates, h.ordered,
      fun hmet => hmet.elim, fun _ => trivial⟩
    show _ ::ₘ w.net.calls = _
    rw [h.calls]
    exact congrArg _ (zero_add _)
  · cases heq

lemma Matched.lookup (B : BothMigrate links migrationId p q)
    (h : Matched migrationId p q sp sq w) {n m : ν} {resume : CallResult → Process}
    {migrationId' : MigrationId} {oldId : IdentityId} {next : Option ℕ → Serving}
    (hside : p.callsAt migrationId q sp = {⟨n, resume, m, .lookup migrationId' oldId next⟩}) :
    Matched migrationId p q .waiting sq { w with net := { w.net with
      calls := ⟨n, resume, m, next (((w.net.state m).pendingMigrations.get?
        (migrationId', oldId)).map (·.channel))⟩ ::ₘ q.callsAt migrationId p sq } } := by
  rcases callsAt_cases hside with ⟨rfl, heq⟩ | ⟨rfl, heq⟩ | ⟨rfl, heq⟩ | ⟨rfl, heq⟩
  · cases heq
    obtain ⟨pending, hpending, hchannel, _⟩ :=
      stateAt_pending B.linked' B.migrates' (h.ordered (.inl trivial)).2
    refine ⟨h.state, h.state', h.tasks, h.inbox, ?_, h.prepares, h.migrates, h.ordered,
      fun hmet => hmet.elim, fun _ => trivial⟩
    show (⟨_, _, _, p.afterLookup migrationId q (((w.net.state q.node).pendingMigrations.get?
      (migrationId, q.id)).map _)⟩ : Call ν) ::ₘ _ = _
    rw [h.state', hpending, Option.map_some, hchannel]
    rfl
  · cases heq
  · cases heq
  · cases heq

lemma Matched.ready (B : BothMigrate links migrationId p q)
    (h : Matched migrationId p q sp sq w) {n m : ν} {resume : CallResult → Process}
    {migrationId' : MigrationId} {oldId : IdentityId} {channel : ℕ} {next : Bool → Serving}
    {pending : PendingMigration}
    (hside : p.callsAt migrationId q sp = {⟨n, resume, m, .wait migrationId' oldId channel next⟩})
    (hp : (w.net.state m).pendingMigrations.get? (migrationId', oldId) = some pending)
    (hready : pending.ready = true) :
    Matched migrationId p q .fetching sq { w with net := { w.net with
      calls := ⟨n, resume, m, next true⟩ ::ₘ q.callsAt migrationId p sq } } := by
  rcases callsAt_cases hside with ⟨rfl, heq⟩ | ⟨rfl, heq⟩ | ⟨rfl, heq⟩ | ⟨rfl, heq⟩
  · cases heq
  · cases heq
    obtain ⟨pending', hpending', _, hmigrated⟩ :=
      stateAt_pending B.linked' B.migrates' (h.ordered (.inl trivial)).2
    rw [h.state', hpending'] at hp
    cases hp
    exact ⟨h.state, h.state', h.tasks, h.inbox, rfl, h.prepares, h.migrates, h.ordered,
      fun _ => hmigrated hready, fun _ => trivial⟩
  · cases heq
  · cases heq

/-- A pending migration stays pending: the party does not see its channel closed. -/
lemma Matched.not_closed (B : BothMigrate links migrationId p q)
    (h : Matched migrationId p q sp sq w) {n m : ν} {resume : CallResult → Process}
    {migrationId' : MigrationId} {oldId : IdentityId} {channel : ℕ} {next : Bool → Serving}
    (hside : p.callsAt migrationId q sp = {⟨n, resume, m, .wait migrationId' oldId channel next⟩})
    (hp : ∀ pending, (w.net.state m).pendingMigrations.get? (migrationId', oldId) = some pending →
      pending.channel ≠ channel) : False := by
  rcases callsAt_cases hside with ⟨rfl, heq⟩ | ⟨rfl, heq⟩ | ⟨rfl, heq⟩ | ⟨rfl, heq⟩
  · cases heq
  · cases heq
    obtain ⟨pending, hpending, hchannel, _⟩ :=
      stateAt_pending B.linked' B.migrates' (h.ordered (.inl trivial)).2
    rw [h.state'] at hp
    exact hp pending hpending hchannel
  · cases heq
  · cases heq

lemma Matched.fetch (B : BothMigrate links migrationId p q)
    (h : Matched migrationId p q sp sq w) {n m : ν} {resume : CallResult → Process}
    {migrationId' : MigrationId} {oldId : IdentityId} {arc : ArcId}
    {next : Except Error DuplicationData → Serving}
    (hside : p.callsAt migrationId q sp = {⟨n, resume, m, .fetch migrationId' oldId arc next⟩}) :
    Matched migrationId p q .answered sq { w with net := { w.net with
      calls := ⟨n, resume, m, next ((w.net.state m).fetchDuplicationData migrationId' oldId arc)⟩
        ::ₘ q.callsAt migrationId p sq } } := by
  rcases callsAt_cases hside with ⟨rfl, heq⟩ | ⟨rfl, heq⟩ | ⟨rfl, heq⟩ | ⟨rfl, heq⟩
  · cases heq
  · cases heq
  · cases heq
    refine ⟨h.state, h.state', h.tasks, h.inbox, ?_, h.prepares, h.migrates, h.ordered, h.met,
      fun _ => trivial⟩
    show (⟨_, _, _, p.afterFetch migrationId q ((w.net.state q.node).fetchDuplicationData
      migrationId q.id q.arc)⟩ : Call ν) ::ₘ _ = _
    rw [h.state', stateAt_fetch B.linked' B.migrates' (h.met trivial)]
    rfl
  · cases heq

lemma Matched.reply (h : Matched migrationId p q sp sq w) {n m : ν}
    {resume : CallResult → Process} {result : CallResult}
    (hside : p.callsAt migrationId q sp = {⟨n, resume, m, .reply result⟩}) :
    Matched migrationId p q .sending sq { w with net := { w.net with
      tasks := (n, resume result) ::ₘ w.net.tasks, calls := q.callsAt migrationId p sq } } := by
  rcases callsAt_cases hside with ⟨rfl, heq⟩ | ⟨rfl, heq⟩ | ⟨rfl, heq⟩ | ⟨rfl, heq⟩
  · cases heq
  · cases heq
  · cases heq
  · cases heq
    refine ⟨h.state, h.state', ?_, h.inbox, (zero_add _).symm, h.prepares, h.migrates, h.ordered,
      h.met, fun _ => trivial⟩
    show _ ::ₘ w.net.tasks = _
    rw [h.tasks]
    exact congrArg _ (zero_add _)

variable [DecidableEq ν]

lemma Matched.prepare (B : BothMigrate links migrationId p q)
    (h : Matched migrationId p q sp sq w) {n : ν} {d : Draw} {cmd : Cmd}
    (hside : p.preparesAt migrationId sp = {(n, d, cmd)}) :
    Matched migrationId p q .prepared sq
      ⟨q.preparesAt migrationId sq, w.migrates, w.net.execute n d cmd⟩ := by
  cases sp with
  | idle =>
      cases Multiset.singleton_inj.mp hside
      have hstate := execute_state B.toSharing w.net p.draw (.prepareMigration migrationId p.id)
      have hhandle : (w.net.state p.node).handle p.draw (.prepareMigration migrationId p.id)
          = ⟨p.prepared migrationId, some (.ok ()), []⟩ := by
        rw [h.state]
        exact prepared_eq B.linked
      refine ⟨?_, hstate.2.trans h.state', ?_, h.inbox, h.calls, (zero_add _).symm, h.migrates,
        fun hor => ?_, h.met, fun hmet => ?_⟩
      · rw [hstate.1, hhandle]
        rfl
      · show w.net.tasks + _ = _
        rw [hhandle, h.tasks]
        exact add_zero _
      · exact ⟨trivial, (h.ordered hor).2⟩
      · exact (h.met' hmet).elim
  | _ => exact absurd hside (Multiset.zero_ne_singleton _)

lemma Matched.migrate (B : BothMigrate links migrationId p q)
    (h : Matched migrationId p q sp sq w) (hp : w.prepares = 0) {n : ν} {d : Draw} {cmd : Cmd}
    (hside : p.migratesAt migrationId sp = {(n, d, cmd)}) :
    Matched migrationId p q .asking sq
      ⟨0, q.migratesAt migrationId sq, w.net.execute n d cmd⟩ := by
  have hzero := h.prepares.symm.trans hp
  rw [add_eq_zero] at hzero
  cases sp with
  | idle => exact absurd hzero.1 (Multiset.singleton_ne_zero _)
  | prepared =>
      have hsq : sq.HasPrepared := by
        cases sq with
        | idle => exact absurd hzero.2 (Multiset.singleton_ne_zero _)
        | _ => trivial
      cases Multiset.singleton_inj.mp hside
      have hstate := execute_state B.toSharing w.net p.draw (.migrate migrationId p.id p.devices)
      obtain ⟨_, _, heq⟩ := migrated_eq B.linked B.migrates
      have hspawned : ((w.net.state p.node).handle p.draw
          (.migrate migrationId p.id p.devices)).spawned
          = [.call p.arc (p.ask migrationId q) (p.resume migrationId q)] := by
        rw [h.state]
        show ((p.prepared migrationId).onMigrate p.draw migrationId p.id p.devices).spawned = _
        rw [heq]
      refine ⟨?_, hstate.2.trans h.state', ?_, h.inbox, h.calls, ((zero_add _).trans hzero.2).symm,
        (zero_add _).symm, fun _ => ⟨trivial, hsq⟩, fun hmet => hmet.elim, fun hmet => trivial⟩
      · rw [hstate.1, h.state]
        rfl
      · show w.net.tasks + Multiset.ofList (List.map _ ((w.net.state p.node).handle p.draw _).spawned)
          = _
        rw [hspawned, h.tasks]
        exact (congrArg (· + _) (zero_add _)).trans (add_comm _ _)
  | _ => exact absurd hside (Multiset.zero_ne_singleton _)

lemma Matched.execute (B : BothMigrate links migrationId p q)
    (h : Matched migrationId p q sp sq w) {n : ν} {cmd : Cmd} (d : Draw)
    (hside : p.inboxAt migrationId q sp = {(n, cmd)}) :
    Matched migrationId p q .applied sq
      { w with net := { w.net with inbox := q.inboxAt migrationId p sq }.execute n d cmd } := by
  cases sp with
  | queued =>
      cases Multiset.singleton_inj.mp hside
      have hhandle := handle_apply B.linked B.migrates d (some q.answer)
      have hstate := execute_state B.toSharing { w.net with inbox := q.inboxAt migrationId p sq } d
        (p.apply migrationId q false (some q.answer))
      have hp : w.net.state p.node = p.migrated migrationId := h.state
      refine ⟨?_, hstate.2.trans h.state', ?_, (zero_add _).symm, h.calls, h.prepares, h.migrates,
        h.ordered, h.met, fun _ => trivial⟩
      · rw [hstate.1]
        show ((w.net.state p.node).handle d _).state = _
        rw [hp, hhandle]
        rfl
      · show w.net.tasks + Multiset.ofList (List.map _ ((w.net.state p.node).handle d _).spawned) = _
        rw [hp, hhandle, h.tasks]
        exact add_zero _
  | _ => exact absurd hside (Multiset.zero_ne_singleton _)

/-- One step of a session in which both sides migrate: whichever side it is of, that side gets one
stage further. -/
theorem Matched.step (B : BothMigrate links migrationId p q) (h : Matched migrationId p q sp sq w)
    {w' : Session ν} (hstep : Session.Step links w w') :
    ∃ sp' sq', Matched migrationId p q sp' sq' w' := by
  cases hstep with
  | prepare hc hd =>
      rw [h.prepares] at hc
      rcases cons_eq_add_cases (card_preparesAt sp) (card_preparesAt sq) hc.symm with
        ⟨hside, rfl⟩ | ⟨hside, rfl⟩
      · exact ⟨_, _, h.prepare B hside⟩
      · exact ⟨_, _, (h.symm.prepare B.symm hside).symm⟩
  | migrate hp hc hd =>
      rw [h.migrates] at hc
      rcases cons_eq_add_cases (card_migratesAt sp) (card_migratesAt sq) hc.symm with
        ⟨hside, rfl⟩ | ⟨hside, rfl⟩
      · exact ⟨_, _, h.migrate B hp hside⟩
      · exact ⟨_, _, (h.symm.migrate B.symm hp hside).symm⟩
  | move hmove =>
      cases hmove with
      | execute d hq hd =>
          rw [h.inbox] at hq
          rcases cons_eq_add_cases (card_inboxAt sp) (card_inboxAt sq) hq.symm with
            ⟨hside, rfl⟩ | ⟨hside, rfl⟩
          · exact ⟨_, _, h.execute B d hside⟩
          · exact ⟨_, _, (h.symm.execute B.symm d hside).symm⟩
      | send ht =>
          rw [h.tasks] at ht
          rcases cons_eq_add_cases (card_tasksAt sp) (card_tasksAt sq) ht.symm with
            ⟨hside, rfl⟩ | ⟨hside, rfl⟩
          · exact ⟨_, _, h.send hside⟩
          · exact ⟨_, _, (h.symm.send hside).symm⟩
      | finish ht =>
          rw [h.tasks] at ht
          rcases cons_eq_add_cases (card_tasksAt sp) (card_tasksAt sq) ht.symm with
            ⟨hside, rfl⟩ | ⟨hside, rfl⟩
          · rcases tasksAt_cases hside with ⟨_, heq⟩ | ⟨_, heq⟩ <;> cases heq
          · rcases tasksAt_cases hside with ⟨_, heq⟩ | ⟨_, heq⟩ <;> cases heq
      | dial ht hlink =>
          rw [h.tasks] at ht
          rcases cons_eq_add_cases (card_tasksAt sp) (card_tasksAt sq) ht.symm with
            ⟨hside, rfl⟩ | ⟨hside, rfl⟩
          · exact ⟨_, _, h.dial B hside hlink⟩
          · exact ⟨_, _, (h.symm.dial B.symm hside hlink).symm⟩
      | mainId hc =>
          rw [h.calls] at hc
          rcases cons_eq_add_cases (card_callsAt sp) (card_callsAt sq) hc.symm with
            ⟨hside, rfl⟩ | ⟨hside, rfl⟩
          · rcases callsAt_cases hside with ⟨_, heq⟩ | ⟨_, heq⟩ | ⟨_, heq⟩ | ⟨_, heq⟩ <;> cases heq
          · rcases callsAt_cases hside with ⟨_, heq⟩ | ⟨_, heq⟩ | ⟨_, heq⟩ | ⟨_, heq⟩ <;> cases heq
      | lookup hc =>
          rw [h.calls] at hc
          rcases cons_eq_add_cases (card_callsAt sp) (card_callsAt sq) hc.symm with
            ⟨hside, rfl⟩ | ⟨hside, rfl⟩
          · exact ⟨_, _, h.lookup B hside⟩
          · exact ⟨_, _, (h.symm.lookup B.symm hside).symm⟩
      | ready hc hp hch hready =>
          rw [h.calls] at hc
          rcases cons_eq_add_cases (card_callsAt sp) (card_callsAt sq) hc.symm with
            ⟨hside, rfl⟩ | ⟨hside, rfl⟩
          · exact ⟨_, _, h.ready B hside hp hready⟩
          · exact ⟨_, _, (h.symm.ready B.symm hside hp hready).symm⟩
      | closed hc hp =>
          rw [h.calls] at hc
          rcases cons_eq_add_cases (card_callsAt sp) (card_callsAt sq) hc.symm with
            ⟨hside, rfl⟩ | ⟨hside, rfl⟩
          · exact (h.not_closed B hside hp).elim
          · exact (h.symm.not_closed B.symm hside hp).elim
      | fetch hc =>
          rw [h.calls] at hc
          rcases cons_eq_add_cases (card_callsAt sp) (card_callsAt sq) hc.symm with
            ⟨hside, rfl⟩ | ⟨hside, rfl⟩
          · exact ⟨_, _, h.fetch B hside⟩
          · exact ⟨_, _, (h.symm.fetch B.symm hside).symm⟩
      | queue hc =>
          rw [h.calls] at hc
          rcases cons_eq_add_cases (card_callsAt sp) (card_callsAt sq) hc.symm with
            ⟨hside, rfl⟩ | ⟨hside, rfl⟩
          · rcases callsAt_cases hside with ⟨_, heq⟩ | ⟨_, heq⟩ | ⟨_, heq⟩ | ⟨_, heq⟩ <;> cases heq
          · rcases callsAt_cases hside with ⟨_, heq⟩ | ⟨_, heq⟩ | ⟨_, heq⟩ | ⟨_, heq⟩ <;> cases heq
      | reply hc =>
          rw [h.calls] at hc
          rcases cons_eq_add_cases (card_callsAt sp) (card_callsAt sq) hc.symm with
            ⟨hside, rfl⟩ | ⟨hside, rfl⟩
          · exact ⟨_, _, h.reply hside⟩
          · exact ⟨_, _, (h.symm.reply hside).symm⟩

/-- The session in which both sides are to migrate. -/
def bothSession (migrationId : MigrationId) (p q : Party ν) (net : Network ν) : Session ν where
  prepares := {p.prepareCmd migrationId, q.prepareCmd migrationId}
  migrates := {p.migrateCmd migrationId, q.migrateCmd migrationId}
  net := net

/-- Once it is over, both sides have applied what their calls came back with. -/
theorem matched_over (B : BothMigrate links migrationId p q) {net : Network ν}
    (hrest : Session.AtRest p q net)
    (hrun : Relation.ReflTransGen (Session.Step links) (bothSession migrationId p q net) w)
    (hover : w.Over) :
    w.net.state p.node = p.final migrationId q (some q.answer) ∧
      w.net.state q.node = q.final migrationId p (some p.answer) := by
  have hmatched : ∃ sp sq, Matched migrationId p q sp sq w := by
    clear hover
    induction hrun with
    | refl =>
        exact ⟨.idle, .idle, hrest.state, hrest.state', hrest.tasks, hrest.inbox, hrest.calls,
          rfl, rfl, fun hor => (or_self_iff.mp hor).elim, fun hmet => hmet.elim,
          fun hmet => hmet.elim⟩
    | tail _ hstep ih =>
        obtain ⟨sp, sq, h⟩ := ih
        exact h.step B hstep
  obtain ⟨sp, sq, h⟩ := hmatched
  -- at every other stage there is something left to do
  have happlied : ∀ {p q : Party ν} {sp sq : Stage}, Matched migrationId p q sp sq w →
      sp = .applied := by
    intro p q sp sq h
    have htasks := (add_eq_zero.mp (h.tasks.symm.trans hover.tasks)).1
    have hinbox := (add_eq_zero.mp (h.inbox.symm.trans hover.inbox)).1
    have hcalls := (add_eq_zero.mp (h.calls.symm.trans hover.calls)).1
    have hprepares := (add_eq_zero.mp (h.prepares.symm.trans hover.prepares)).1
    have hmigrates := (add_eq_zero.mp (h.migrates.symm.trans hover.migrates)).1
    cases sp with
    | idle => exact absurd hprepares (Multiset.singleton_ne_zero _)
    | prepared => exact absurd hmigrates (Multiset.singleton_ne_zero _)
    | asking => exact absurd htasks (Multiset.singleton_ne_zero _)
    | looking => exact absurd hcalls (Multiset.singleton_ne_zero _)
    | waiting => exact absurd hcalls (Multiset.singleton_ne_zero _)
    | fetching => exact absurd hcalls (Multiset.singleton_ne_zero _)
    | answered => exact absurd hcalls (Multiset.singleton_ne_zero _)
    | sending => exact absurd htasks (Multiset.singleton_ne_zero _)
    | queued => exact absurd hinbox (Multiset.singleton_ne_zero _)
    | applied => rfl
  have hp := happlied h
  have hq := happlied h.symm
  subst hp hq
  exact ⟨h.state, h.state'⟩

/-! ## Nothing stops a side -/

/-- The stage after each. -/
def Stage.next : Stage → Stage
  | .idle => .prepared
  | .prepared => .asking
  | .asking => .looking
  | .looking => .waiting
  | .waiting => .fetching
  | .fetching => .answered
  | .answered => .sending
  | .sending => .queued
  | .queued => .applied
  | .applied => .applied

/-- A side can take its next step, once the other has prepared if that is to migrate, and once the
other has migrated if that is waited for.  The command that applies the outcome, like any, is
executed with some draw. -/
lemma Matched.next (B : BothMigrate links migrationId p q) (h : Matched migrationId p q sp sq w)
    (hd : ∃ d : Draw, d.Allowed (p.migrated migrationId)) (hsp : sp ≠ .applied)
    (hprepared : sp = .prepared → sq.HasPrepared) (hmigrated : sp = .waiting → sq.HasMigrated) :
    ∃ w', Session.Step links w w' ∧ Matched migrationId p q sp.next sq w' := by
  cases sp with
  | idle =>
      have hc := h.prepares.trans (Multiset.singleton_add _ _)
      exact ⟨_, .prepare hc (by rw [h.state]; exact B.migrates.fresh), h.prepare B rfl⟩
  | prepared =>
      have hc := h.migrates.trans (Multiset.singleton_add _ _)
      have hp : w.prepares = 0 := by
        rw [h.prepares]
        cases sq with
        | idle => exact (hprepared rfl).elim
        | _ => rfl
      exact ⟨_, .migrate hp hc (by rw [h.state]; exact B.migrates.fresh), h.migrate B hp rfl⟩
  | asking =>
      have ht := h.tasks.trans (Multiset.singleton_add _ _)
      exact ⟨_, .move (.dial ht B.link), h.dial B rfl B.link⟩
  | looking =>
      have hc := h.calls.trans (Multiset.singleton_add _ _)
      exact ⟨_, .move (.lookup hc), h.lookup B rfl⟩
  | waiting =>
      have hc := h.calls.trans (Multiset.singleton_add _ _)
      have hpending : (w.net.state q.node).pendingMigrations.get? (migrationId, q.id)
          = some ⟨q.channel, true, some q.newId, q.devices⟩ := by
        rw [h.state']
        cases sq with
        | idle => exact (hmigrated rfl).elim
        | prepared => exact (hmigrated rfl).elim
        | _ => exact migrated_pending B.linked' B.migrates'
      exact ⟨_, .move (.ready hc hpending rfl rfl), h.ready B rfl hpending rfl⟩
  | fetching =>
      have hc := h.calls.trans (Multiset.singleton_add _ _)
      exact ⟨_, .move (.fetch hc), h.fetch B rfl⟩
  | answered =>
      have hc := h.calls.trans (Multiset.singleton_add _ _)
      exact ⟨_, .move (.reply hc), h.reply rfl⟩
  | sending =>
      have ht := h.tasks.trans (Multiset.singleton_add _ _)
      exact ⟨_, .move (.send ht), h.send rfl⟩
  | queued =>
      obtain ⟨d, hd⟩ := hd
      have hq := h.inbox.trans (Multiset.singleton_add _ _)
      exact ⟨_, .move (.execute d hq (by rw [h.state]; exact hd)), h.execute B d rfl⟩
  | applied => exact absurd rfl hsp

/-- The steps a migrated side has left. -/
def Stage.left : Stage → ℕ
  | .asking => 7
  | .looking => 6
  | .waiting => 5
  | .fetching => 4
  | .answered => 3
  | .sending => 2
  | .queued => 1
  | _ => 0

/-- Once both have migrated, a side gets to its end whatever the other does. -/
lemma Matched.complete (B : BothMigrate links migrationId p q)
    (h : Matched migrationId p q sp sq w)
    (hd : ∃ d : Draw, d.Allowed (p.migrated migrationId)) (hsp : sp.HasMigrated)
    (hsq : sq.HasMigrated) :
    ∃ w', Relation.ReflTransGen (Session.Step links) w w' ∧
      Matched migrationId p q .applied sq w' := by
  generalize hn : sp.left = n
  induction n generalizing sp w with
  | zero =>
      cases sp with
      | applied => exact ⟨w, .refl, h⟩
      | idle => exact hsp.elim
      | prepared => exact hsp.elim
      | _ => cases hn
  | succ n ih =>
      have hne : sp ≠ .applied := by
        rintro rfl
        cases hn
      have hprep : sp = .prepared → sq.HasPrepared := by
        rintro rfl
        exact hsp.elim
      obtain ⟨w', hstep, h'⟩ := h.next B hd hne hprep fun _ => hsq
      have hnext : sp.next.HasMigrated ∧ sp.next.left = n := by
        cases sp <;> first | exact hsp.elim | exact ⟨trivial, Nat.succ.inj hn⟩ | cases hn
      obtain ⟨w'', hrun, h''⟩ := ih h' hnext.1 hnext.2
      exact ⟨w'', .head hstep hrun, h''⟩

/-- Some run of a handshake in which both sides migrate comes to its end. -/
theorem both_complete (B : BothMigrate links migrationId p q) {net : Network ν}
    (hrest : Session.AtRest p q net) (hd : ∃ d : Draw, d.Allowed (p.migrated migrationId))
    (hd' : ∃ d : Draw, d.Allowed (q.migrated migrationId)) :
    ∃ w, Relation.ReflTransGen (Session.Step links) (bothSession migrationId p q net) w ∧
      w.Over := by
  have h₀ : Matched migrationId p q .idle .idle (bothSession migrationId p q net) :=
    ⟨hrest.state, hrest.state', hrest.tasks, hrest.inbox, hrest.calls, rfl, rfl,
      fun hor => (or_self_iff.mp hor).elim, fun hmet => hmet.elim, fun hmet => hmet.elim⟩
  obtain ⟨w₁, s₁, h₁⟩ := h₀.next B hd nofun nofun nofun
  obtain ⟨w₂, s₂, h₂⟩ := h₁.symm.next B.symm hd' nofun nofun nofun
  obtain ⟨w₃, s₃, h₃⟩ := h₂.symm.next B hd nofun (fun _ => trivial) nofun
  obtain ⟨w₄, s₄, h₄⟩ := h₃.symm.next B.symm hd' nofun (fun _ => trivial) nofun
  obtain ⟨w₅, r₅, h₅⟩ := h₄.symm.complete B hd trivial trivial
  obtain ⟨w₆, r₆, h₆⟩ := h₅.symm.complete B.symm hd' trivial trivial
  exact ⟨w₆, .head s₁ (.head s₂ (.head s₃ (.head s₄ (r₅.trans r₆)))),
    h₆.prepares, h₆.migrates, h₆.tasks, h₆.inbox, h₆.calls⟩

end Party

end Netsukuku.Identities
