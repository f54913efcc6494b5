import Mathlib
import Netsukuku.Identities.Handshake

/-!
# The handshake when one side migrates alone

The peer's handler finds nothing pending: it queues what its actor is to note, answers at once, and
the migrating side applies that answer whether or not the note has been executed by then.

* `Party.Lone` — a session in which the migrating side has got to a stage and the note to a stage
  of its own.
* `Party.Lone.step`, `Party.lone_over` — every step keeps such a session, and where that ends.
-/

namespace Netsukuku.Identities

variable {ν : Type}

namespace Party

/-! ## The stages -/

/-- How far the side that migrates has got. -/
inductive LoneStage where
  | idle
  | prepared
  | asking
  | looking
  | noting
  | answered
  | sending
  | queued
  | applied

/-- The peer's handler has queued its note. -/
def LoneStage.HasNoted : LoneStage → Prop
  | .answered | .sending | .queued | .applied => True
  | _ => False

/-- Where the note is. -/
inductive Note where
  | unsent
  | queued
  | executed

section Stages

variable (migrationId : MigrationId) (p q : Party ν)

/-- What the peer's actor is to note: `neighbour_migrated`. -/
def note : Cmd :=
  .neighbourMigrated q.id p.id p.newId p.dev.oldIdNewMac p.dev.oldIdNewLinklocal q.arc

/-- The peer once it has noted it. -/
def informed : State :=
  q.init.onNeighbourMigrated q.id p.id p.newId p.dev.oldIdNewMac p.dev.oldIdNewLinklocal q.arc

def loneState : LoneStage → State
  | .idle => p.init
  | .prepared => p.prepared migrationId
  | .applied => p.final migrationId q none
  | _ => p.migrated migrationId

def peerState : Note → State
  | .executed => p.informed q
  | _ => q.init

def loneTasks : LoneStage → Multiset (ν × Process)
  | .asking => {(p.node, .call p.arc (p.ask migrationId q) (p.resume migrationId q))}
  | .sending => {(p.node, .send (p.apply migrationId q false none))}
  | _ => 0

def loneInbox : LoneStage → Multiset (ν × Cmd)
  | .queued => {(p.node, p.apply migrationId q false none)}
  | _ => 0

def noteInbox : Note → Multiset (ν × Cmd)
  | .queued => {(q.node, p.note q)}
  | _ => 0

def loneCalls : LoneStage → Multiset (Call ν)
  | .looking => {⟨p.node, p.resume migrationId q, q.node,
      .lookup migrationId q.id (p.afterLookup migrationId q)⟩}
  | .noting => {⟨p.node, p.resume migrationId q, q.node,
      .queue (p.note q) (.reply (.ok .empty))⟩}
  | .answered => {⟨p.node, p.resume migrationId q, q.node, .reply (.ok .empty)⟩}
  | _ => 0

def lonePrepares : LoneStage → Multiset (ν × Draw × Cmd)
  | .idle => {p.prepareCmd migrationId}
  | _ => 0

def loneMigrates : LoneStage → Multiset (ν × Draw × Cmd)
  | .idle | .prepared => {p.migrateCmd migrationId}
  | _ => 0

/-- A session in which `p` migrates alone. -/
structure Lone (s : LoneStage) (n : Note) (w : Session ν) : Prop where
  state : w.net.state p.node = p.loneState migrationId q s
  state' : w.net.state q.node = p.peerState q n
  tasks : w.net.tasks = p.loneTasks migrationId q s
  inbox : w.net.inbox = p.loneInbox migrationId q s + p.noteInbox q n
  calls : w.net.calls = p.loneCalls migrationId q s
  prepares : w.prepares = p.lonePrepares migrationId s
  migrates : w.migrates = p.loneMigrates migrationId s
  sent : n ≠ .unsent ↔ s.HasNoted

end Stages

variable {links : Links ν} {migrationId : MigrationId} {p q : Party ν} {s : LoneStage} {n : Note}
  {w : Session ν}

/-! ## One step -/

/-- What the side's task may be doing. -/
lemma loneTasks_cases {t : ν × Process} {ts : Multiset (ν × Process)}
    (h : p.loneTasks migrationId q s = t ::ₘ ts) : ts = 0 ∧
      ((s = .asking ∧ t = (p.node, .call p.arc (p.ask migrationId q) (p.resume migrationId q))) ∨
        (s = .sending ∧ t = (p.node, .send (p.apply migrationId q false none)))) := by
  cases s with
  | asking =>
      obtain ⟨rfl, rfl⟩ := (Multiset.singleton_eq_cons_iff _).mp h
      exact ⟨rfl, .inl ⟨rfl, rfl⟩⟩
  | sending =>
      obtain ⟨rfl, rfl⟩ := (Multiset.singleton_eq_cons_iff _).mp h
      exact ⟨rfl, .inr ⟨rfl, rfl⟩⟩
  | _ => exact absurd h (Multiset.zero_ne_cons)

/-- Where its call may be. -/
lemma loneCalls_cases {c : Call ν} {cs : Multiset (Call ν)}
    (h : p.loneCalls migrationId q s = c ::ₘ cs) : cs = 0 ∧
      ((s = .looking ∧ c = ⟨p.node, p.resume migrationId q, q.node,
          .lookup migrationId q.id (p.afterLookup migrationId q)⟩) ∨
        (s = .noting ∧ c = ⟨p.node, p.resume migrationId q, q.node,
          .queue (p.note q) (.reply (.ok .empty))⟩) ∨
        (s = .answered ∧ c = ⟨p.node, p.resume migrationId q, q.node, .reply (.ok .empty)⟩)) := by
  cases s with
  | looking =>
      obtain ⟨rfl, rfl⟩ := (Multiset.singleton_eq_cons_iff _).mp h
      exact ⟨rfl, .inl ⟨rfl, rfl⟩⟩
  | noting =>
      obtain ⟨rfl, rfl⟩ := (Multiset.singleton_eq_cons_iff _).mp h
      exact ⟨rfl, .inr (.inl ⟨rfl, rfl⟩)⟩
  | answered =>
      obtain ⟨rfl, rfl⟩ := (Multiset.singleton_eq_cons_iff _).mp h
      exact ⟨rfl, .inr (.inr ⟨rfl, rfl⟩)⟩
  | _ => exact absurd h (Multiset.zero_ne_cons)

/-- The note is not sent before the handler has noted. -/
lemma Lone.unsent (h : Lone migrationId p q s n w) (hs : ¬s.HasNoted) : n = .unsent :=
  not_not.mp fun hn => hs (h.sent.mp hn)

variable [DecidableEq ν]

lemma Lone.prepare (S : Sharing links migrationId p q) (h : Lone migrationId p q s n w)
    {node : ν} {d : Draw} {cmd : Cmd} {rest : Multiset (ν × Draw × Cmd)}
    (hc : w.prepares = (node, d, cmd) ::ₘ rest) :
    ∃ s' n', Lone migrationId p q s' n' ⟨rest, w.migrates, w.net.execute node d cmd⟩ := by
  rw [h.prepares] at hc
  cases s with
  | idle =>
      obtain ⟨heq, rfl⟩ := (Multiset.singleton_eq_cons_iff _).mp hc
      cases heq
      have hstate := execute_state S w.net p.draw (.prepareMigration migrationId p.id)
      have hhandle : (w.net.state p.node).handle p.draw (.prepareMigration migrationId p.id)
          = ⟨p.prepared migrationId, some (.ok ()), []⟩ := by
        rw [h.state]
        exact prepared_eq S.linked
      refine ⟨.prepared, n, ?_, hstate.2.trans h.state', ?_, h.inbox, h.calls, rfl, h.migrates,
        h.sent⟩
      · rw [hstate.1, hhandle]
        rfl
      · show w.net.tasks + _ = _
        rw [hhandle, h.tasks]
        rfl
  | _ => exact absurd hc Multiset.zero_ne_cons

lemma Lone.migrate (S : Sharing links migrationId p q) (hm : p.CanMigrate)
    (h : Lone migrationId p q s n w) (hp : w.prepares = 0) {node : ν} {d : Draw} {cmd : Cmd}
    {rest : Multiset (ν × Draw × Cmd)} (hc : w.migrates = (node, d, cmd) ::ₘ rest) :
    ∃ s' n', Lone migrationId p q s' n' ⟨0, rest, w.net.execute node d cmd⟩ := by
  rw [h.migrates] at hc
  cases s with
  | idle => exact absurd (h.prepares.symm.trans hp) (Multiset.singleton_ne_zero _)
  | prepared =>
      obtain ⟨heq, rfl⟩ := (Multiset.singleton_eq_cons_iff _).mp hc
      cases heq
      have hstate := execute_state S w.net p.draw (.migrate migrationId p.id p.devices)
      obtain ⟨_, _, heq⟩ := migrated_eq S.linked hm
      have hspawned : ((w.net.state p.node).handle p.draw
          (.migrate migrationId p.id p.devices)).spawned
          = [.call p.arc (p.ask migrationId q) (p.resume migrationId q)] := by
        rw [h.state]
        show ((p.prepared migrationId).onMigrate p.draw migrationId p.id p.devices).spawned = _
        rw [heq]
      refine ⟨.asking, n, ?_, hstate.2.trans h.state', ?_, h.inbox, h.calls, rfl, rfl, h.sent⟩
      · rw [hstate.1, h.state]
        rfl
      · show w.net.tasks + Multiset.ofList (List.map _ ((w.net.state p.node).handle p.draw _).spawned)
          = _
        rw [hspawned, h.tasks]
        rfl
  | _ => exact absurd hc Multiset.zero_ne_cons

/-- Executing the outcome, or the note. -/
lemma Lone.execute (S : Sharing links migrationId p q) (hm : p.CanMigrate)
    (h : Lone migrationId p q s n w) {node : ν} {cmd : Cmd} {rest : Multiset (ν × Cmd)} (d : Draw)
    (hq : w.net.inbox = (node, cmd) ::ₘ rest) :
    ∃ s' n', Lone migrationId p q s' n'
      { w with net := { w.net with inbox := rest }.execute node d cmd } := by
  rw [h.inbox] at hq
  have hcard : (p.loneInbox migrationId q s).card ≤ 1 := by cases s <;> simp [loneInbox]
  have hcard' : (p.noteInbox q n).card ≤ 1 := by cases n <;> simp [noteInbox]
  rcases cons_eq_add_cases hcard hcard' hq.symm with ⟨hside, rfl⟩ | ⟨hside, rfl⟩
  · cases s with
    | queued =>
        cases Multiset.singleton_inj.mp hside
        have hstate := execute_state S { w.net with inbox := p.noteInbox q n } d
          (p.apply migrationId q false none)
        have hp : w.net.state p.node = p.migrated migrationId := h.state
        have hhandle := handle_apply S.linked hm d none
        refine ⟨.applied, n, ?_, hstate.2.trans h.state', ?_, (zero_add _).symm, h.calls,
          h.prepares, h.migrates, h.sent⟩
        · rw [hstate.1]
          show ((w.net.state p.node).handle d _).state = _
          rw [hp, hhandle]
          rfl
        · show w.net.tasks + Multiset.ofList (List.map _ ((w.net.state p.node).handle d _).spawned)
            = _
          rw [hp, hhandle, h.tasks]
          rfl
    | _ => exact absurd hside (Multiset.zero_ne_singleton _)
  · cases n with
    | queued =>
        cases Multiset.singleton_inj.mp hside
        have hstate := execute_state S.symm { w.net with inbox := p.loneInbox migrationId q s } d
          (p.note q)
        have hq : w.net.state q.node = q.init := h.state'
        refine ⟨s, .executed, hstate.2.trans h.state, ?_, ?_, (add_zero _).symm, h.calls,
          h.prepares, h.migrates, ⟨fun _ => h.sent.mp nofun, fun _ => nofun⟩⟩
        · rw [hstate.1]
          show ((w.net.state q.node).handle d (p.note q)).state = _
          rw [hq]
          rfl
        · show w.net.tasks + 0 = _
          rw [add_zero, h.tasks]
    | _ => exact absurd hside (Multiset.zero_ne_singleton _)

/-- One step of a session in which one side migrates. -/
theorem Lone.step (S : Sharing links migrationId p q) (hm : p.CanMigrate)
    (h : Lone migrationId p q s n w) {w' : Session ν} (hstep : Session.Step links w w') :
    ∃ s' n', Lone migrationId p q s' n' w' := by
  cases hstep with
  | prepare hc hd => exact h.prepare S hc
  | migrate hp hc hd => exact h.migrate S hm hp hc
  | move hmove =>
      cases hmove with
      | execute d hq hd => exact h.execute S hm d hq
      | send ht =>
          rw [h.tasks] at ht
          obtain ⟨rfl, ⟨rfl, heq⟩ | ⟨rfl, heq⟩⟩ := loneTasks_cases ht
          · cases heq
          · cases heq
            refine ⟨.queued, n, h.state, h.state', rfl, ?_, h.calls, h.prepares, h.migrates, h.sent⟩
            show _ ::ₘ w.net.inbox = _
            rw [h.inbox]
            exact congrArg _ (zero_add _)
      | finish ht =>
          rw [h.tasks] at ht
          obtain ⟨_, ⟨_, heq⟩ | ⟨_, heq⟩⟩ := loneTasks_cases ht <;> cases heq
      | dial ht hlink =>
          rw [h.tasks] at ht
          obtain ⟨rfl, ⟨rfl, heq⟩ | ⟨rfl, heq⟩⟩ := loneTasks_cases ht
          · cases heq
            rw [S.link] at hlink
            cases hlink
            refine ⟨.looking, n, h.state, h.state', rfl, h.inbox, ?_, h.prepares, h.migrates,
              h.sent⟩
            show _ ::ₘ w.net.calls = _
            rw [h.calls]
            rfl
          · cases heq
      | mainId hc =>
          rw [h.calls] at hc
          obtain ⟨_, ⟨_, heq⟩ | ⟨_, heq⟩ | ⟨_, heq⟩⟩ := loneCalls_cases hc <;> cases heq
      | lookup hc =>
          rw [h.calls] at hc
          obtain ⟨rfl, ⟨rfl, heq⟩ | ⟨rfl, heq⟩ | ⟨rfl, heq⟩⟩ := loneCalls_cases hc
          · -- the peer has not prepared, so nothing is pending there
            cases heq
            have hn := h.unsent fun hs => hs
            subst hn
            have hq : w.net.state q.node = q.init := h.state'
            refine ⟨.noting, .unsent, h.state, h.state', h.tasks, h.inbox, ?_, h.prepares,
              h.migrates, h.sent⟩
            dsimp only
            rw [hq, S.linked'.unprepared]
            rfl
          · cases heq
          · cases heq
      | ready hc =>
          rw [h.calls] at hc
          obtain ⟨_, ⟨_, heq⟩ | ⟨_, heq⟩ | ⟨_, heq⟩⟩ := loneCalls_cases hc <;> cases heq
      | closed hc =>
          rw [h.calls] at hc
          obtain ⟨_, ⟨_, heq⟩ | ⟨_, heq⟩ | ⟨_, heq⟩⟩ := loneCalls_cases hc <;> cases heq
      | fetch hc =>
          rw [h.calls] at hc
          obtain ⟨_, ⟨_, heq⟩ | ⟨_, heq⟩ | ⟨_, heq⟩⟩ := loneCalls_cases hc <;> cases heq
      | queue hc =>
          rw [h.calls] at hc
          obtain ⟨rfl, ⟨rfl, heq⟩ | ⟨rfl, heq⟩ | ⟨rfl, heq⟩⟩ := loneCalls_cases hc
          · cases heq
          · cases heq
            have hn := h.unsent fun hs => hs
            subst hn
            refine ⟨.answered, .queued, h.state, h.state', h.tasks, ?_, rfl, h.prepares,
              h.migrates, ⟨fun _ => trivial, fun _ => nofun⟩⟩
            show _ ::ₘ w.net.inbox = _
            rw [h.inbox]
            rfl
          · cases heq
      | reply hc =>
          rw [h.calls] at hc
          obtain ⟨rfl, ⟨rfl, heq⟩ | ⟨rfl, heq⟩ | ⟨rfl, heq⟩⟩ := loneCalls_cases hc
          · cases heq
          · cases heq
          · cases heq
            refine ⟨.sending, n, h.state, h.state', ?_, h.inbox, rfl, h.prepares, h.migrates,
              h.sent⟩
            show _ ::ₘ w.net.tasks = _
            rw [h.tasks]
            rfl

/-- The session in which `p` alone is to migrate. -/
def loneSession (migrationId : MigrationId) (p : Party ν) (net : Network ν) : Session ν where
  prepares := {p.prepareCmd migrationId}
  migrates := {p.migrateCmd migrationId}
  net := net

/-- Once it is over, the side that migrated has applied the empty answer and the other one has
noted it. -/
theorem lone_over (S : Sharing links migrationId p q) (hm : p.CanMigrate) {net : Network ν}
    (hrest : Session.AtRest p q net)
    (hrun : Relation.ReflTransGen (Session.Step links) (loneSession migrationId p net) w)
    (hover : w.Over) :
    w.net.state p.node = p.final migrationId q none ∧ w.net.state q.node = p.informed q := by
  have hlone : ∃ s n, Lone migrationId p q s n w := by
    clear hover
    induction hrun with
    | refl =>
        exact ⟨.idle, .unsent, hrest.state, hrest.state', hrest.tasks, hrest.inbox, hrest.calls,
          rfl, rfl, ⟨fun hn => (hn rfl).elim, fun hs => hs.elim⟩⟩
    | tail _ hstep ih =>
        obtain ⟨s, n, h⟩ := ih
        exact h.step S hm hstep
  obtain ⟨s, n, h⟩ := hlone
  have htasks := h.tasks.symm.trans hover.tasks
  have hinbox := add_eq_zero.mp (h.inbox.symm.trans hover.inbox)
  have hcalls := h.calls.symm.trans hover.calls
  -- at every other stage there is something left to do
  have hs : s = .applied := by
    cases s with
    | idle => exact absurd (h.prepares.symm.trans hover.prepares) (Multiset.singleton_ne_zero _)
    | prepared => exact absurd (h.migrates.symm.trans hover.migrates) (Multiset.singleton_ne_zero _)
    | asking => exact absurd htasks (Multiset.singleton_ne_zero _)
    | looking => exact absurd hcalls (Multiset.singleton_ne_zero _)
    | noting => exact absurd hcalls (Multiset.singleton_ne_zero _)
    | answered => exact absurd hcalls (Multiset.singleton_ne_zero _)
    | sending => exact absurd htasks (Multiset.singleton_ne_zero _)
    | queued => exact absurd hinbox.1 (Multiset.singleton_ne_zero _)
    | applied => rfl
  subst hs
  have hn : n = .executed := by
    cases n with
    | unsent => exact absurd rfl (h.sent.mpr trivial)
    | queued => exact absurd hinbox.2 (Multiset.singleton_ne_zero _)
    | executed => rfl
  subst hn
  exact ⟨h.state, h.state'⟩

end Party

end Netsukuku.Identities
