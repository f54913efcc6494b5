import Mathlib
import Netsukuku.Neighborhood.Actor
import Netsukuku.Neighborhood.Consistency

/-!
# The caps on the number of arcs

An arc is exported on three occasions.  On two the manager counts the exported arcs right before.
On the third, when a negotiation it has started comes back, it goes by what it counted when the
negotiation started.

* `Room` — a negotiation that comes back with success finds room for its arc.
* `caps_of_run` — if each does, both caps hold in every state reached.
-/

namespace Netsukuku.Neighborhood

open Manager

variable {c : Option Command} {s s' : Manager} {outs : List Output} {tasks : List ArcTask}

/-- No edit changes the cap. -/
lemma Edit.maxArcs_eq (h : Edit c s outs tasks s') : s'.maxArcs = s.maxArcs := by
  cases h with
  | negotiate hget _ => rw [negotiateArc_state hget]; rfl
  | establish hget hstate hnic _ => rw [exportArc_state hget hstate hnic]; rfl
  | _ => rfl

lemma Path.maxArcs_eq (h : Path c s outs tasks s') : s'.maxArcs = s.maxArcs := by
  induction h with
  | refl => rfl
  | tail _ edit ih => exact edit.maxArcs_eq.trans ih

/-- Both caps. -/
structure Capped (s : Manager) : Prop where
  exported : s.exportedCount ≤ s.maxArcs
  pending : s.pendingCount ≤ 4 * s.maxArcs

/-! ## The two counts -/

/-- What an entry counts as. -/
def isExported (e : ArcEntry) : Bool := e.arc.state = .established

lemma exportedCount_eq (s : Manager) : s.exportedCount = s.arcs.values.countP isExported := rfl

lemma pendingCount_eq (s : Manager) : s.pendingCount = s.arcs.values.countP fun e => !isExported e := by
  unfold Manager.pendingCount isExported
  congr 1
  funext e
  simp

/-- An entry that is stored again counts for what it has become. -/
lemma counts_setEntry {mac : Mac} {e e' : ArcEntry} (hget : s.arcs.get? mac = some e)
    (harcs : s'.arcs = s.arcs.insert mac e') :
    s'.exportedCount + (if isExported e then 1 else 0)
        = s.exportedCount + (if isExported e' then 1 else 0) ∧
      s'.pendingCount + (if isExported e then 0 else 1)
        = s.pendingCount + (if isExported e' then 0 else 1) := by
  rw [exportedCount_eq, exportedCount_eq, pendingCount_eq, pendingCount_eq, harcs,
    KeyedMap.countP_values_insert, KeyedMap.countP_values_insert,
    KeyedMap.countP_values_erase hget isExported,
    KeyedMap.countP_values_erase hget fun e => !isExported e]
  cases isExported e <;> cases isExported e' <;> simp

lemma counts_congr (harcs : s'.arcs = s.arcs) :
    s'.exportedCount = s.exportedCount ∧ s'.pendingCount = s.pendingCount := by
  rw [exportedCount_eq, exportedCount_eq, pendingCount_eq, pendingCount_eq, harcs]
  exact ⟨rfl, rfl⟩

/-- An entry that counts for what it counted before. -/
lemma counts_same {mac : Mac} {e e' : ArcEntry} (hget : s.arcs.get? mac = some e)
    (harcs : s'.arcs = s.arcs.insert mac e') (hsame : isExported e' = isExported e) :
    s'.exportedCount = s.exportedCount ∧ s'.pendingCount = s.pendingCount := by
  obtain ⟨hexported, hpending⟩ := counts_setEntry hget harcs
  rw [hsame] at hexported hpending
  exact ⟨Nat.add_right_cancel hexported, Nat.add_right_cancel hpending⟩

lemma isExported_eq_false {e : ArcEntry} (hstate : e.arc.state ≠ .established) :
    isExported e = false := decide_eq_false hstate

/-- An arc that is exported moves from one count to the other. -/
lemma counts_establish {mac : Mac} {e : ArcEntry} {nic : NicState}
    (hget : s.arcs.get? mac = some e) (hstate : e.arc.state ≠ .established)
    (hnic : s.nics.get? e.arc.myDev = some nic) :
    (s.exportArc mac).state.exportedCount = s.exportedCount + 1 ∧
      (s.exportArc mac).state.pendingCount + 1 = s.pendingCount := by
  have harcs : (s.exportArc mac).state.arcs = s.arcs.insert mac
      { e with arc := { e.arc with state := .established }, monitorCancel := s.tokens } := by
    rw [exportArc_state hget hstate hnic]
    rfl
  have hcounts := counts_setEntry hget harcs
  rw [isExported_eq_false hstate] at hcounts
  exact hcounts

/-! ## One edit -/

/-- What an edit can do to the two counts. -/
lemma Edit.counts (h : Edit c s outs tasks s') :
    (s'.exportedCount ≤ s.exportedCount ∨
      (s'.exportedCount = s.exportedCount + 1 ∧ (s.exportedCount < s.maxArcs ∨
        ∃ mac inserted, c = some (.requestArcNegotiated mac true true inserted)))) ∧
    (s'.pendingCount ≤ s.pendingCount ∨
      (s'.pendingCount = s.pendingCount + 1 ∧ s.pendingCount < s.pendingArcCap)) := by
  have hsame : s'.exportedCount = s.exportedCount ∧ s'.pendingCount = s.pendingCount →
      (s'.exportedCount ≤ s.exportedCount ∨
        (s'.exportedCount = s.exportedCount + 1 ∧ (s.exportedCount < s.maxArcs ∨
          ∃ mac inserted, c = some (.requestArcNegotiated mac true true inserted)))) ∧
      (s'.pendingCount ≤ s.pendingCount ∨
        (s'.pendingCount = s.pendingCount + 1 ∧ s.pendingCount < s.pendingArcCap)) :=
    fun h => ⟨.inl h.1.le, .inl h.2.le⟩
  cases h with
  | pin hget _ => exact hsame (counts_same hget rfl rfl)
  | @insert i dev nic id mac addr verified hnic hnew _ _ hcap =>
      have hinserted : ∀ p : ArcEntry → Bool, (s.insertArc i dev nic id mac addr
          verified).state.arcs.values.countP p = s.arcs.values.countP p
            + if p ⟨.new id mac addr dev, s.tokens, i.now, 0, verified.map Prod.fst, s.tokens⟩
              then 1 else 0 := by
        intro p
        show (s.arcs.insert mac _).values.countP p = _
        rw [KeyedMap.countP_values_insert, KeyedMap.values,
          KeyedMap.erase_entries_of_get?_none hnew]
        rfl
      refine ⟨.inl ?_, .inr ⟨?_, hcap⟩⟩
      · rw [exportedCount_eq, hinserted]
        exact le_rfl
      · rw [pendingCount_eq, hinserted, pendingCount_eq]
        rfl
  | @remove mac e isStillUsable hget =>
      refine ⟨.inl ?_, .inl ?_⟩
      · rw [exportedCount_eq, exportedCount_eq, KeyedMap.countP_values_erase hget isExported]
        exact Nat.le_add_right _ _
      · rw [pendingCount_eq, pendingCount_eq,
          KeyedMap.countP_values_erase hget fun e => !isExported e]
        exact Nat.le_add_right _ _
  | negotiate hget hstate =>
      rw [negotiateArc_state hget] at hsame ⊢
      exact hsame (counts_same hget rfl (isExported_eq_false hstate).symm)
  | giveUp _ hget hstate =>
      exact hsame (counts_same hget rfl (isExported_eq_false hstate).symm)
  | establish hget hstate hnic hwhy =>
      obtain ⟨hexported, hpending⟩ := counts_establish hget hstate hnic
      exact ⟨.inr ⟨hexported, hwhy.imp_right fun h => ⟨_, h⟩⟩,
        .inl (by omega)⟩
  | countNoRtt _ hget _ _ => exact hsame (counts_same hget rfl rfl)
  | announce noRtt cost _ hget _ => exact hsame (counts_same hget rfl rfl)
  | republish cost _ hget _ => exact hsame (counts_same hget rfl rfl)
  | _ => exact hsame (counts_congr rfl)

/-- The cap on the arcs not exported holds whatever comes. -/
lemma Path.pending_le (h : Path c s outs tasks s') (hs : s.pendingCount ≤ 4 * s.maxArcs) :
    s'.pendingCount ≤ 4 * s'.maxArcs := by
  induction h with
  | refl => exact hs
  | tail _ edit ih =>
      rw [edit.maxArcs_eq]
      rcases edit.counts.2 with hle | ⟨heq, hlt⟩
      · exact hle.trans ih
      · rw [heq]
        unfold pendingArcCap pendingArcMultiplier at hlt
        omega

/-- So does the other, unless a negotiation comes back with success. -/
lemma Path.exported_le (h : Path c s outs tasks s')
    (hc : ∀ mac inserted, c ≠ some (.requestArcNegotiated mac true true inserted))
    (hs : s.exportedCount ≤ s.maxArcs) : s'.exportedCount ≤ s'.maxArcs := by
  induction h with
  | refl => exact hs
  | tail _ edit ih =>
      rw [edit.maxArcs_eq]
      rcases edit.counts.1 with hle | ⟨heq, hlt | ⟨mac, inserted, heq'⟩⟩
      · exact hle.trans ih
      · rw [heq]
        exact hlt
      · exact absurd heq' (hc mac inserted)

/-! ## Negotiations that come back -/

/-- A negotiation that comes back with success finds its arc gone, or exported by then, or room for
one more. -/
def Room (s : Manager) (cmd : Command) : Prop :=
  ∀ mac inserted, cmd = .requestArcNegotiated mac true true inserted →
    ∀ e, s.arcs.get? mac = some e → e.arc.state ≠ .established → s.exportedCount < s.maxArcs

/-- **One command keeps the cap on the exported arcs exactly if it finds room.** -/
theorem exported_le_iff {routes : Multiset Route} (h : Consistent s routes)
    (hs : s.exportedCount ≤ s.maxArcs) (i : Input) (cmd : Command) :
    (s.handle i cmd).1.state.exportedCount ≤ s.maxArcs ↔ Room s cmd := by
  by_cases hcmd : ∃ mac inserted, cmd = .requestArcNegotiated mac true true inserted
  · obtain ⟨mac, inserted, rfl⟩ := hcmd
    show (s.exportArc mac).state.exportedCount ≤ s.maxArcs ↔ _
    constructor
    · intro hle mac' inserted' heq e hget hstate
      cases heq
      obtain ⟨nic, hnic⟩ := h.monitored mac e hget
      rw [(counts_establish hget hstate hnic).1] at hle
      exact hle
    · intro hroom
      cases hget : s.arcs.get? mac with
      | none =>
          rw [show s.exportArc mac = .pure s by simp [exportArc, hget]]
          exact hs
      | some e =>
          by_cases hstate : e.arc.state = .established
          · rw [show s.exportArc mac = .pure s by simp [exportArc, hget, hstate]]
            exact hs
          · obtain ⟨nic, hnic⟩ := h.monitored mac e hget
            rw [(counts_establish hget hstate hnic).1]
            exact hroom mac inserted rfl e hget hstate
  · have hpath := handle_path i s cmd
    have hc : ∀ mac inserted, some cmd ≠ some (.requestArcNegotiated mac true true inserted) :=
      fun mac inserted heq => hcmd ⟨mac, inserted, Option.some.inj heq⟩
    refine iff_of_true ?_ fun mac inserted heq => absurd ⟨mac, inserted, heq⟩ hcmd
    exact Path.maxArcs_eq hpath ▸ Path.exported_le hpath hc hs

/-! ## Runs -/

variable {C : Manager → Command → Prop} {myId : NodeId} {maxArcs : ℕ} {requireAuth : Bool}
  {a : Actor}

/-- What every command keeps holds of every manager reached. -/
lemma Actor.Run.manager (run : Actor.Run C myId maxArcs requireAuth a) (P : Manager → Prop)
    (hspawn : P (Manager.spawn myId maxArcs requireAuth))
    (hstep : ∀ s i cmd, C s cmd → P s → P (s.handle i cmd).1.state) : P a.manager := by
  induction run with
  | spawn => exact hspawn
  | step run step ih =>
      cases step with
      | handle i hqueue hC => exact hstep _ i _ hC ih
      | _ => exact ih

lemma Actor.Run.consistent (run : Actor.Run C myId maxArcs requireAuth a) :
    ∃ routes, Consistent a.manager routes := by
  refine run.manager (fun s => ∃ routes, Consistent s routes)
    ⟨0, consistent_spawn⟩ ?_
  rintro s i cmd - ⟨routes, h⟩
  exact ⟨_, h.path (handle_path i s cmd)⟩

/-- **The arc caps.**  In every run in which each negotiation that comes back with success finds
room, at most `maxArcs` arcs are exported and at most four times as many are not, in every state
reached. -/
theorem caps_of_run (run : Actor.Run Room myId maxArcs requireAuth a) :
    a.manager.exportedCount ≤ maxArcs ∧ a.manager.pendingCount ≤ 4 * maxArcs := by
  have hcaps := run.manager (fun s => s.maxArcs = maxArcs ∧ (∃ routes, Consistent s routes) ∧
      s.exportedCount ≤ s.maxArcs ∧ s.pendingCount ≤ 4 * s.maxArcs)
    ⟨rfl, ⟨0, consistent_spawn⟩, Nat.zero_le _, Nat.zero_le _⟩ ?_
  · obtain ⟨rfl, -, hexported, hpending⟩ := hcaps
    exact ⟨hexported, hpending⟩
  · rintro s i cmd hroom ⟨rfl, ⟨routes, h⟩, hexported, hpending⟩
    have hpath := handle_path i s cmd
    have hmax := Path.maxArcs_eq hpath
    exact ⟨hmax, ⟨_, h.path hpath⟩, hmax ▸ (exported_le_iff h hexported i cmd).mpr hroom,
      Path.pending_le hpath hpending⟩

/-! ## Two neighbours, one place -/

/-- The first neighbour asks for an arc. -/
def firstRequest : Command :=
  .requestArc "eth0" ourId "02:00:00:00:00:01" "169.254.0.1" theirId "02:00:00:00:00:02"
    "169.254.0.2" none

/-- So does the second. -/
def secondRequest : Command :=
  .requestArc "eth0" ourId "02:00:00:00:00:01" "169.254.0.1" otherId "02:00:00:00:00:03"
    "169.254.0.3" none

/-- A manager with room for one arc that has heard the first request. -/
def requestedOnce : Manager := ((monitoring 1 false).handle (.at 0) firstRequest).1.state

/-- One negotiation comes back with success, and the caps hold. -/
theorem caps_of_run_once :
    (requestedOnce.handle (.at 0)
        (.requestArcNegotiated "02:00:00:00:00:02" true true 1)).1.state.exportedCount ≤ 1 ∧
      (requestedOnce.handle (.at 0)
        (.requestArcNegotiated "02:00:00:00:00:02" true true 1)).1.state.pendingCount ≤ 4 * 1 := by
  have hno : ∀ (s : Manager) (cmd : Command), cmd.result = none → Room s cmd := by
    rintro s cmd hresult mac inserted rfl
    cases hresult
  have hrequested : Actor.Run Room ourId 1 false
      ⟨requestedOnce, [], .negotiation "02:00:00:00:00:02" true 1 ::ₘ 0, _⟩ :=
    (Actor.Run.spawn.command (.at 0) (.startMonitor eth0) rfl (hno _ _ rfl)).command (.at 0)
      firstRequest rfl (hno _ _ rfl)
  have hroom : Room requestedOnce (.requestArcNegotiated "02:00:00:00:00:02" true true 1) :=
    fun _ _ _ _ _ _ => by decide +kernel
  exact caps_of_run ((hrequested.answered true).next (.at 0) hroom)

/-- With room for one arc, two negotiations start before either comes back, and both arcs are
exported. -/
theorem not_capped :
    ∃ a, Actor.Run (fun _ _ => True) ourId 1 false a ∧ 1 < a.manager.exportedCount := by
  have hrequested : Actor.Run (fun _ _ => True) ourId 1 false
      ⟨_, [], .negotiation "02:00:00:00:00:02" true 1 ::ₘ
        .negotiation "02:00:00:00:00:03" true 2 ::ₘ 0, _⟩ :=
    ((Actor.Run.spawn.command (.at 0) (.startMonitor eth0) rfl trivial).command (.at 0)
      firstRequest rfl trivial).command (.at 0) secondRequest rfl trivial
  have hanswered : Actor.Run (fun _ _ => True) ourId 1 false
      ⟨_, [.requestArcNegotiated "02:00:00:00:00:02" true true 1,
        .requestArcNegotiated "02:00:00:00:00:03" true true 2], 0, _⟩ :=
    (hrequested.answered true).answered true
  refine ⟨_, (hanswered.next (.at 0) trivial).next (.at 0) trivial, ?_⟩
  decide +kernel

end Netsukuku.Neighborhood
