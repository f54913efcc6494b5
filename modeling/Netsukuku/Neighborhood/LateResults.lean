import Mathlib
import Netsukuku.Neighborhood.Caps
import Netsukuku.Neighborhood.Pinning

/-!
# Results that come too late

A task's result names a MAC.  The arc stored under it when the result is handled need not be the
one the task was started for: that one may have been removed and another inserted by commands that
were already waiting.

* `Inert` — what a result has to be for it to do nothing to the arc it finds.
* `Stream` — the events of one MAC, in blocks from `ArcAdded` to `ArcRemoved`.
* `late_results_of_run` — if every result that finds another arc is inert, no result touches an arc
  it was not for, and an arc is announced only if it is exported.
-/

namespace Netsukuku.Neighborhood

open Manager

variable {c : Option Command} {s s' : Manager} {outs : List Output} {tasks : List ArcTask}
  {mac key : Mac} {e : ArcEntry} {inserted : Token} {routes : Multiset Route}

/-! ## What a result does to the arc it finds -/

/-- The result does nothing to an arc in such a state. -/
def Inert (e : ArcEntry) : Command → Prop
  | .monitorResult _ .nopFailed _ => False
  | .monitorResult _ .noRtt _ =>
      e.arc.cost.isSome = true ∨ e.consecutiveNoRtt + 1 < noRttFallbackThreshold
  | .monitorResult _ (.firstSample rtt) _ =>
      e.arc.cost.isSome = true ∧ ∀ published, e.arc.cost = some (.finite published) →
        exceedsHysteresis published rtt = false
  | .monitorResult _ (.sample smoothed) _ =>
      ∀ published, e.arc.cost = some (.finite published) →
        exceedsHysteresis published smoothed = false
  | .requestArcNegotiated _ canI canYou _ =>
      if canI && canYou then e.arc.state = .established
      else e.arc.state = .discovered ∨ e.arc.state = .established
  | _ => True

/-- An arc is still the one it was. -/
def Keeps (mac : Mac) (e : ArcEntry) (r : Ran) : Prop :=
  ∃ e', r.state.arcs.get? mac = some e' ∧ e'.arc = e.arc ∧ e'.inserted = e.inserted

lemma keeps_pure (hget : s.arcs.get? mac = some e) : Keeps mac e (.pure s) := ⟨e, hget, rfl, rfl⟩

lemma keeps_setEntry_iff {e' : ArcEntry} (hinserted : e'.inserted = e.inserted) :
    Keeps mac e ⟨s.setEntry mac e', outs, tasks⟩ ↔ e'.arc = e.arc := by
  unfold Keeps setEntry
  rw [KeyedMap.get?_insert_self]
  constructor
  · rintro ⟨_, hsome, harc, _⟩
    obtain rfl := Option.some.inj hsome
    exact harc
  · exact fun harc => ⟨e', rfl, harc, hinserted⟩

lemma exceedsHysteresis_ne {published cost : UInt64} (h : exceedsHysteresis published cost = true) :
    cost ≠ published := by
  rintro rfl
  rw [not_exceedsHysteresis_self] at h
  cases h

lemma keeps_republish_iff (hget : s.arcs.get? mac = some e) (cost : UInt64) :
    Keeps mac e (s.republish mac e cost) ↔ ∀ published, e.arc.cost = some (.finite published) →
      exceedsHysteresis published cost = false := by
  unfold republish
  split
  · next published hcost =>
      split
      · next hexceeds =>
          rw [keeps_setEntry_iff (by rfl)]
          refine iff_of_false (fun heq => ?_) fun h => ?_
          · have hsame := congrArg Arc.cost heq
            rw [hcost] at hsame
            exact exceedsHysteresis_ne hexceeds (Cost.finite.inj (Option.some.inj hsame))
          · rw [h published hcost] at hexceeds
            cases hexceeds
      · next hexceeds =>
          refine iff_of_true (keeps_pure hget) fun published' hcost' => ?_
          rw [hcost] at hcost'
          obtain rfl := Cost.finite.inj (Option.some.inj hcost')
          exact Bool.eq_false_of_not_eq_true hexceeds
  · next hcost => exact iff_of_true (keeps_pure hget) fun published h => absurd h (hcost published)

/-- A first cost is a change. -/
lemma not_keeps_announce (hcost : e.arc.cost = none) {e' : ArcEntry} (harc : e'.arc = e.arc)
    (hinserted : e'.inserted = e.inserted) (cost : UInt64) :
    ¬Keeps mac e (s.announce mac e' cost) := by
  unfold announce
  rw [keeps_setEntry_iff (by exact hinserted), harc]
  intro heq
  have hsame := congrArg Arc.cost heq
  rw [hcost] at hsame
  cases hsame

/-- **A result leaves the arc it finds as it is exactly if it is inert.** -/
theorem keeps_iff_inert (h : Consistent s routes) (i : Input) {cmd : Command}
    (hresult : cmd.result = some (key, inserted)) (hget : s.arcs.get? key = some e) :
    Keeps key e (s.handle i cmd).1 ↔ Inert e cmd := by
  cases cmd with
  | monitorResult key' outcome inserted' =>
      cases hresult
      show Keeps key e (s.handleMonitorResult key outcome) ↔ _
      unfold handleMonitorResult
      cases outcome with
      | nopFailed =>
          refine iff_of_false ?_ id
          rintro ⟨e', hget', -, -⟩
          have hgone : (s.removeMyArc key false).state.arcs.get? key = none := by
            rw [removeMyArc, hget]
            exact KeyedMap.get?_erase_self _ _
          rw [hgone] at hget'
          cases hget'
      | noRtt =>
          dsimp only
          rw [hget]
          dsimp only
          split
          · next hcost => exact iff_of_true (keeps_pure hget) (.inl hcost)
          · next hcost =>
              have hnone : e.arc.cost = none := by simpa using hcost
              split
              · next hhigh =>
                  refine iff_of_false (not_keeps_announce hnone (by rfl) (by rfl) _) ?_
                  exact fun h => h.elim hcost (not_lt.mpr hhigh)
              · next hlow =>
                  exact iff_of_true ((keeps_setEntry_iff (by rfl)).mpr rfl) (.inr (not_le.mp hlow))
      | firstSample rtt =>
          dsimp only
          rw [hget]
          dsimp only
          split
          · next hcost =>
              rw [keeps_republish_iff hget]
              exact (and_iff_right hcost).symm
          · next hcost =>
              have hnone : e.arc.cost = none := by simpa using hcost
              exact iff_of_false (not_keeps_announce hnone rfl rfl _) fun h => hcost h.1
      | sample smoothed =>
          dsimp only
          rw [hget]
          exact keeps_republish_iff hget smoothed
  | requestArcNegotiated mac' canI canYou inserted' =>
      cases hresult
      show Keeps key e (s.handleRequestArcNegotiated key canI canYou) ↔
        if canI && canYou then e.arc.state = .established
        else e.arc.state = .discovered ∨ e.arc.state = .established
      unfold handleRequestArcNegotiated
      by_cases hboth : (canI && canYou) = true
      · rw [if_pos hboth, if_pos hboth]
        by_cases hstate : e.arc.state = .established
        · rw [show s.exportArc key = .pure s by simp [exportArc, hget, hstate]]
          exact iff_of_true (keeps_pure hget) hstate
        · obtain ⟨nic, hnic⟩ := h.monitored key e hget
          refine iff_of_false ?_ hstate
          rintro ⟨e', hget', harc, -⟩
          rw [exportArc_state hget hstate hnic] at hget'
          have hsome := (KeyedMap.get?_insert_self _ _ _).symm.trans hget'
          obtain rfl := Option.some.inj hsome
          exact hstate (congrArg Arc.state harc).symm
      · rw [if_neg hboth, if_neg hboth, hget]
        dsimp only
        split
        · next hstate =>
            rw [Ran.pure, keeps_setEntry_iff (by rfl)]
            constructor
            · exact fun heq => .inl (congrArg Arc.state heq).symm
            · rintro (hdiscovered | hestablished)
              · rw [← hdiscovered]
              · exact absurd hestablished hstate
        · next hstate => exact iff_of_true (keeps_pure hget) (.inr (not_not.mp hstate))
  | _ => cases hresult

/-- Every result that finds another arc than it was for is inert. -/
def Harmless (s : Manager) (cmd : Command) : Prop :=
  ∀ key inserted e, cmd.result = some (key, inserted) → s.arcs.get? key = some e →
    e.inserted ≠ inserted → Inert e cmd

/-! ## The events of one MAC -/

/-- An event about the arc under a MAC. -/
def eventOf (mac : Mac) : Output → Option Event
  | .event event => if event.arc.neighbourMac = mac then some event else none
  | _ => none

/-- The events about arcs under a MAC. -/
def eventsOf (mac : Mac) (log : List Output) : List Event := log.filterMap (eventOf mac)

lemma eventsOf_append (mac : Mac) (l l' : List Output) :
    eventsOf mac (l ++ l') = eventsOf mac l ++ eventsOf mac l' := List.filterMap_append

@[simp] lemma eventsOf_ip (mac : Mac) (op : IpRouteOperation) (l : List Output) :
    eventsOf mac (.ip op :: l) = eventsOf mac l := rfl

@[simp] lemma eventsOf_removeArc (mac : Mac) (dev : Dev) (args : NeighborhoodArcArgs)
    (l : List Output) : eventsOf mac (.removeArc dev args :: l) = eventsOf mac l := rfl

@[simp] lemma eventsOf_event (mac : Mac) (event : Event) :
    eventsOf mac [.event event] = if event.arc.neighbourMac = mac then [event] else [] := by
  unfold eventsOf eventOf
  by_cases hmac : event.arc.neighbourMac = mac <;> simp [hmac]

/-- Events in blocks: one `ArcAdded`, any number of `ArcCostChanged`, one `ArcRemoved`.  The flag
says whether the last block is still open. -/
inductive Stream : Bool → List Event → Prop
  | start : Stream false []
  | added {l : List Event} (arc : Arc) (h : Stream false l) : Stream true (l ++ [.arcAdded arc])
  | changed {l : List Event} (arc : Arc) (h : Stream true l) :
      Stream true (l ++ [.arcCostChanged arc])
  | removed {l : List Event} (arc : Arc) (h : Stream true l) :
      Stream false (l ++ [.arcRemoved arc])

/-- The arc under a MAC has a cost: it has been announced. -/
def announced (s : Manager) (mac : Mac) : Bool := (s.arcs.get? mac).any (·.arc.cost.isSome)

lemma announced_setEntry (s : Manager) (key : Mac) (e : ArcEntry) (mac : Mac) :
    announced (s.setEntry key e) mac
      = if mac = key then e.arc.cost.isSome else announced s mac := by
  unfold announced setEntry
  rw [KeyedMap.get?_insert_eq_update]
  by_cases hmac : mac = key
  · rw [if_pos hmac, hmac, Function.update_self]
    rfl
  · rw [if_neg hmac, Function.update_of_ne hmac]

lemma announced_of_get? (hget : s.arcs.get? mac = some e) :
    announced s mac = e.arc.cost.isSome := by
  rw [announced, hget]
  rfl

/-- An entry whose cost stays as it is. -/
lemma announced_setEntry_same (hget : s.arcs.get? key = some e) (e' : ArcEntry)
    (hcost : e'.arc.cost = e.arc.cost) (mac : Mac) :
    announced (s.setEntry key e') mac = announced s mac := by
  rw [announced_setEntry]
  split_ifs with hmac
  · rw [hmac, announced_of_get? hget, hcost]
  · rfl

/-- The events of a removal. -/
lemma eventsOf_removalOutputs (isStillUsable : Bool) (mac : Mac) :
    eventsOf mac (s.removalOutputs e isStillUsable)
      = if e.arc.cost.isSome = true ∧ e.arc.neighbourMac = mac then
          [.arcRemoved { e.arc with state := .removed }]
        else [] := by
  unfold removalOutputs
  dsimp only
  rw [eventsOf_append]
  have hevent : eventsOf mac (if e.arc.cost.isSome = true then
      [.event (.arcRemoved { e.arc with state := .removed })] else [])
        = if e.arc.cost.isSome = true ∧ e.arc.neighbourMac = mac then
            [.arcRemoved { e.arc with state := .removed }]
          else [] := by
    by_cases hcost : e.arc.cost.isSome = true
    · rw [if_pos hcost, eventsOf_event]
      simp only [hcost, true_and]
      rfl
    · rw [if_neg hcost, if_neg fun h => hcost h.1]
      rfl
  rw [hevent]
  -- the calls before it are not events
  cases s.nics.get? e.arc.myDev <;> cases isStillUsable <;> rfl

/-- **An edit continues the stream of every MAC.** -/
lemma Edit.stream (h : Edit c s outs tasks s') (hs : Consistent s routes) (mac : Mac)
    {l : List Event} (hl : Stream (announced s mac) l) :
    Stream (announced s' mac) (l ++ eventsOf mac outs) := by
  have hquiet : ∀ {outs' s''}, eventsOf mac outs' = [] → announced s'' mac = announced s mac →
      Stream (announced s'' mac) (l ++ eventsOf mac outs') := by
    intro outs' s'' houts hsame
    rw [houts, hsame, List.append_nil]
    exact hl
  cases h with
  | pin hget _ => exact hquiet rfl (announced_setEntry_same hget _ (by rfl) mac)
  | @insert i dev nic id mac' addr verified hnic hnew _ _ _ =>
      refine hquiet rfl ?_
      show announced (s.setEntry mac' ⟨.new id mac' addr dev, s.tokens, i.now, 0,
        verified.map Prod.fst, s.tokens⟩) mac = _
      rw [announced_setEntry]
      split_ifs with hmac
      · rw [hmac, announced, hnew]
        rfl
      · rfl
  | @remove mac' e isStillUsable hget =>
      rw [eventsOf_removalOutputs, hs.keyed mac' e hget]
      have hafter : ∀ cancelled, announced { s with arcs := s.arcs.erase mac', cancelled } mac
          = if mac = mac' then false else announced s mac := by
        intro cancelled
        unfold announced
        rw [KeyedMap.get?_erase_eq_update]
        by_cases hmac : mac = mac'
        · rw [if_pos hmac, hmac, Function.update_self]
          rfl
        · rw [if_neg hmac, Function.update_of_ne hmac]
      rw [hafter]
      by_cases hmac : mac = mac'
      · subst hmac
        rw [if_pos rfl]
        rw [announced_of_get? hget] at hl
        by_cases hcost : e.arc.cost.isSome = true
        · rw [if_pos ⟨hcost, rfl⟩]
          rw [hcost] at hl
          exact hl.removed _
        · rw [if_neg fun h => hcost h.1, List.append_nil]
          rw [Bool.eq_false_of_not_eq_true hcost] at hl
          exact hl
      · rw [if_neg hmac, if_neg fun h => hmac h.2.symm, List.append_nil]
        exact hl
  | negotiate hget _ =>
      rw [negotiateArc_state hget]
      exact hquiet rfl (announced_setEntry_same hget _ (by rfl) mac)
  | giveUp _ hget _ => exact hquiet rfl (announced_setEntry_same hget _ (by rfl) mac)
  | establish hget hstate hnic _ =>
      rw [exportArc_state hget hstate hnic]
      exact hquiet rfl (announced_setEntry_same hget _ (by rfl) mac)
  | countNoRtt _ hget _ _ => exact hquiet rfl (announced_setEntry_same hget _ (by rfl) mac)
  | @announce mac' e outcome inserted noRtt cost _ hget hcost =>
      have hmac' : e.arc.neighbourMac = mac' := hs.keyed mac' e hget
      show Stream (announced (s.setEntry mac' _) mac) (l ++ eventsOf mac [_])
      rw [announced_setEntry, eventsOf_event]
      show Stream _ (l ++ if e.arc.neighbourMac = mac then _ else _)
      rw [hmac']
      by_cases hmac : mac = mac'
      · subst hmac
        rw [if_pos rfl, if_pos rfl]
        rw [announced_of_get? hget, hcost] at hl
        exact hl.added _
      · rw [if_neg hmac, if_neg (Ne.symm hmac), List.append_nil]
        exact hl
  | @republish mac' e outcome inserted published cost _ hget hcost =>
      have hmac' : e.arc.neighbourMac = mac' := hs.keyed mac' e hget
      rw [announced_setEntry, eventsOf_event]
      show Stream _ (l ++ if e.arc.neighbourMac = mac then _ else _)
      rw [hmac']
      by_cases hmac : mac = mac'
      · subst hmac
        rw [if_pos rfl, if_pos rfl]
        rw [announced_of_get? hget, hcost] at hl
        exact hl.changed _
      · rw [if_neg hmac, if_neg (Ne.symm hmac), List.append_nil]
        exact hl
  | _ => exact hquiet rfl rfl

lemma Path.stream (h : Path c s outs tasks s') (hs : Consistent s routes) (mac : Mac)
    {l : List Event} (hl : Stream (announced s mac) l) :
    Stream (announced s' mac) (l ++ eventsOf mac outs) := by
  induction h with
  | refl =>
      rw [show eventsOf mac [] = [] from rfl, List.append_nil]
      exact hl
  | tail path edit ih =>
      rw [eventsOf_append, ← List.append_assoc]
      exact edit.stream (hs.path path) mac ih

/-! ## Tasks and the insertion they are for -/

/-- An insertion that, for as long as its arc is stored, is exported. -/
def Exported (s : Manager) (mac : Mac) (inserted : Token) : Prop :=
  inserted < s.tokens ∧
    ∀ e, s.arcs.get? mac = some e → e.inserted = inserted → e.arc.state = .established

/-- The monitors are for exported arcs. -/
def TaskFits (s : Manager) : ArcTask → Prop
  | .negotiation _ _ _ => True
  | .monitor ctx _ _ => Exported s ctx.key ctx.inserted
  | .confirmation ctx _ => Exported s ctx.key ctx.inserted
  | .reporting ctx _ _ => Exported s ctx.key ctx.inserted

/-- So are the results they have sent. -/
def CommandFits (s : Manager) : Command → Prop
  | .monitorResult key _ inserted => Exported s key inserted
  | _ => True

lemma Exported.path (h : Exported s mac inserted) (path : Path c s outs tasks s') :
    Exported s' mac inserted := by
  refine ⟨h.1.trans_le path.tokens_le, fun e' hget' hinserted => ?_⟩
  rcases path.before hget' with hle | ⟨e, hget, hbecomes⟩
  · rw [hinserted] at hle
    exact absurd hle (not_le.mpr h.1)
  · exact hbecomes.established (h.2 e hget (hbecomes.inserted.symm.trans hinserted))

lemma TaskFits.path {task : ArcTask} (h : TaskFits s task) (path : Path c s outs tasks s') :
    TaskFits s' task := by
  cases task with
  | negotiation => trivial
  | monitor => exact Exported.path h path
  | confirmation => exact Exported.path h path
  | reporting => exact Exported.path h path

lemma CommandFits.path {cmd : Command} (h : CommandFits s cmd) (path : Path c s outs tasks s') :
    CommandFits s' cmd := by
  cases cmd with
  | monitorResult => exact Exported.path h path
  | _ => trivial

/-- What an edit spawns fits. -/
lemma Edit.tasks_fit (h : Edit c s outs tasks s') (hdated : Dated s) :
    ∀ task ∈ tasks, TaskFits s' task := by
  cases h with
  | @negotiate mac e hget _ =>
      intro task hmem
      have htasks : ∀ t ∈ (s.negotiateArc mac).tasks, ∃ mac canI inserted,
          t = .negotiation mac canI inserted := by
        rw [negotiateArc, hget]
        exact fun t ht => ⟨_, _, _, List.mem_singleton.mp ht⟩
      obtain ⟨mac, canI, inserted, rfl⟩ := htasks task hmem
      trivial
  | @establish mac e nic hget hstate hnic _ =>
      have hexported : Exported (s.exportArc mac).state mac e.inserted := by
        rw [exportArc_state hget hstate hnic]
        refine ⟨(hdated mac e hget).trans (Nat.lt_succ_self _), fun e' hget' _ => ?_⟩
        obtain rfl := Option.some.inj ((KeyedMap.get?_insert_self _ _ _).symm.trans hget')
        rfl
      intro task hmem
      have htasks : ∃ ctx : ArcMonitorContext, ctx.key = mac ∧ ctx.inserted = e.inserted ∧
          (task = .monitor ctx s.tokens none ∨ task = .confirmation ctx s.tokens) := by
        simp only [exportArc, hget, hstate, hnic, if_false, List.mem_cons, List.not_mem_nil,
          or_false] at hmem
        exact ⟨_, rfl, rfl, hmem⟩
      obtain ⟨ctx, rfl, hinserted, rfl | rfl⟩ := htasks
      · show Exported _ ctx.key ctx.inserted
        rw [hinserted]
        exact hexported
      · show Exported _ ctx.key ctx.inserted
        rw [hinserted]
        exact hexported
  | _ => exact fun task hmem => absurd hmem List.not_mem_nil

lemma Path.tasks_fit (h : Path c s outs tasks s') (hdated : Dated s) :
    ∀ task ∈ tasks, TaskFits s' task := by
  induction h with
  | refl => exact fun task hmem => absurd hmem List.not_mem_nil
  | tail path edit ih =>
      intro task hmem
      rcases List.mem_append.mp hmem with hmem | hmem
      · exact (ih task hmem).path edit.path
      · exact edit.tasks_fit (path.dated hdated) task hmem

/-! ## Announcements -/

lemma Edit.added (h : Edit c s outs tasks s') {arc : Arc} (hmem : .event (.arcAdded arc) ∈ outs) :
    ∃ key outcome inserted, c = some (.monitorResult key outcome inserted) := by
  cases h with
  | insert => cases List.mem_singleton.mp hmem
  | broadcast => cases List.mem_singleton.mp hmem
  | remove => exact absurd (removalOf_of_mem hmem) id
  | announce _ _ hc _ _ => exact ⟨_, _, _, hc⟩
  | republish _ hc _ _ => exact ⟨_, _, _, hc⟩
  | addNic => cases List.mem_singleton.mp hmem
  | refused => cases List.mem_singleton.mp hmem
  | dropNic => cases List.mem_singleton.mp hmem
  | _ => cases hmem

lemma Path.added (h : Path c s outs tasks s') {arc : Arc}
    (hmem : .event (.arcAdded arc) ∈ outs) :
    ∃ key outcome inserted, c = some (.monitorResult key outcome inserted) := by
  induction h with
  | refl => cases hmem
  | tail _ edit ih =>
      rcases List.mem_append.mp hmem with hmem | hmem
      · exact ih hmem
      · exact edit.added hmem

lemma republish_not_added {e : ArcEntry} {cost : UInt64} {arc : Arc} :
    .event (.arcAdded arc) ∉ (s.republish mac e cost).outputs := by
  unfold republish
  split
  · split
    · intro hmem
      cases List.mem_singleton.mp hmem
    · exact List.not_mem_nil
  · exact List.not_mem_nil

/-- Only a result that is not inert announces an arc, in the state the arc is in. -/
lemma handleMonitorResult_added {outcome : MonitorOutcome} {arc : Arc}
    (hmem : .event (.arcAdded arc) ∈ (s.handleMonitorResult key outcome).outputs)
    (inserted : Token) :
    ∃ e, s.arcs.get? key = some e ∧ arc.state = e.arc.state ∧
      ¬Inert e (.monitorResult key outcome inserted) := by
  unfold handleMonitorResult at hmem
  cases hget : s.arcs.get? key with
  | none =>
      rw [hget] at hmem
      cases outcome with
      | nopFailed =>
          dsimp only at hmem
          rw [removeMyArc, hget] at hmem
          cases hmem
      | _ => cases hmem
  | some e =>
      rw [hget] at hmem
      refine ⟨e, rfl, ?_⟩
      cases outcome with
      | nopFailed =>
          dsimp only at hmem
          rw [removeMyArc, hget] at hmem
          exact absurd (removalOf_of_mem hmem) id
      | noRtt =>
          dsimp only at hmem
          split at hmem
          · cases hmem
          · next hcost =>
              split at hmem
              · next hhigh =>
                  cases List.mem_singleton.mp hmem
                  exact ⟨rfl, fun h => h.elim hcost (not_lt.mpr hhigh)⟩
              · cases hmem
      | firstSample rtt =>
          dsimp only at hmem
          split at hmem
          · exact absurd hmem republish_not_added
          · next hcost =>
              cases List.mem_singleton.mp hmem
              exact ⟨rfl, fun h => hcost h.1⟩
      | sample smoothed => exact absurd hmem republish_not_added

/-! ## Runs -/

variable {C : Manager → Command → Prop} {myId : NodeId} {maxArcs : ℕ} {requireAuth : Bool}
  {a a' : Actor}

/-- What holds of an actor: its arcs and the streams of its events are in order, and its tasks and
results are for exported arcs. -/
structure InOrder (a : Actor) : Prop where
  consistent : ∃ routes, Consistent a.manager routes
  dated : Dated a.manager
  streams : ∀ mac, Stream (announced a.manager mac) (eventsOf mac a.log)
  tasks : ∀ task ∈ a.tasks, TaskFits a.manager task
  queue : ∀ cmd ∈ a.queue, CommandFits a.manager cmd

lemma inOrder_spawn : InOrder ⟨Manager.spawn myId maxArcs requireAuth, [], 0, []⟩ where
  consistent := ⟨0, consistent_spawn⟩
  dated _ _ hget := by cases hget
  streams _ := .start
  tasks _ hmem := absurd hmem (Multiset.notMem_zero _)
  queue _ hmem := absurd hmem List.not_mem_nil

/-- Another set of tasks and another queue for the same manager. -/
lemma InOrder.beside (h : InOrder a) {queue : List Command} {tasks : Multiset ArcTask}
    (htasks : ∀ task ∈ tasks, TaskFits a.manager task)
    (hqueue : ∀ cmd ∈ queue, CommandFits a.manager cmd) :
    InOrder ⟨a.manager, queue, tasks, a.log⟩ :=
  ⟨h.consistent, h.dated, h.streams, htasks, hqueue⟩

lemma commandFits_of_result {cmd : Command} (hext : cmd.result = none) : CommandFits s cmd := by
  cases cmd with
  | monitorResult => cases hext
  | _ => trivial

lemma InOrder.enqueue (h : InOrder a) {cmd : Command} (hfits : CommandFits a.manager cmd) :
    ∀ cmd' ∈ a.queue ++ [cmd], CommandFits a.manager cmd' := by
  intro cmd' hmem
  rcases List.mem_append.mp hmem with hmem | hmem
  · exact h.queue cmd' hmem
  · exact List.mem_singleton.mp hmem ▸ hfits

/-- **One step keeps the invariant.** -/
lemma InOrder.step (h : InOrder a) (hstep : Actor.Step C a a') : InOrder a' := by
  obtain ⟨routes, hconsistent⟩ := h.consistent
  cases hstep with
  | issue cmd hext => exact h.beside h.tasks (h.enqueue (commandFits_of_result hext))
  | @handle i cmd rest hqueue _ =>
      have path := handle_path i a.manager cmd
      refine ⟨⟨_, hconsistent.path path⟩, Path.dated path h.dated, fun mac => ?_,
        fun task hmem => ?_, fun cmd' hmem => ?_⟩
      · show Stream _ (eventsOf mac (a.log ++ _))
        rw [eventsOf_append]
        exact Path.stream path hconsistent mac (h.streams mac)
      · rcases Multiset.mem_add.mp hmem with hmem | hmem
        · exact (h.tasks task hmem).path path
        · exact Path.tasks_fit path h.dated task (Multiset.mem_coe.mp hmem)
      · exact (h.queue cmd' (hqueue ▸ List.mem_cons_of_mem _ hmem)).path path
  | negotiated canYou htasks =>
      exact h.beside (fun task hmem => h.tasks task (htasks ▸ Multiset.mem_cons_of_mem hmem))
        (h.enqueue trivial)
  | @probe ctx cancel smoothed ts measured alive htasks _ =>
      have hctx : Exported a.manager ctx.key ctx.inserted :=
        h.tasks (.monitor ctx cancel smoothed) (by rw [htasks]; exact Multiset.mem_cons_self _ _)
      refine h.beside (fun task hmem => ?_) h.queue
      rcases Multiset.mem_cons.mp hmem with rfl | hmem
      · unfold probed
        split_ifs <;> exact hctx
      · exact h.tasks task (htasks ▸ Multiset.mem_cons_of_mem hmem)
  | @rejected ctx cancel ts htasks _ =>
      have hctx : Exported a.manager ctx.key ctx.inserted :=
        h.tasks (.confirmation ctx cancel) (by rw [htasks]; exact Multiset.mem_cons_self _ _)
      refine h.beside (fun task hmem => ?_) h.queue
      rcases Multiset.mem_cons.mp hmem with rfl | hmem
      · exact hctx
      · exact h.tasks task (htasks ▸ Multiset.mem_cons_of_mem hmem)
  | @report ctx outcome next ts htasks =>
      have hctx : Exported a.manager ctx.key ctx.inserted :=
        h.tasks (.reporting ctx outcome next) (by rw [htasks]; exact Multiset.mem_cons_self _ _)
      refine h.beside (fun task hmem => ?_) (h.enqueue hctx)
      rcases Multiset.mem_add.mp hmem with hmem | hmem
      · cases next with
        | none => exact absurd hmem (Multiset.notMem_zero _)
        | some on =>
            rw [Multiset.mem_singleton.mp hmem]
            exact hctx
      · exact h.tasks task (htasks ▸ Multiset.mem_cons_of_mem hmem)
  | stop htasks _ =>
      exact h.beside (fun task hmem => h.tasks task (htasks ▸ Multiset.mem_cons_of_mem hmem)) h.queue

lemma Actor.Run.inOrder (run : Actor.Run C myId maxArcs requireAuth a) : InOrder a := by
  induction run with
  | spawn => exact inOrder_spawn
  | step _ hstep ih => exact ih.step hstep

/-- Where every result that finds another arc is inert, only exported arcs are announced. -/
lemma added_established (run : Actor.Run Harmless myId maxArcs requireAuth a) {arc : Arc}
    (hmem : .event (.arcAdded arc) ∈ a.log) : arc.state = .established := by
  induction run with
  | spawn => cases hmem
  | step run hstep ih =>
      have horder := run.inOrder
      cases hstep with
      | @handle i cmd rest hqueue hharmless =>
          rcases List.mem_append.mp hmem with hmem | hmem
          · exact ih hmem
          · obtain ⟨key, outcome, inserted, heq⟩ := Path.added (handle_path i _ cmd) hmem
            obtain rfl := Option.some.inj heq
            obtain ⟨e, hget, hstate, hinert⟩ :=
              handleMonitorResult_added hmem inserted
            rw [hstate]
            -- the result is for this very arc, which its monitor found exported
            have hfits : Exported _ key inserted :=
              horder.queue (.monitorResult key outcome inserted)
                (by rw [hqueue]; exact List.mem_cons_self)
            by_contra hno
            exact hinert (hharmless key inserted e rfl hget fun hinserted =>
              hno (hfits.2 e hget hinserted))
      | _ => exact ih hmem

/-- **Results that come too late.**  In every run in which each result that finds another arc than
the one it was for is inert: a result leaves such an arc as it is, the events of each MAC come in
blocks, and only exported arcs are announced. -/
theorem late_results_of_run (run : Actor.Run Harmless myId maxArcs requireAuth a) :
    (∀ i cmd rest key inserted e, a.queue = cmd :: rest → Harmless a.manager cmd →
      cmd.result = some (key, inserted) → a.manager.arcs.get? key = some e →
      e.inserted ≠ inserted → Keeps key e (a.manager.handle i cmd).1) ∧
    (∀ mac, ∃ opened, Stream opened (eventsOf mac a.log)) ∧
    ∀ arc, .event (.arcAdded arc) ∈ a.log → arc.state = .established := by
  refine ⟨fun i cmd rest key inserted e _ hharmless hresult hget hne => ?_,
    fun mac => ⟨_, run.inOrder.streams mac⟩, fun arc hmem => added_established run hmem⟩
  obtain ⟨routes, hconsistent⟩ := run.inOrder.consistent
  exact (keeps_iff_inert hconsistent i hresult hget).mpr (hharmless key inserted e hresult hget hne)

/-! ## A neighbour that goes and comes back -/

/-- The neighbour is heard. -/
def discovery : Command := .hereIAm "eth0" theirId "02:00:00:00:00:02" "169.254.0.2" none

/-- It asks whether the arc can be exported. -/
def question : Command := .canYouExport theirId "02:00:00:00:00:02" "169.254.0.2" true none

/-- It takes its leave. -/
def departure : Command := leave none

/-- A manager that has exported the arc to the neighbour. -/
def exported : Manager :=
  (((monitoring 1 false).handle (.at 0) discovery).1.state.handle (.at 0) question).1.state

/-- What its monitor knows. -/
def watched : ArcMonitorContext :=
  ⟨"02:00:00:00:00:02", { Arc.new theirId "02:00:00:00:00:02" "169.254.0.2" "eth0" with
    state := .established }, ⟨"02:00:00:00:00:01", "169.254.0.1"⟩, 1⟩

lemma harmless_of_no_result {s : Manager} {cmd : Command} (hext : cmd.result = none) :
    Harmless s cmd := by
  intro key inserted e hresult
  rw [hext] at hresult
  cases hresult

/-- The arc is exported, and its two tasks run. -/
lemma exported_run {C : Manager → Command → Prop} (hC : ∀ s cmd, cmd.result = none → C s cmd) :
    ∃ log, Actor.Run C ourId 1 false
      ⟨exported, [], .monitor watched 2 none ::ₘ .confirmation watched 2 ::ₘ 0, log⟩ :=
  ⟨_, ((Actor.Run.spawn.command (.at 0) (.startMonitor eth0) rfl (hC _ _ rfl)).command (.at 0)
    discovery rfl (hC _ _ rfl)).command (.at 0) question rfl (hC _ _ rfl)⟩

/-- It asks for the arc. -/
def request : Command :=
  .requestArc "eth0" ourId "02:00:00:00:00:01" "169.254.0.1" theirId "02:00:00:00:00:02"
    "169.254.0.2" none

/-- A manager whose arc was removed while it was negotiated, and that hears the neighbour again. -/
def renewed : Manager :=
  ((((monitoring 1 false).handle (.at 0) request).1.state.handle (.at 0) departure).1.state.handle
    (.at 0) discovery).1.state

/-- Its new arc. -/
def renewedEntry : ArcEntry :=
  ⟨.new theirId "02:00:00:00:00:02" "169.254.0.2" "eth0", 2, 0, 0, none, 2⟩

/-- The negotiation of the old arc, which has failed. -/
def refusal : Command := .requestArcNegotiated "02:00:00:00:00:02" true false 1

/-- The failed negotiation comes back to it. -/
lemma renewed_run : ∃ log, Actor.Run Harmless ourId 1 false ⟨renewed, [refusal], 0, log⟩ := by
  have hrequested : Actor.Run Harmless ourId 1 false
      ⟨_, [], .negotiation "02:00:00:00:00:02" true 1 ::ₘ 0, _⟩ :=
    (Actor.Run.spawn.command (.at 0) (.startMonitor eth0) rfl (harmless_of_no_result rfl)).command
      (.at 0) request rfl (harmless_of_no_result rfl)
  have hback : Actor.Run Harmless ourId 1 false
      ⟨renewed, [], .negotiation "02:00:00:00:00:02" true 1 ::ₘ 0, _⟩ :=
    (hrequested.command (.at 0) departure rfl (harmless_of_no_result rfl)).command (.at 0)
      discovery rfl (harmless_of_no_result rfl)
  exact ⟨_, hback.answered false⟩

lemma renewed_get? : renewed.arcs.get? "02:00:00:00:00:02" = some renewedEntry := rfl

lemma refusal_harmless : Harmless renewed refusal := by
  rintro key inserted e ⟨⟩ hget -
  obtain rfl := Option.some.inj (renewed_get?.symm.trans hget)
  exact Or.inl rfl

/-- The failed negotiation finds the new arc and leaves it as it is; once that is exported and its
monitor reports, it is announced. -/
theorem late_results_of_run_renewed :
    refusal.result = some ("02:00:00:00:00:02", 1) ∧ renewedEntry.inserted ≠ 1 ∧
      Keeps "02:00:00:00:00:02" renewedEntry (renewed.handle (.at 0) refusal).1 ∧
      ∃ a, Actor.Run Harmless ourId 1 false a ∧
        (∃ opened, Stream opened (eventsOf "02:00:00:00:00:02" a.log)) ∧
        (∃ arc, .event (.arcAdded arc) ∈ a.log) ∧
        ∀ arc, .event (.arcAdded arc) ∈ a.log → arc.state = .established := by
  obtain ⟨log, run⟩ := renewed_run
  have hkeeps := (late_results_of_run run).1 (.at 0) refusal [] "02:00:00:00:00:02" 1 renewedEntry
    rfl refusal_harmless rfl renewed_get? (by decide)
  have hexported : Actor.Run Harmless ourId 1 false
      ⟨_, [], .monitor { watched with inserted := 2 } 3 none ::ₘ
        .confirmation { watched with inserted := 2 } 3 ::ₘ 0, _⟩ :=
    (run.next (.at 0) refusal_harmless).command (.at 0) question rfl (harmless_of_no_result rfl)
  have hannounced := ((hexported.sampled 1000 (by decide +kernel)).reports).next (.at 0) (by
    rintro key inserted e ⟨⟩ hget hne
    refine absurd ?_ hne
    cases hget
    rfl)
  refine ⟨rfl, by decide, hkeeps, _, hannounced, (late_results_of_run hannounced).2.1 _,
    ⟨{ watched.arc with cost := some (.finite 1000) },
      List.mem_append_right _ (List.mem_singleton_self _)⟩, (late_results_of_run hannounced).2.2⟩
/-- The neighbour takes its leave and is heard again while the monitor's result waits.  The result
finds the new arc, which is not exported, and announces it. -/
theorem not_late_results :
    ∃ a cmd key inserted e, Actor.Run (fun _ _ => True) ourId 1 false a ∧ a.queue = [cmd] ∧
      cmd.result = some (key, inserted) ∧ a.manager.arcs.get? key = some e ∧
      e.inserted ≠ inserted ∧ ¬Keeps key e (a.manager.handle (.at 0) cmd).1 ∧
      ∃ arc, .event (.arcAdded arc) ∈ (a.manager.handle (.at 0) cmd).1.outputs ∧
        arc.state = .discovered := by
  obtain ⟨log, run⟩ := exported_run fun _ _ _ => trivial
  have hsampled := run.sampled 1000 (by decide +kernel)
  have hqueued := ((hsampled.issued departure rfl).issued discovery rfl).reports
  have hback := (hqueued.next (.at 0) trivial).next (.at 0) trivial
  refine ⟨_, .monitorResult "02:00:00:00:00:02" (.firstSample 1000) 1, _, _, _, hback, rfl, rfl,
    rfl, by decide +kernel, ?_, _, List.mem_singleton_self _, rfl⟩
  rintro ⟨e', hget', harc, -⟩
  cases hget'
  cases harc

end Netsukuku.Neighborhood
