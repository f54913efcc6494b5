import Mathlib
import Netsukuku.Rpc.Calls

/-!
# The table of a client

A caller that gives up asks the actor to forget its call; one that is dropped does not.  As long as
no caller is dropped while its call is under way, the table holds no call that nobody waits for,
once the queue is empty.

* `Client.Harmless` — the call of a ticket is over, or it was a notification.
* `Client.Tidy` — whoever has given up is to be forgotten by a command behind its call.
* `Client.waiting_of_run` — with the queue empty, the calls in the table are those of waiting
  callers.
-/

namespace Netsukuku.Rpc.Client

variable {M P : Type} {s s' : Client M P} {t : Ticket} {c : Caller M P}

/-- The call `t` is over for the actor. -/
def Settled (s : Client M P) (t : Ticket) : Prop := s.slots t ≠ .empty

/-- Nothing is lost if the caller of `t` is dropped now: its call is over, or it was none. -/
def Harmless (s : Client M P) (t : Ticket) : Prop :=
  s.Settled t ∨ ∀ c, s.callers t = some c → ¬c.waitReply = true

/-- The caller waits. -/
def Waits (s : Client M P) (t : Ticket) : Prop := ∃ c, s.callers t = some c ∧ c.phase = .waiting

/-- A call that nobody waits for is followed by a command to forget it. -/
structure Tidy (s : Client M P) : Prop where
  queued : ∀ l₁ e t l₂, s.queue = l₁ ++ .call e t :: l₂ → s.Waits t ∨ .forget (idOf t) ∈ l₂
  writing : ∀ e t, s.actor = .writing (.call e t) → s.Waits t ∨ .forget (idOf t) ∈ s.queue
  table : ∀ id t, s.pending.get? id = some t → s.Waits t ∨ .forget (idOf t) ∈ s.queue

lemma Tidy.of_empty (hqueue : s.queue = []) (hactor : s.actor = .ended)
    (hpending : s.pending = KeyedMap.empty) : Tidy s where
  queued l₁ e t l₂ heq := by
    rw [hqueue] at heq
    exact absurd heq.symm (by simp)
  writing e t hwriting := by
    rw [hactor] at hwriting
    cases hwriting
  table id t hget := by
    rw [hpending] at hget
    cases hget

lemma tidy_fromStream : Tidy (fromStream : Client M P) where
  queued l₁ e t l₂ heq := absurd heq.symm (by simp [fromStream])
  writing _ _ hactor := by cases hactor
  table _ _ hget := by cases hget

/-- Nothing is added, and whoever waited for a call under way still does. -/
lemma Tidy.keep (h : Tidy s) (hqueue : s'.queue = s.queue)
    (hactor : ∀ cmd, s'.actor = .writing cmd → s.actor = .writing cmd)
    (hpending : ∀ id t, s'.pending.get? id = some t → s.pending.get? id = some t)
    (hwaits : ∀ t ∈ s.senders, s.Waits t → s'.Waits t) : Tidy s' where
  queued l₁ e t l₂ heq := by
    rw [hqueue] at heq
    refine (h.queued l₁ e t l₂ heq).imp_left (hwaits t ?_)
    exact mem_senders_of_queue (show ClientCmd.call e t ∈ s.queue by simp [heq]) rfl
  writing e t hwriting := by
    rw [hqueue]
    exact (h.writing e t (hactor _ hwriting)).imp_left
      (hwaits t (mem_senders_of_actor (hactor _ hwriting) rfl))
  table id t hget := by
    rw [hqueue]
    exact (h.table id t (hpending id t hget)).imp_left
      (hwaits t (mem_senders_of_table (hpending id t hget)))

/-- A list that ends in a command, taken apart. -/
lemma split_append_singleton {α : Type} {l l₁ l₂ : List α} {a b : α}
    (h : l ++ [a] = l₁ ++ b :: l₂) :
    (∃ l₃, l₂ = l₃ ++ [a] ∧ l = l₁ ++ b :: l₃) ∨ (l₂ = [] ∧ b = a) := by
  rcases List.eq_nil_or_concat l₂ with rfl | ⟨l₃, x, rfl⟩
  · obtain ⟨-, hab⟩ := List.append_inj' h rfl
    exact .inr ⟨rfl, (List.head_eq_of_cons_eq hab).symm⟩
  · have hassoc : l ++ [a] = (l₁ ++ b :: l₃) ++ [x] := by simpa using h
    obtain ⟨hl, hax⟩ := List.append_inj' hassoc rfl
    obtain rfl := List.head_eq_of_cons_eq hax
    exact .inl ⟨l₃, List.concat_eq_append, hl⟩

/-- A command joins the queue; it makes up for whoever no longer waits. -/
lemma Tidy.push (h : Tidy s) (cmd : ClientCmd M P) (hqueue : s'.queue = s.queue ++ [cmd])
    (hactor : s'.actor = s.actor) (hpending : s'.pending = s.pending)
    (hwaits : ∀ t ∈ s.senders, s.Waits t → s'.Waits t ∨ cmd = .forget (idOf t))
    (hnew : ∀ e t, cmd = .call e t → s'.Waits t) : Tidy s' := by
  have hpass : ∀ t ∈ s.senders, ∀ l : List (ClientCmd M P),
      s.Waits t ∨ .forget (idOf t) ∈ l → s'.Waits t ∨ .forget (idOf t) ∈ l ++ [cmd] := by
    intro t hmem l hold
    rcases hold with hold | hold
    · rcases hwaits t hmem hold with hnow | rfl
      · exact .inl hnow
      · exact .inr (List.mem_append_right l (List.mem_singleton_self _))
    · exact .inr (List.mem_append_left _ hold)
  constructor
  · intro l₁ e t l₂ heq
    rw [hqueue] at heq
    rcases split_append_singleton heq with ⟨l₃, rfl, hsplit⟩ | ⟨rfl, hcmd⟩
    · refine hpass t ?_ l₃ (h.queued l₁ e t l₃ hsplit)
      exact mem_senders_of_queue (show ClientCmd.call e t ∈ s.queue by simp [hsplit]) rfl
    · exact .inl (hnew e t hcmd.symm)
  · intro e t hwriting
    rw [hactor] at hwriting
    rw [hqueue]
    exact hpass t (mem_senders_of_actor hwriting rfl) _ (h.writing e t hwriting)
  · intro id t hget
    rw [hpending] at hget
    rw [hqueue]
    exact hpass t (mem_senders_of_table hget) _ (h.table id t hget)

/-- Another caller goes on to another phase. -/
lemma waits_setCaller {t' : Ticket} {c' : Caller M P} (hne : t' ≠ t) (h : s.Waits t') :
    (s.setCaller t c').Waits t' := by
  obtain ⟨c, hget, hphase⟩ := h
  exact ⟨c, (setCaller_of_ne hne).trans hget, hphase⟩

/-- A ticket for which something was left is in no queue and no table. -/
lemma Orderly.ne_of_settled (ho : Orderly s) (hsettled : s.Settled t) :
    ∀ t' ∈ s.senders, t' ≠ t := by
  rintro t' hmem rfl
  exact hsettled (ho.live t' hmem)

lemma settled_of_result {value : Except RpcError (Option P)}
    (h : (s.slots t).result = some value) : s.Settled t := by
  intro hempty
  rw [hempty] at h
  cases h

lemma Tidy.submit (h : Tidy s) (ho : Orderly s) (hget : s.callers t = some c)
    (hphase : c.phase = .started) : Tidy (s.submit t c) := by
  -- the caller has not sent anything yet
  have hne : ∀ t' ∈ s.senders, t' ≠ t := by
    rintro t' hmem rfl
    obtain ⟨c', hget', hphase'⟩ := ho.sent hmem
    obtain rfl := Option.some.inj (hget.symm.trans hget')
    exact hphase' hphase
  unfold Client.submit
  split
  · exact h.keep rfl (fun _ hactor => hactor) (fun _ _ hget => hget)
      fun t' hmem hwaits => waits_setCaller (hne t' hmem) hwaits
  · refine h.push (c.cmd t) rfl rfl rfl
      (fun t' hmem hwaits => .inl (waits_setCaller (hne t' hmem) hwaits)) fun e t' hcmd => ?_
    have hreply := cmd_reply c t
    rw [hcmd] at hreply
    obtain rfl := Option.some.inj hreply
    exact ⟨_, setCaller_self, rfl⟩

/-- A caller of a notification goes on: no call under way is a notification. -/
lemma Tidy.notification (h : Tidy s) (ho : Orderly s) (hget : s.callers t = some c)
    (hnotify : ¬c.waitReply = true) (hqueue : s'.queue = s.queue) (hactor : s'.actor = s.actor)
    (hpending : s'.pending = s.pending)
    (hcallers : ∀ t', t' ≠ t → s'.callers t' = s.callers t') : Tidy s' := by
  have hkept : ∀ t', t' ≠ t → s.Waits t' → s'.Waits t' := by
    rintro t' hne ⟨c', hget', hphase⟩
    exact ⟨c', (hcallers t' hne).trans hget', hphase⟩
  have hcmd : ∀ {e : Envelope M P} {t' : Ticket}, s.Backed (.call e t') → t' ≠ t := by
    rintro e t' hbacked rfl
    obtain ⟨c', hget', -, hcmd⟩ := hbacked t' rfl
    obtain rfl := Option.some.inj (hget.symm.trans hget')
    unfold Caller.cmd at hcmd
    rw [if_neg hnotify] at hcmd
    cases hcmd
  constructor
  · intro l₁ e t' l₂ heq
    rw [hqueue] at heq
    have hbacked := ho.queued (.call e t') (by simp [heq])
    exact (h.queued l₁ e t' l₂ heq).imp_left (hkept t' (hcmd hbacked))
  · intro e t' hwriting
    rw [hactor] at hwriting
    rw [hqueue]
    exact (h.writing e t' hwriting).imp_left (hkept t' (hcmd (ho.writing _ hwriting)))
  · intro id t' hentry
    rw [hpending] at hentry
    rw [hqueue]
    refine (h.table id t' hentry).imp_left (hkept t' ?_)
    rintro rfl
    obtain ⟨-, c', hget', -, hwait⟩ := ho.table id t' hentry
    obtain rfl := Option.some.inj (hget.symm.trans hget')
    exact hnotify hwait

lemma Tidy.timeOut (h : Tidy s) (ho : Orderly s) (hget : s.callers t = some c) :
    Tidy (s.timeOut t c) := by
  obtain ⟨r, hr, hrid, -⟩ := (ho.numbered t c hget).2
  unfold Client.timeOut
  dsimp only
  split
  · split
    · next hactor => exact Tidy.of_empty (ho.ended hactor).1 hactor (ho.ended hactor).2
    · refine h.push _ rfl rfl rfl (fun t' _ hwaits => ?_) (by rintro e t' ⟨⟩)
      by_cases ht : t' = t
      · subst ht
        exact .inr (by rw [correlationId_eq hr hrid])
      · exact .inl (waits_setCaller ht hwaits)
  · next hwait =>
      exact h.notification ho hget hwait rfl rfl rfl fun t' ht => setCaller_of_ne ht

lemma takeOut_pending {id id' : UInt64} {slot : Slot P}
    (hget : (s.takeOut id slot).pending.get? id' = some t) :
    id' ≠ id ∧ s.pending.get? id' = some t := by
  cases hentry : s.pending.get? id with
  | none =>
      rw [takeOut_none hentry] at hget
      refine ⟨?_, hget⟩
      rintro rfl
      rw [hentry] at hget
      cases hget
  | some t' =>
      rw [takeOut_some hentry, ← KeyedMap.mem_entries_iff, KeyedMap.mem_erase] at hget
      exact ⟨hget.1, KeyedMap.mem_entries_iff.mp hget.2⟩

lemma waits_takeOut {id : UInt64} {slot : Slot P} (h : s.Waits t) : (s.takeOut id slot).Waits t := by
  unfold Waits
  rw [takeOut_callers]
  exact h

lemma Tidy.takeOut (h : Tidy s) (id : UInt64) (slot : Slot P) : Tidy (s.takeOut id slot) :=
  h.keep (takeOut_queue s id slot) (fun cmd hactor => by rwa [takeOut_actor] at hactor)
    (fun _ _ hget => (takeOut_pending hget).2) fun _ _ hwaits => waits_takeOut hwaits

lemma Tidy.take (h : Tidy s) (ho : Orderly s) {cmd : ClientCmd M P} {rest : List (ClientCmd M P)}
    (hactor : s.actor = .idle) (hqueue : s.queue = cmd :: rest) : Tidy (s.take cmd rest) := by
  have hrest : ∀ l₁ e t l₂, rest = l₁ ++ .call e t :: l₂ →
      s.Waits t ∨ .forget (idOf t) ∈ l₂ := by
    rintro l₁ e t l₂ rfl
    exact h.queued (cmd :: l₁) e t l₂ hqueue
  cases cmd with
  | call envelope t =>
      refine ⟨hrest, ?_, fun id t' hget => ?_⟩
      · rintro e t' ⟨⟩
        exact h.queued [] envelope t rest hqueue
      · refine (h.table id t' hget).imp_right fun hmem => ?_
        rw [hqueue] at hmem
        simpa [Client.take] using hmem
  | notify envelope t =>
      refine ⟨hrest, (by rintro e t' ⟨⟩), fun id t' hget => ?_⟩
      refine (h.table id t' hget).imp_right fun hmem => ?_
      rw [hqueue] at hmem
      simpa [Client.take] using hmem
  | forget id =>
      constructor
      · intro l₁ e t l₂ heq
        refine (hrest l₁ e t l₂ ?_).imp_left waits_takeOut
        simpa [Client.take] using heq
      · intro e t hwriting
        have hwriting' : s.actor = .writing (.call e t) := by simpa [Client.take] using hwriting
        rw [hactor] at hwriting'
        cases hwriting'
      · intro id' t hget
        obtain ⟨hne, hget⟩ := takeOut_pending hget
        -- the entry that is left is not the one to be forgotten
        have hid : id' = idOf t := (ho.table id' t hget).1
        refine (h.table id' t hget).imp waits_takeOut fun hmem => ?_
        rw [hqueue, List.mem_cons] at hmem
        rcases hmem with heq | hmem
        · exact absurd (hid.trans (ClientCmd.forget.inj heq)) hne
        · simpa [Client.take] using hmem

lemma Tidy.wrote (h : Tidy s) (ho : Orderly s) {cmd : ClientCmd M P}
    (hactor : s.actor = .writing cmd) (w : Written) : Tidy (s.wrote cmd w) := by
  have hidle : ∀ (t : Ticket) (slot : Slot P), Tidy { s.put t slot with actor := .idle } :=
    fun t slot => h.keep rfl (by rintro _ ⟨⟩) (fun _ _ hget => hget) fun _ _ hwaits => hwaits
  cases cmd with
  | call envelope t =>
      cases w with
      | ok =>
          obtain ⟨c, hc, -, hcmd⟩ := ho.writing _ hactor t rfl
          obtain ⟨r, hr, hrid, -⟩ := (ho.numbered t c hc).2
          have htaken := h.takeOut envelope.correlationId .closed
          refine ⟨htaken.queued, (by rintro _ _ ⟨⟩), fun id t' hget => ?_⟩
          have hget' : ((s.takeOut envelope.correlationId .closed).pending.insert
              envelope.correlationId t).get? id = some t' := hget
          rw [KeyedMap.get?_insert_eq_update] at hget'
          by_cases hid : id = envelope.correlationId
          · rw [hid, Function.update_self] at hget'
            obtain rfl := Option.some.inj hget'
            refine (h.writing envelope t hactor).imp waits_takeOut fun hmem => ?_
            simpa [Client.wrote] using hmem
          · rw [Function.update_of_ne hid] at hget'
            exact htaken.table id t' hget'
      | failed e => exact hidle t _
      | timedOut => exact Tidy.of_empty rfl rfl rfl
  | notify envelope t =>
      cases w with
      | ok => exact hidle t _
      | failed e => exact hidle t _
      | timedOut => exact Tidy.of_empty rfl rfl rfl
  | forget id =>
      exact h.keep rfl (by rintro _ ⟨⟩) (fun _ _ hget => hget) fun _ _ hwaits => hwaits

lemma Tidy.readFrame (h : Tidy s) (frame : Frame M P) : Tidy (s.readFrame frame) := by
  cases frame with
  | eof => exact Tidy.of_empty rfl rfl rfl
  | error => exact Tidy.of_empty rfl rfl rfl
  | envelope e =>
      have hread : Tidy { s with received := s.received ++ [e] } := { h with }
      simp only [Client.readFrame]
      split
      · split
        · exact hread.takeOut _ _
        · exact hread
      · exact hread

/-- **One step keeps the table tidy**, if no caller is dropped whose call is under way. -/
lemma Tidy.step (h : Tidy s) (ho : Orderly s) (hstep : Step Harmless s s') : Tidy s' := by
  cases hstep with
  | start caller unicastId waitReply call auth hcount =>
      refine h.keep rfl (fun _ hactor => hactor) (fun _ _ hget => hget) fun t hmem hwaits => ?_
      obtain ⟨c, hget, -⟩ := ho.sent hmem
      exact waits_setCaller (ho.numbered t c hget).1.ne hwaits
  | submit hget hphase => exact h.submit ho hget hphase
  | answered hget hphase hslot =>
      exact h.keep rfl (fun _ hactor => hactor) (fun _ _ hget => hget) fun t' hmem hwaits =>
        waits_setCaller (ho.ne_of_settled (settled_of_result hslot) t' hmem) hwaits
  | timeOut hget hphase => exact h.timeOut ho hget
  | drop hget hphase hharmless =>
      rcases hharmless with hsettled | hnotify
      · exact h.keep rfl (fun _ hactor => hactor) (fun _ _ hget => hget) fun t' hmem hwaits =>
          waits_setCaller (ho.ne_of_settled hsettled t' hmem) hwaits
      · exact h.notification ho hget (hnotify _ hget) rfl rfl rfl fun t' ht => setCaller_of_ne ht
  | take hactor hqueue => exact h.take ho hactor hqueue
  | wrote w hactor => exact h.wrote ho hactor w
  | readFrame frame _ => exact h.readFrame frame
  | hangUp _ hqueue _ => exact Tidy.of_empty hqueue rfl rfl

lemma Run.tidy (run : Run Harmless s) : Tidy s := by
  induction run with
  | fromStream => exact tidy_fromStream
  | step run hstep ih => exact ih.step run.orderly hstep

/-- **Nobody is left in the table.**  If no caller is dropped while its call is under way, the
entries of the table belong to waiting callers whenever the queue is empty. -/
theorem waiting_of_run (run : Run Harmless s) (hqueue : s.queue = []) {id : UInt64}
    (hget : s.pending.get? id = some t) : id = idOf t ∧ s.Waits t := by
  refine ⟨(run.orderly.table id t hget).1, (run.tidy.table id t hget).resolve_right ?_⟩
  rw [hqueue]
  exact List.not_mem_nil

end Netsukuku.Rpc.Client
