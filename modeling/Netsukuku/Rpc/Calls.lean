import Mathlib
import Netsukuku.Rpc.Client

/-!
# What a call returns

A ticket has one sender: in the queue, with the actor, or in the table.  Once it has been used or
dropped it is in none of them.

* `Client.senders` — the tickets whose sender is still somewhere.
* `Client.Orderly` — the invariant of the tickets, the queue and the table.
* `Client.answers_of_run` — a call returns at most once, and what a peer is said to have answered
  it has answered to that very call.
-/

namespace Netsukuku.Rpc

variable {M P : Type}

/-- The correlation id of a ticket. -/
def idOf (t : Ticket) : UInt64 := UInt64.ofNat (t + 1)

namespace Client

variable {s s' : Client M P} {t : Ticket} {c : Caller M P} {id : UInt64}

/-- The tickets whose sender is in the queue, with the actor or in the table. -/
def senders (s : Client M P) : Multiset Ticket :=
  ↑(s.queue.filterMap ClientCmd.reply) + ↑s.actor.reply.toList + ↑s.pending.values

/-- The caller has sent its command. -/
def Sent (s : Client M P) (t : Ticket) : Prop :=
  ∃ c, s.callers t = some c ∧ c.phase ≠ .started

/-- The command is that of a caller who has sent it, or is no caller's. -/
def Backed (s : Client M P) (cmd : ClientCmd M P) : Prop :=
  ∀ t, cmd.reply = some t → ∃ c, s.callers t = some c ∧ c.phase ≠ .started ∧ cmd = c.cmd t

/-! ## Steps on the table -/

lemma takeOut_none {v : Slot P} (hget : s.pending.get? id = none) : s.takeOut id v = s := by
  rw [takeOut, hget]

lemma takeOut_some {v : Slot P} (hget : s.pending.get? id = some t) :
    s.takeOut id v = { s.put t v with pending := s.pending.erase id } := by
  rw [takeOut, hget]

lemma values_erase (m : KeyedMap UInt64 Ticket) (hget : m.get? id = some t) :
    (↑m.values : Multiset Ticket) = t ::ₘ ↑(m.erase id).values :=
  Multiset.coe_eq_coe.mpr ((KeyedMap.perm_erase hget).map Prod.snd)

lemma values_insert (m : KeyedMap UInt64 Ticket) (hget : m.get? id = none) (t : Ticket) :
    (↑(m.insert id t).values : Multiset Ticket) = t ::ₘ ↑m.values := by
  refine Multiset.coe_eq_coe.mpr (((KeyedMap.perm_insert m id t).map Prod.snd).trans ?_)
  rw [KeyedMap.erase_entries_of_get?_none hget]
  exact List.Perm.refl _

/-- Taking an entry out takes its sender. -/
lemma senders_takeOut {v : Slot P} (hget : s.pending.get? id = some t) :
    s.senders = t ::ₘ (s.takeOut id v).senders := by
  rw [takeOut_some hget]
  show _ + _ + (↑s.pending.values : Multiset Ticket) = t ::ₘ (_ + _ + ↑(s.pending.erase id).values)
  rw [values_erase s.pending hget, Multiset.add_cons]
  rfl

lemma senders_push (cmd : ClientCmd M P) :
    senders { s with queue := s.queue ++ [cmd] } = s.senders + ↑cmd.reply.toList := by
  have hreply : (↑(List.filterMap ClientCmd.reply [cmd]) : Multiset Ticket) = ↑cmd.reply.toList := by
    rw [List.filterMap_cons]
    cases cmd.reply <;> rfl
  show (↑((s.queue ++ [cmd]).filterMap ClientCmd.reply) + _ + _ : Multiset Ticket) = _
  rw [List.filterMap_append, ← Multiset.coe_add, hreply]
  unfold senders
  abel

lemma senders_pop {cmd : ClientCmd M P} {rest : List (ClientCmd M P)}
    (hqueue : s.queue = cmd :: rest) :
    s.senders = ↑cmd.reply.toList + senders { s with queue := rest } := by
  have hreply : (↑(List.filterMap ClientCmd.reply (cmd :: rest)) : Multiset Ticket)
      = ↑cmd.reply.toList + ↑(rest.filterMap ClientCmd.reply) := by
    rw [List.filterMap_cons]
    cases cmd.reply <;> rfl
  unfold senders
  rw [hqueue, hreply]
  abel

/-- What the actor holds counts among the senders. -/
lemma senders_actor {a : ActorPhase M P} (a' : ActorPhase M P) (hs : s.actor = a) :
    senders { s with actor := a' } + ↑a.reply.toList = s.senders + ↑a'.reply.toList := by
  subst hs
  unfold senders
  abel

lemma mem_senders_of_queue {cmd : ClientCmd M P} (hmem : cmd ∈ s.queue) (ht : cmd.reply = some t) :
    t ∈ s.senders :=
  Multiset.mem_add.mpr (.inl (Multiset.mem_add.mpr (.inl
    (Multiset.mem_coe.mpr (List.mem_filterMap.mpr ⟨cmd, hmem, ht⟩)))))

lemma mem_senders_of_actor {cmd : ClientCmd M P} (hactor : s.actor = .writing cmd)
    (ht : cmd.reply = some t) : t ∈ s.senders := by
  refine Multiset.mem_add.mpr (.inl (Multiset.mem_add.mpr (.inr (Multiset.mem_coe.mpr ?_))))
  rw [hactor]
  show t ∈ cmd.reply.toList
  rw [ht]
  exact List.mem_singleton_self t

lemma mem_senders_of_table (hget : s.pending.get? id = some t) : t ∈ s.senders :=
  Multiset.mem_add.mpr (.inr (Multiset.mem_coe.mpr (KeyedMap.mem_values.mpr
    ⟨id, KeyedMap.mem_entries_iff.mpr hget⟩)))

lemma mem_senders (hmem : t ∈ s.senders) :
    (∃ cmd ∈ s.queue, cmd.reply = some t) ∨
      (∃ cmd, s.actor = .writing cmd ∧ cmd.reply = some t) ∨
      ∃ id, s.pending.get? id = some t := by
  rcases Multiset.mem_add.mp hmem with hmem | hmem
  · rcases Multiset.mem_add.mp hmem with hmem | hmem
    · exact .inl (List.mem_filterMap.mp (Multiset.mem_coe.mp hmem))
    · refine .inr (.inl ?_)
      cases hactor : s.actor with
      | writing cmd =>
          rw [hactor] at hmem
          exact ⟨cmd, rfl, Option.mem_toList.mp (Multiset.mem_coe.mp hmem)⟩
      | idle =>
          rw [hactor] at hmem
          cases hmem
      | ended =>
          rw [hactor] at hmem
          cases hmem
  · obtain ⟨id, hentry⟩ := KeyedMap.mem_values.mp (Multiset.mem_coe.mp hmem)
    exact .inr (.inr ⟨id, KeyedMap.mem_entries_iff.mp hentry⟩)

/-! ## The invariant -/

/-- The tickets are in order: each is numbered by its id, its sender is in one place at most, and
what is queued, written and in the table is what its caller has sent. -/
structure Orderly (s : Client M P) : Prop where
  numbered : ∀ t c, s.callers t = some c → t < s.issued ∧
    ∃ r, c.envelope.asRequest = some r ∧ r.correlationId = idOf t ∧ r.waitReply = c.waitReply
  nextId : s.nextId = idOf s.issued
  bound : s.issued < 2 ^ 64
  nodup : s.senders.Nodup
  live : ∀ t ∈ s.senders, s.slots t = .empty
  fresh : ∀ t, ¬s.Sent t → s.slots t = .empty
  queued : ∀ cmd ∈ s.queue, s.Backed cmd
  writing : ∀ cmd, s.actor = .writing cmd → s.Backed cmd
  table : ∀ id t, s.pending.get? id = some t →
    id = idOf t ∧ ∃ c, s.callers t = some c ∧ c.phase ≠ .started ∧ c.waitReply = true
  ended : s.actor = .ended → s.queue = [] ∧ s.pending = KeyedMap.empty
  resolved : ∀ t result, (t, result) ∈ s.resolutions →
    ∃ c, s.callers t = some c ∧ c.phase = .resolved result
  once : (s.resolutions.map Prod.fst).Nodup

lemma orderly_fromStream : Orderly (fromStream : Client M P) where
  numbered _ _ hget := by cases hget
  nextId := rfl
  bound := Nat.two_pow_pos 64
  nodup := Multiset.nodup_zero
  live _ hmem := absurd hmem (Multiset.notMem_zero _)
  fresh _ _ := rfl
  queued _ hmem := absurd hmem List.not_mem_nil
  writing _ hactor := by cases hactor
  table _ _ hget := by cases hget
  ended hactor := by cases hactor
  resolved _ _ hmem := absurd hmem List.not_mem_nil
  once := List.nodup_nil

lemma Backed.sent {cmd : ClientCmd M P} (h : s.Backed cmd) (ht : cmd.reply = some t) : s.Sent t := by
  obtain ⟨c, hget, hphase, -⟩ := h t ht
  exact ⟨c, hget, hphase⟩

lemma Orderly.sent (h : Orderly s) (hmem : t ∈ s.senders) : s.Sent t := by
  rcases mem_senders hmem with ⟨cmd, hqueue, ht⟩ | ⟨cmd, hactor, ht⟩ | ⟨id, hget⟩
  · exact (h.queued cmd hqueue).sent ht
  · exact (h.writing cmd hactor).sent ht
  · obtain ⟨-, c, hc, hphase, -⟩ := h.table id t hget
    exact ⟨c, hc, hphase⟩

lemma correlationId_eq {r : Request M} (hr : c.envelope.asRequest = some r)
    (hid : r.correlationId = idOf t) : c.envelope.correlationId = idOf t := by
  rw [Envelope.correlationId, hr]
  exact hid

/-! ### The callers -/

section SetCaller

variable {phase : Phase P}

lemma setCaller_get? (s : Client M P) (t t' : Ticket) (c : Caller M P) :
    (s.setCaller t c).callers t' = if t' = t then some c else s.callers t' := by
  unfold setCaller
  by_cases ht : t' = t
  · rw [if_pos ht, ht]
    exact Function.update_self _ _ _
  · rw [if_neg ht]
    exact Function.update_of_ne ht _ _

/-- Another caller's entry. -/
lemma setCaller_of_ne {t' : Ticket} {c' : Caller M P} (ht : t' ≠ t) :
    (s.setCaller t c').callers t' = s.callers t' := by
  rw [setCaller_get?, if_neg ht]

lemma setCaller_self {c' : Caller M P} : (s.setCaller t c').callers t = some c' := by
  rw [setCaller_get?, if_pos rfl]

lemma Backed.setCaller {cmd : ClientCmd M P} (h : s.Backed cmd) (hget : s.callers t = some c)
    (hphase : phase ≠ .started) : (s.setCaller t { c with phase }).Backed cmd := by
  intro t' ht'
  obtain ⟨c', hget', hphase', hcmd⟩ := h t' ht'
  by_cases ht : t' = t
  · subst ht
    obtain rfl := Option.some.inj (hget.symm.trans hget')
    exact ⟨_, setCaller_self, hphase, hcmd⟩
  · exact ⟨c', (setCaller_of_ne ht).trans hget', hphase', hcmd⟩

lemma Sent.setCaller {t' : Ticket} (h : s.Sent t') (hphase : phase ≠ .started) :
    (s.setCaller t { c with phase }).Sent t' := by
  obtain ⟨c', hget', hphase'⟩ := h
  by_cases ht : t' = t
  · subst ht
    exact ⟨_, setCaller_self, hphase⟩
  · exact ⟨c', (setCaller_of_ne ht).trans hget', hphase'⟩

/-- A caller that has not returned goes on to another phase. -/
lemma Orderly.setCaller (h : Orderly s) (hget : s.callers t = some c)
    (hopen : ∀ result, c.phase ≠ .resolved result) (hphase : phase ≠ .started) :
    Orderly (s.setCaller t { c with phase }) where
  numbered t' c' hget' := by
    rw [setCaller_get?] at hget'
    split_ifs at hget' with ht
    · subst ht
      obtain rfl := Option.some.inj hget'
      exact h.numbered t' c hget
    · exact h.numbered t' c' hget'
  nextId := h.nextId
  bound := h.bound
  nodup := h.nodup
  live := h.live
  fresh t' hfresh := h.fresh t' fun hsent => hfresh (hsent.setCaller hphase)
  queued cmd hmem := (h.queued cmd hmem).setCaller hget hphase
  writing cmd hactor := (h.writing cmd hactor).setCaller hget hphase
  table id t' hentry := by
    obtain ⟨hid, c', hget', hphase', hwait⟩ := h.table id t' hentry
    refine ⟨hid, ?_⟩
    by_cases ht : t' = t
    · subst ht
      obtain rfl := Option.some.inj (hget.symm.trans hget')
      exact ⟨_, setCaller_self, hphase, hwait⟩
    · exact ⟨c', (setCaller_of_ne ht).trans hget', hphase', hwait⟩
  ended := h.ended
  resolved t' result hmem := by
    obtain ⟨c', hget', hresolved⟩ := h.resolved t' result hmem
    have ht : t' ≠ t := by
      rintro rfl
      obtain rfl := Option.some.inj (hget.symm.trans hget')
      exact hopen result hresolved
    exact ⟨c', (setCaller_of_ne ht).trans hget', hresolved⟩
  once := h.once

end SetCaller

/-- A caller returns. -/
lemma Orderly.resolve (h : Orderly s) (hget : s.callers t = some c)
    (hopen : ∀ result, c.phase ≠ .resolved result) (result : Except RpcError (Option P)) :
    Orderly (s.resolve t c result) := by
  have hphase : Phase.resolved result ≠ .started := by rintro ⟨⟩
  have hset := h.setCaller hget hopen hphase
  refine { hset with
    resolved := fun t' result' hmem => ?_
    once := ?_ }
  · rcases List.mem_append.mp hmem with hmem | hmem
    · exact hset.resolved t' result' hmem
    · cases List.mem_singleton.mp hmem
      exact ⟨_, setCaller_self, rfl⟩
  · show ((s.resolutions ++ [(t, result)]).map Prod.fst).Nodup
    rw [List.map_append, List.nodup_append]
    refine ⟨h.once, List.nodup_singleton _, ?_⟩
    rintro t' hmem _ hself rfl
    obtain ⟨⟨t'', result'⟩, hpair, ht'⟩ := List.mem_map.mp hmem
    obtain rfl := List.mem_singleton.mp hself
    obtain rfl : t'' = t' := ht'
    obtain ⟨c', hget', hresolved⟩ := h.resolved t'' result' hpair
    obtain rfl := Option.some.inj (hget.symm.trans hget')
    exact hopen result' hresolved

/-- A command joins the queue. -/
lemma Orderly.push (h : Orderly s) {cmd : ClientCmd M P} (hbacked : s.Backed cmd)
    (hactor : s.actor ≠ .ended)
    (hnew : ∀ t, cmd.reply = some t → t ∉ s.senders ∧ s.slots t = .empty) :
    Orderly { s with queue := s.queue ++ [cmd] } := by
  refine { h with
    nodup := ?_
    live := fun t hmem => ?_
    queued := fun cmd' hmem => ?_
    ended := fun hended => absurd hended hactor }
  · rw [senders_push]
    cases hreply : cmd.reply with
    | none =>
        show (s.senders + 0).Nodup
        rw [add_zero]
        exact h.nodup
    | some t =>
        show (s.senders + {t}).Nodup
        rw [add_comm, Multiset.singleton_add]
        exact Multiset.nodup_cons.mpr ⟨(hnew t hreply).1, h.nodup⟩
  · rw [senders_push] at hmem
    rcases Multiset.mem_add.mp hmem with hmem | hmem
    · exact h.live t hmem
    · exact (hnew t (Option.mem_toList.mp (Multiset.mem_coe.mp hmem))).2
  · rcases List.mem_append.mp hmem with hmem | hmem
    · exact h.queued cmd' hmem
    · exact List.mem_singleton.mp hmem ▸ hbacked

/-! ### The actor -/

/-- The same tickets, with some sender gone and something left to it. -/
lemma Orderly.shrink (h : Orderly s) (hcallers : s'.callers = s.callers)
    (hissued : s'.issued = s.issued) (hnext : s'.nextId = s.nextId)
    (hresolutions : s'.resolutions = s.resolutions) (hle : s'.senders ≤ s.senders)
    (hslots : ∀ t, s'.slots t = s.slots t ∨ (t ∈ s.senders ∧ t ∉ s'.senders))
    (hqueue : ∀ cmd ∈ s'.queue, s.Backed cmd)
    (hwriting : ∀ cmd, s'.actor = .writing cmd → s.Backed cmd)
    (htable : ∀ id t, s'.pending.get? id = some t → s.pending.get? id = some t ∨
      (id = idOf t ∧ ∃ c, s.callers t = some c ∧ c.phase ≠ .started ∧ c.waitReply = true))
    (hended : s'.actor = .ended → s'.queue = [] ∧ s'.pending = KeyedMap.empty) : Orderly s' where
  numbered := by
    rw [hcallers, hissued]
    exact h.numbered
  nextId := by
    rw [hnext, hissued]
    exact h.nextId
  bound := hissued ▸ h.bound
  nodup := Multiset.nodup_of_le hle h.nodup
  live t hmem := by
    rcases hslots t with heq | ⟨-, hgone⟩
    · rw [heq]
      exact h.live t (Multiset.mem_of_le hle hmem)
    · exact absurd hmem hgone
  fresh t hfresh := by
    have hfresh' : ¬s.Sent t := by
      rintro ⟨c, hget, hphase⟩
      exact hfresh ⟨c, hcallers ▸ hget, hphase⟩
    rcases hslots t with heq | ⟨hmem, -⟩
    · rw [heq]
      exact h.fresh t hfresh'
    · exact absurd (h.sent hmem) hfresh'
  queued cmd hmem := by
    rw [Backed, hcallers]
    exact hqueue cmd hmem
  writing cmd hactor := by
    rw [Backed, hcallers]
    exact hwriting cmd hactor
  table id t hget := by
    rw [hcallers]
    rcases htable id t hget with hget | hnew
    · exact h.table id t hget
    · exact hnew
  ended := hended
  resolved := by
    rw [hcallers, hresolutions]
    exact h.resolved
  once := hresolutions ▸ h.once

/-- An entry is taken out of the table. -/
lemma Orderly.takeOut (h : Orderly s) (id : UInt64) (v : Slot P) : Orderly (s.takeOut id v) := by
  cases hget : s.pending.get? id with
  | none =>
      rw [takeOut_none hget]
      exact h
  | some t =>
      have hsenders := senders_takeOut (v := v) hget
      have hnodup := h.nodup
      rw [hsenders, Multiset.nodup_cons] at hnodup
      rw [takeOut_some hget] at hsenders hnodup ⊢
      refine h.shrink rfl rfl rfl rfl (hsenders ▸ Multiset.le_cons_self _ _) (fun t' => ?_) h.queued
        h.writing (fun id' t' hget' => .inl ?_) fun hended => ?_
      · by_cases ht : t' = t
        · subst ht
          exact .inr ⟨mem_senders_of_table hget, hnodup.1⟩
        · exact .inl (Function.update_of_ne ht _ _)
      · rw [← KeyedMap.mem_entries_iff, KeyedMap.mem_erase] at hget'
        exact KeyedMap.mem_entries_iff.mp hget'.2
      · have hempty := (h.ended hended).2
        rw [hempty] at hget
        cases hget

/-- What the actor wrote is done with, and its sender has been used. -/
lemma Orderly.release (h : Orderly s) {cmd : ClientCmd M P} (hactor : s.actor = .writing cmd)
    (ht : cmd.reply = some t) (v : Slot P) : Orderly { s.put t v with actor := .idle } := by
  have hsenders : s.senders = t ::ₘ senders { s.put t v with actor := .idle } := by
    have hcount := senders_actor .idle hactor
    have hreply : (ActorPhase.writing cmd).reply = some t := ht
    rw [hreply] at hcount
    have hsame : senders { s.put t v with actor := .idle }
        = senders { s with actor := ActorPhase.idle } := rfl
    rw [hsame, ← Multiset.singleton_add, add_comm]
    exact (hcount.trans (add_zero _)).symm
  have hnodup := h.nodup
  rw [hsenders, Multiset.nodup_cons] at hnodup
  refine h.shrink rfl rfl rfl rfl (hsenders ▸ Multiset.le_cons_self _ _) (fun t' => ?_) h.queued
    (by rintro _ ⟨⟩) (fun _ _ hget => .inl hget) (by rintro ⟨⟩)
  by_cases ht' : t' = t
  · subst ht'
    exact .inr ⟨hsenders ▸ Multiset.mem_cons_self _ _, hnodup.1⟩
  · exact .inl (Function.update_of_ne ht' _ _)

lemma senders_ended (hqueue : s.queue = []) (hactor : s.actor = .ended)
    (hpending : s.pending = KeyedMap.empty) : s.senders = 0 := by
  simp [senders, hqueue, hactor, hpending, ActorPhase.reply]

lemma senders_close (s : Client M P) : s.close.senders = 0 := senders_ended rfl rfl rfl

/-- The actor ends: no sender is left. -/
lemma Orderly.close (h : Orderly s) : Orderly s.close := by
  refine h.shrink rfl rfl rfl rfl (senders_close s ▸ Multiset.zero_le _) (fun t => ?_)
    (fun _ hmem => absurd hmem List.not_mem_nil) (by rintro _ ⟨⟩)
    (fun id t hget => by cases hget) fun _ => ⟨rfl, rfl⟩
  rw [senders_close]
  by_cases hmem : t ∈ s.senders
  · exact .inr ⟨hmem, Multiset.notMem_zero t⟩
  · refine .inl ?_
    have hvalues : t ∉ s.pending.values := fun h => hmem
      (Multiset.mem_add.mpr (.inr (Multiset.mem_coe.mpr h)))
    have hqueue : t ∉ s.queue.filterMap ClientCmd.reply := fun h => hmem
      (Multiset.mem_add.mpr (.inl (Multiset.mem_add.mpr (.inl (Multiset.mem_coe.mpr h)))))
    simp only [Client.close, if_neg hvalues, if_neg hqueue]

/-- The command at the head of the queue is taken. -/
lemma Orderly.take (h : Orderly s) {cmd : ClientCmd M P} {rest : List (ClientCmd M P)}
    (hactor : s.actor = .idle) (hqueue : s.queue = cmd :: rest) : Orderly (s.take cmd rest) := by
  have hpop := senders_pop hqueue
  have hrest : ∀ cmd' ∈ rest, s.Backed cmd' := fun cmd' hmem =>
    h.queued cmd' (hqueue ▸ List.mem_cons_of_mem _ hmem)
  have hwriting : Orderly { s with queue := rest, actor := .writing cmd } := by
    have hsenders : senders { s with queue := rest, actor := .writing cmd } = s.senders := by
      have hcount := senders_actor (s := { s with queue := rest }) (.writing cmd) hactor
      rw [hpop, add_comm]
      exact (add_zero _).symm.trans hcount
    refine h.shrink rfl rfl rfl rfl (le_of_eq hsenders) (fun _ => .inl rfl) hrest ?_
      (fun _ _ hget => .inl hget) (by rintro ⟨⟩)
    rintro _ ⟨⟩
    exact h.queued cmd (hqueue ▸ List.mem_cons_self)
  cases cmd with
  | call envelope t => exact hwriting
  | notify envelope t => exact hwriting
  | forget id =>
      have hpopped : Orderly { s with queue := rest } := by
        refine h.shrink rfl rfl rfl rfl ?_ (fun _ => .inl rfl) hrest h.writing
          (fun _ _ hget => .inl hget) fun hended => ?_
        · rw [hpop]
          exact Multiset.le_add_left _ _
        · rw [hactor] at hended
          cases hended
      exact hpopped.takeOut id .closed

/-- A call that was written goes into the table. -/
lemma Orderly.store (h : Orderly s) {envelope : Envelope M P}
    (hactor : s.actor = .writing (.call envelope t))
    (hget : s.pending.get? envelope.correlationId = none) :
    Orderly { s with
      actor := .idle
      pending := s.pending.insert envelope.correlationId t } := by
  have hsenders : senders { s with
      actor := .idle
      pending := s.pending.insert envelope.correlationId t } = s.senders := by
    have hcount : senders { s with actor := ActorPhase.idle } + {t} = s.senders + 0 :=
      senders_actor .idle hactor
    rw [add_zero] at hcount
    rw [← hcount]
    unfold senders
    dsimp only
    rw [values_insert s.pending hget t, ← Multiset.singleton_add]
    abel
  refine h.shrink rfl rfl rfl rfl (le_of_eq hsenders) (fun _ => .inl rfl) h.queued
    (by rintro _ ⟨⟩) (fun id' t' hget' => ?_) (by rintro ⟨⟩)
  dsimp only at hget'
  rw [KeyedMap.get?_insert_eq_update] at hget'
  by_cases hid : id' = envelope.correlationId
  · subst hid
    rw [Function.update_self] at hget'
    obtain rfl := Option.some.inj hget'
    obtain ⟨c, hc, hphase, hcmd⟩ := h.writing _ hactor t rfl
    obtain ⟨r, hr, hrid, hwait⟩ := (h.numbered t c hc).2
    unfold Caller.cmd at hcmd
    split_ifs at hcmd with hcall
    cases hcmd
    exact .inr ⟨correlationId_eq hr hrid, c, hc, hphase, hcall⟩
  · rw [Function.update_of_ne hid] at hget'
    exact .inl hget'

lemma takeOut_get? (s : Client M P) (id : UInt64) (v : Slot P) :
    (s.takeOut id v).pending.get? id = none := by
  cases hget : s.pending.get? id with
  | none => rwa [takeOut_none hget]
  | some t =>
      rw [takeOut_some hget]
      exact KeyedMap.get?_erase_self _ _

@[simp] lemma takeOut_actor (s : Client M P) (id : UInt64) (v : Slot P) :
    (s.takeOut id v).actor = s.actor := by
  unfold takeOut
  split <;> rfl

@[simp] lemma takeOut_queue (s : Client M P) (id : UInt64) (v : Slot P) :
    (s.takeOut id v).queue = s.queue := by
  unfold takeOut
  split <;> rfl

@[simp] lemma takeOut_callers (s : Client M P) (id : UInt64) (v : Slot P) :
    (s.takeOut id v).callers = s.callers := by
  unfold takeOut
  split <;> rfl

/-- A write has ended. -/
lemma Orderly.wrote (h : Orderly s) {cmd : ClientCmd M P} (hactor : s.actor = .writing cmd)
    (w : Written) : Orderly (s.wrote cmd w) := by
  cases cmd with
  | call envelope t =>
      cases w with
      | ok =>
          exact (h.takeOut _ .closed).store ((takeOut_actor _ _ _).trans hactor) (takeOut_get? _ _ _)
      | failed e => exact h.release hactor rfl _
      | timedOut => exact (h.release hactor rfl (.failed .timeout)).close
  | notify envelope t =>
      cases w with
      | ok => exact h.release hactor rfl _
      | failed e => exact h.release hactor rfl _
      | timedOut => exact (h.release hactor rfl (.failed .timeout)).close
  | forget id =>
      refine h.shrink rfl rfl rfl rfl ?_ (fun _ => .inl rfl) h.queued (by rintro _ ⟨⟩)
        (fun _ _ hget => .inl hget) (by rintro ⟨⟩)
      have hcount : senders { s with actor := ActorPhase.idle } + 0 = s.senders + 0 :=
        senders_actor .idle hactor
      rw [add_zero, add_zero] at hcount
      exact le_of_eq hcount

/-- A frame is read. -/
lemma Orderly.readFrame (h : Orderly s) (frame : Frame M P) : Orderly (s.readFrame frame) := by
  cases frame with
  | eof => exact h.close
  | error => exact h.close
  | envelope e =>
      have hread : Orderly { s with received := s.received ++ [e] } := { h with }
      simp only [Client.readFrame]
      split
      · split
        · exact hread.takeOut _ _
        · exact hread
      · exact hread

/-- The client is dropped. -/
lemma Orderly.hangUp (h : Orderly s) (hqueue : s.queue = []) : Orderly s.hangUp := by
  have hnone : s.hangUp.senders = 0 := senders_ended hqueue rfl rfl
  refine h.shrink rfl rfl rfl rfl (hnone ▸ Multiset.zero_le _) (fun t => ?_) h.queued
    (by rintro _ ⟨⟩) (fun id t hget => by cases hget) fun _ => ⟨hqueue, rfl⟩
  rw [hnone]
  by_cases hmem : t ∈ s.pending.values
  · exact .inr ⟨Multiset.mem_add.mpr (.inr (Multiset.mem_coe.mpr hmem)), Multiset.notMem_zero t⟩
  · refine .inl ?_
    simp only [Client.hangUp, if_neg hmem]

/-- A call starts. -/
lemma Orderly.start (h : Orderly s) (caller : CallerContext) (unicastId : TypedValue)
    (waitReply : Bool) (call : M) (auth : Option Auth) (hcount : s.issued + 1 < 2 ^ 64) :
    Orderly (s.start caller unicastId waitReply call auth) := by
  have hnone : s.callers s.issued = none := by
    cases hget : s.callers s.issued with
    | none => rfl
    | some c => exact absurd (h.numbered _ c hget).1 (lt_irrefl _)
  have hold : ∀ {t c}, s.callers t = some c →
      (s.start caller unicastId waitReply call auth).callers t = some c := by
    intro t c hget
    have ht : t ≠ s.issued := by
      rintro rfl
      rw [hnone] at hget
      cases hget
    exact (Function.update_of_ne ht _ _).trans hget
  have hback : ∀ {cmd}, s.Backed cmd → (s.start caller unicastId waitReply call auth).Backed cmd := by
    intro cmd hbacked t ht
    obtain ⟨c, hget, hrest⟩ := hbacked t ht
    exact ⟨c, hold hget, hrest⟩
  exact {
    numbered := by
      intro t c hget
      by_cases ht : t = s.issued
      · subst ht
        obtain rfl := Option.some.inj (setCaller_self.symm.trans hget)
        exact ⟨Nat.lt_succ_self _, _, rfl, h.nextId, rfl⟩
      · have hget' := (setCaller_of_ne ht).symm.trans hget
        exact ⟨Nat.lt_succ_of_lt (h.numbered t c hget').1, (h.numbered t c hget').2⟩
    nextId := by
      show s.nextId + 1 = idOf (s.issued + 1)
      rw [h.nextId]
      unfold idOf
      exact (UInt64.ofNat_add _ _).symm
    bound := hcount
    nodup := h.nodup
    live := h.live
    fresh := by
      intro t hfresh
      refine h.fresh t ?_
      rintro ⟨c, hget, hphase⟩
      exact hfresh ⟨c, hold hget, hphase⟩
    queued := fun cmd hmem => hback (h.queued cmd hmem)
    writing := fun cmd hactor => hback (h.writing cmd hactor)
    table := by
      intro id t hget
      obtain ⟨hid, c, hc, hrest⟩ := h.table id t hget
      exact ⟨hid, c, hold hc, hrest⟩
    ended := h.ended
    resolved := by
      intro t result hmem
      obtain ⟨c, hc, hphase⟩ := h.resolved t result hmem
      exact ⟨c, hold hc, hphase⟩
    once := h.once }

lemma cmd_reply (c : Caller M P) (t : Ticket) : (c.cmd t).reply = some t := by
  unfold Caller.cmd
  split <;> rfl

/-- A command is sent. -/
lemma Orderly.submit (h : Orderly s) (hget : s.callers t = some c) (hphase : c.phase = .started) :
    Orderly (s.submit t c) := by
  have hopen : ∀ result, c.phase ≠ .resolved result := by
    intro result
    rw [hphase]
    rintro ⟨⟩
  have hpush : s.actor ≠ .ended →
      Orderly { s.setCaller t { c with phase := .waiting } with queue := s.queue ++ [c.cmd t] } := by
    intro hactor
    have hunsent : ¬s.Sent t := by
      rintro ⟨c', hget', hphase'⟩
      obtain rfl := Option.some.inj (hget.symm.trans hget')
      exact hphase' hphase
    refine (h.setCaller hget hopen (by rintro ⟨⟩)).push ?_ hactor ?_
    · intro t' ht'
      rw [cmd_reply] at ht'
      obtain rfl := Option.some.inj ht'
      exact ⟨_, setCaller_self, by rintro ⟨⟩, rfl⟩
    · intro t' ht'
      rw [cmd_reply] at ht'
      obtain rfl := Option.some.inj ht'
      exact ⟨fun hmem => hunsent (h.sent hmem), h.fresh t hunsent⟩
  unfold Client.submit
  split
  · exact h.resolve hget hopen _
  · next hactor => exact hpush hactor

/-- A caller's time is up. -/
lemma Orderly.timeOut (h : Orderly s) (hget : s.callers t = some c) (hphase : c.phase = .waiting) :
    Orderly (s.timeOut t c) := by
  have hopen : ∀ result, c.phase ≠ .resolved result := by
    intro result
    rw [hphase]
    rintro ⟨⟩
  have hresolve := h.resolve hget hopen (.error .timeout)
  unfold Client.timeOut
  dsimp only
  split
  · split
    · exact hresolve
    · next hactor => exact hresolve.push (by rintro t ⟨⟩) hactor (by rintro t ⟨⟩)
  · exact hresolve

variable {D : Client M P → Ticket → Prop}

/-- **One step keeps the tickets in order.** -/
lemma Orderly.step (h : Orderly s) (hstep : Step D s s') : Orderly s' := by
  have hopen : ∀ {c : Caller M P}, c.phase = .waiting → ∀ result, c.phase ≠ .resolved result := by
    intro c hphase result
    rw [hphase]
    rintro ⟨⟩
  cases hstep with
  | start caller unicastId waitReply call auth hcount => exact h.start _ _ _ _ _ hcount
  | submit hget hphase => exact h.submit hget hphase
  | answered hget hphase _ => exact h.resolve hget (hopen hphase) _
  | timeOut hget hphase => exact h.timeOut hget hphase
  | drop hget hphase _ => exact h.setCaller hget (hopen hphase) (by rintro ⟨⟩)
  | take hactor hqueue => exact h.take hactor hqueue
  | wrote w hactor => exact h.wrote hactor w
  | readFrame frame _ => exact h.readFrame frame
  | hangUp _ hqueue _ => exact h.hangUp hqueue

lemma Run.orderly (run : Run D s) : Orderly s := by
  induction run with
  | fromStream => exact orderly_fromStream
  | step _ hstep ih => exact ih.step hstep

/-! ## Answers -/

/-- The peer has answered the call `t` with `outcome`. -/
def Answered (received : List (Envelope M P)) (t : Ticket) (outcome : ResponseOutcome P) : Prop :=
  ∃ e ∈ received, e.checkVersion = true ∧ e.body = some (.response ⟨idOf t, some outcome⟩)

/-- A response left to a ticket was received for it, and no failure is passed off as the peer's. -/
def SlotTold (received : List (Envelope M P)) (t : Ticket) : Slot P → Prop
  | .response r => r.correlationId = idOf t ∧
      ∃ e ∈ received, e.checkVersion = true ∧ e.body = some (.response r)
  | .failed e => ∀ x, e ≠ .remote x
  | _ => True

/-- What is returned as the peer's answer is one. -/
def ResultTold (received : List (Envelope M P)) (t : Ticket) :
    Except RpcError (Option P) → Prop
  | .ok (some p) => Answered received t (.payload p)
  | .error (.remote e) => Answered received t (.error e)
  | _ => True

variable {received : List (Envelope M P)} {slot : Slot P} {value : Except RpcError (Option P)}

lemma SlotTold.result (h : SlotTold received t slot) (hresult : slot.result = some value) :
    ResultTold received t value := by
  cases slot with
  | empty => cases hresult
  | response r =>
      obtain ⟨id, outcome⟩ := r
      obtain ⟨rfl, e, hmem, hversion, hbody⟩ := h
      cases outcome with
      | none =>
          cases hresult
          trivial
      | some outcome =>
          cases outcome with
          | payload p =>
              cases hresult
              exact ⟨e, hmem, hversion, hbody⟩
          | error x =>
              cases hresult
              exact ⟨e, hmem, hversion, hbody⟩
  | written =>
      cases hresult
      trivial
  | failed e =>
      cases hresult
      cases e with
      | remote x => exact absurd rfl (h x)
      | _ => trivial
  | closed =>
      cases hresult
      trivial

lemma Answered.mono {outcome : ResponseOutcome P} (h : Answered received t outcome)
    (l : List (Envelope M P)) : Answered (received ++ l) t outcome := by
  obtain ⟨e, hmem, hrest⟩ := h
  exact ⟨e, List.mem_append_left l hmem, hrest⟩

lemma SlotTold.mono (h : SlotTold received t slot) (l : List (Envelope M P)) :
    SlotTold (received ++ l) t slot := by
  cases slot with
  | response r =>
      obtain ⟨hid, e, hmem, hrest⟩ := h
      exact ⟨hid, e, List.mem_append_left l hmem, hrest⟩
  | failed e => exact h
  | _ => trivial

lemma ResultTold.mono (h : ResultTold received t value) (l : List (Envelope M P)) :
    ResultTold (received ++ l) t value := by
  cases value with
  | ok payload =>
      cases payload with
      | none => trivial
      | some p => exact Answered.mono h l
  | error e =>
      cases e with
      | remote x => exact Answered.mono h l
      | _ => trivial

/-- Every slot and every result is told truly. -/
structure Told (s : Client M P) : Prop where
  slots : ∀ t, SlotTold s.received t (s.slots t)
  resolutions : ∀ t result, (t, result) ∈ s.resolutions → ResultTold s.received t result

lemma told_fromStream : Told (fromStream : Client M P) :=
  ⟨fun _ => trivial, fun _ _ hmem => absurd hmem List.not_mem_nil⟩

/-- Nothing is returned, and what is new in the slots is told truly. -/
lemma Told.slotted (h : Told s) (hreceived : s'.received = s.received)
    (hresolutions : s'.resolutions = s.resolutions)
    (hslots : ∀ t, s'.slots t = s.slots t ∨ SlotTold s.received t (s'.slots t)) : Told s' where
  slots t := by
    rw [hreceived]
    rcases hslots t with heq | htold
    · rw [heq]
      exact h.slots t
    · exact htold
  resolutions := by
    rw [hreceived, hresolutions]
    exact h.resolutions

lemma Told.resolve (h : Told s) (hresult : ResultTold s.received t value) :
    Told (s.resolve t c value) where
  slots := h.slots
  resolutions t' result' hmem := by
    rcases List.mem_append.mp hmem with hmem | hmem
    · exact h.resolutions t' result' hmem
    · cases List.mem_singleton.mp hmem
      exact hresult

lemma Told.put (h : Told s) (slot : Slot P) (hslot : SlotTold s.received t slot) :
    Told (s.put t slot) := by
  refine h.slotted rfl rfl fun t' => ?_
  by_cases ht : t' = t
  · subst ht
    refine .inr ?_
    show SlotTold s.received t' (Function.update s.slots t' slot t')
    rw [Function.update_self]
    exact hslot
  · exact .inl (Function.update_of_ne ht _ _)

lemma Told.close (h : Told s) : Told s.close := by
  refine h.slotted rfl rfl fun t => ?_
  unfold Client.close
  dsimp only
  split
  · exact .inr (by rintro x ⟨⟩)
  · split
    · exact .inr trivial
    · exact .inl rfl

lemma Told.takeOut {id : UInt64} (h : Told s) (slot : Slot P)
    (hslot : ∀ t, s.pending.get? id = some t → SlotTold s.received t slot) :
    Told (s.takeOut id slot) := by
  cases hget : s.pending.get? id with
  | none =>
      rw [takeOut_none hget]
      exact h
  | some t =>
      rw [takeOut_some hget]
      exact (h.put slot (hslot t hget)).slotted rfl rfl fun _ => .inl rfl

lemma writeError_not_remote (e : WriteError) (x : RemoteError) : e.toRpcError ≠ .remote x := by
  cases e <;> rintro ⟨⟩

lemma Told.wrote (h : Told s) (cmd : ClientCmd M P) (w : Written) : Told (s.wrote cmd w) := by
  have hidle : ∀ {s : Client M P}, Told s → Told { s with actor := .idle } :=
    fun h => h.slotted rfl rfl fun _ => .inl rfl
  cases cmd with
  | call envelope t =>
      cases w with
      | ok =>
          exact (h.takeOut .closed fun _ _ => trivial).slotted rfl rfl fun _ => .inl rfl
      | failed e => exact hidle (h.put _ (writeError_not_remote e))
      | timedOut => exact (h.put (.failed .timeout) (by rintro x ⟨⟩)).close
  | notify envelope t =>
      cases w with
      | ok => exact hidle (h.put .written trivial)
      | failed e => exact hidle (h.put _ (writeError_not_remote e))
      | timedOut => exact (h.put (.failed .timeout) (by rintro x ⟨⟩)).close
  | forget id => exact hidle h

lemma Told.readFrame (h : Told s) (ho : Orderly s) (frame : Frame M P) :
    Told (s.readFrame frame) := by
  cases frame with
  | eof => exact h.close
  | error => exact h.close
  | envelope e =>
      have hread : Told { s with received := s.received ++ [e] } :=
        ⟨fun t => SlotTold.mono (h.slots t) [e],
          fun t result hmem => ResultTold.mono (h.resolutions t result hmem) [e]⟩
      simp only [Client.readFrame]
      split
      · next hversion =>
          split
          · next r hbody =>
              -- the table has the ticket under the id of the response
              refine hread.takeOut _ fun t hget => ⟨(ho.table _ t hget).1, e, ?_, hversion, hbody⟩
              exact List.mem_append_right _ (List.mem_singleton_self e)
          · exact hread
      · exact hread

lemma Told.step (h : Told s) (ho : Orderly s) (hstep : Step D s s') : Told s' := by
  cases hstep with
  | start caller unicastId waitReply call auth _ => exact h.slotted rfl rfl fun _ => .inl rfl
  | submit hget hphase =>
      unfold Client.submit
      split
      · exact h.resolve trivial
      · exact h.slotted rfl rfl fun _ => .inl rfl
  | answered hget hphase hslot => exact h.resolve (SlotTold.result (h.slots _) hslot)
  | @timeOut t c hget hphase =>
      have hresolve : Told (s.resolve t c (.error .timeout)) := h.resolve trivial
      unfold Client.timeOut
      dsimp only
      split
      · split
        · exact hresolve
        · exact hresolve.slotted rfl rfl fun _ => .inl rfl
      · exact hresolve
  | drop hget hphase _ => exact h.slotted rfl rfl fun _ => .inl rfl
  | @take cmd rest hactor hqueue =>
      cases cmd with
      | call => exact h.slotted rfl rfl fun _ => .inl rfl
      | notify => exact h.slotted rfl rfl fun _ => .inl rfl
      | forget id =>
          have hpop : Told { s with queue := rest } := h.slotted rfl rfl fun _ => .inl rfl
          exact hpop.takeOut .closed fun _ _ => trivial
  | wrote w _ => exact h.wrote _ w
  | readFrame frame _ => exact h.readFrame ho frame
  | hangUp _ _ _ =>
      refine h.slotted rfl rfl fun t => ?_
      unfold Client.hangUp
      dsimp only
      split
      · exact .inr trivial
      · exact .inl rfl

lemma Run.told (run : Run D s) : Told s := by
  induction run with
  | fromStream => exact told_fromStream
  | step run hstep ih => exact ih.step run.orderly hstep

/-- **A call returns at most once, and only what it was answered.** -/
theorem answers_of_run (run : Run D s) :
    (s.resolutions.map Prod.fst).Nodup ∧
      (∀ t p, (t, .ok (some p)) ∈ s.resolutions → Answered s.received t (.payload p)) ∧
      ∀ t e, (t, .error (.remote e)) ∈ s.resolutions → Answered s.received t (.error e) :=
  ⟨run.orderly.once, fun t _ hmem => run.told.resolutions t _ hmem,
    fun t _ hmem => run.told.resolutions t _ hmem⟩

end Client

end Netsukuku.Rpc
