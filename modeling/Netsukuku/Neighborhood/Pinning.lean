import Mathlib
import Netsukuku.Neighborhood.Consistency

/-!
# A pinned arc obeys only its key

* `authenticate_foreign` — a message that the key of a pinned arc has not signed, or not recently
  enough, is refused.
* `Untouched` — a command leaves an entry, its route and its events alone.
* `pinned_obeys_key` — a command in the name of a pinned arc without its key leaves it alone, unless
  it was to be reaped anyway.
-/

namespace Netsukuku.Neighborhood

open Manager

variable {s s' : Manager} {mac : Mac} {e : ArcEntry} {key : VerifyingKey} {verified : Verified}

/-- The MAC and the signature of an inbound call. -/
def Command.claim : Command → Option (Mac × Verified)
  | .hereIAm _ _ mac _ verified => some (mac, verified)
  | .requestArc _ _ _ _ _ mac _ verified => some (mac, verified)
  | .canYouExport _ mac _ _ verified => some (mac, verified)
  | .removeArc _ _ _ _ _ mac _ verified => some (mac, verified)
  | .nop _ mac _ verified => some (mac, verified)
  | _ => none

/-- Nobody has signed, or another key has, or `key` has with a sequence it has used before. -/
def Foreign (g : SequenceGuard VerifyingKey) (key : VerifyingKey) (verified : Verified) : Prop :=
  ∀ signer sequence, verified = some (signer, sequence) →
    signer ≠ key ∨ ∃ last, g.lastSeen key = some last ∧ sequence ≤ last

/-- Such a message is refused. -/
lemma authenticate_foreign (i : Input) (hget : s.arcs.get? mac = some e) (hkey : e.verifiedKey = some key)
    (hforeign : Foreign s.sequenceGuard key verified) :
    ∃ g message, s.authenticate i mac verified = ({ s with sequenceGuard := g }, .error message) := by
  unfold authenticate
  cases verified with
  | none =>
      by_cases hrequire : s.requireAuth = true
      · rw [if_pos hrequire]
        exact ⟨s.sequenceGuard, _, rfl⟩
      · rw [if_neg hrequire, hget, if_pos (by simp [hkey])]
        exact ⟨s.sequenceGuard, _, rfl⟩
  | some signed =>
      obtain ⟨signer, sequence⟩ := signed
      dsimp only
      rcases hobserve : s.sequenceGuard.observe i.signerOrder signer sequence with ⟨g, lastSeen | ⟨⟩⟩
      · exact ⟨g, _, rfl⟩
      · dsimp only
        rw [hget]
        dsimp only
        rw [hkey]
        dsimp only
        have hne : key ≠ signer := by
          rintro rfl
          rcases hforeign key sequence rfl with hne | ⟨last, hlast, hle⟩
          · exact hne rfl
          · have hstale := SequenceGuard.observe_stale i.signerOrder hlast hle
            rw [hobserve] at hstale
            cases hstale
        rw [if_pos hne]
        exact ⟨g, _, rfl⟩

/-- If every message has to be signed, one that is not is refused. -/
lemma authenticate_unsigned (i : Input) (hrequire : s.requireAuth = true) (mac : Mac) :
    ∃ message, s.authenticate i mac none = (s, .error message) := by
  unfold authenticate
  dsimp only
  rw [if_pos hrequire]
  exact ⟨_, rfl⟩

/-! ## What the reaper does -/

/-- The reaper's time has come for an entry. -/
def Expired (i : Input) (e : ArcEntry) : Prop :=
  e.arc.state = .discovered ∧ pendingArcTtl ≤ i.now - e.createdAt

lemma mem_stalePending {i : Input} :
    mac ∈ s.stalePending i ↔ ∃ e, s.arcs.get? mac = some e ∧ Expired i e := by
  unfold stalePending Expired
  simp only [List.mem_map, List.mem_filter, (i.arcOrder.perm _).mem_iff, Prod.exists,
    KeyedMap.mem_entries_iff, Bool.and_eq_true, decide_eq_true_eq, exists_and_right, exists_eq_right]

lemma reapStalePending_get? (i : Input) (s : Manager) (mac : Mac) :
    (s.reapStalePending i).state.arcs.get? mac
      = if mac ∈ s.stalePending i then none else s.arcs.get? mac :=
  (forEach_removeMyArc _ false s mac).2

/-- What is output when an entry is removed. -/
def RemovalOf (e : ArcEntry) : Output → Prop
  | .ip (.removeNeighbor _ _ addr) => addr = e.arc.neighbourNicAddr
  | .event (.arcRemoved arc) => arc = { e.arc with state := .removed }
  | .removeArc _ args => args.yourMac = e.arc.neighbourMac
  | _ => False

lemma removalOf_of_mem {isStillUsable : Bool} {out : Output}
    (hmem : out ∈ s.removalOutputs e isStillUsable) : RemovalOf e out := by
  unfold removalOutputs at hmem
  dsimp only at hmem
  rcases List.mem_append.mp hmem with hmem | hmem
  · cases hnic : s.nics.get? e.arc.myDev with
    | none =>
        rw [hnic] at hmem
        cases hmem
    | some nic =>
        rw [hnic] at hmem
        rcases List.mem_cons.mp hmem with rfl | hmem
        · rfl
        · cases isStillUsable
          · cases hmem
          · obtain rfl := List.mem_singleton.mp hmem
            rfl
  · split at hmem
    · obtain rfl := List.mem_singleton.mp hmem
      rfl
    · cases hmem

/-- Removing arcs spawns nothing, leaves the guard, and what it outputs is about the arcs
removed. -/
lemma forEach_removeMyArc_effects (macs : List Mac) (isStillUsable : Bool) (s : Manager) :
    (Ran.forEach macs (fun mac => removeMyArc mac isStillUsable) s).tasks = [] ∧
      (Ran.forEach macs (fun mac => removeMyArc mac isStillUsable) s).state.sequenceGuard
        = s.sequenceGuard ∧
      (Ran.forEach macs (fun mac => removeMyArc mac isStillUsable) s).state.requireAuth
        = s.requireAuth ∧
      ∀ out ∈ (Ran.forEach macs (fun mac => removeMyArc mac isStillUsable) s).outputs,
        ∃ mac ∈ macs, ∃ e, s.arcs.get? mac = some e ∧ RemovalOf e out := by
  have hstep : ∀ (a : Mac) (s : Manager), (s.removeMyArc a isStillUsable).tasks = [] ∧
      (s.removeMyArc a isStillUsable).state.sequenceGuard = s.sequenceGuard ∧
      (s.removeMyArc a isStillUsable).state.requireAuth = s.requireAuth ∧
      (∀ mac e, (s.removeMyArc a isStillUsable).state.arcs.get? mac = some e →
        s.arcs.get? mac = some e) ∧
      ∀ out ∈ (s.removeMyArc a isStillUsable).outputs,
        ∃ e, s.arcs.get? a = some e ∧ RemovalOf e out := by
    intro a s
    unfold removeMyArc
    cases hget : s.arcs.get? a with
    | none => exact ⟨rfl, rfl, rfl, fun _ _ h => h, fun out hout => by cases hout⟩
    | some e =>
        refine ⟨rfl, rfl, rfl, fun mac e' h => ?_, fun out hout => ⟨e, rfl, removalOf_of_mem hout⟩⟩
        rw [← KeyedMap.mem_entries_iff, KeyedMap.mem_erase] at h
        exact KeyedMap.mem_entries_iff.mp h.2
  suffices h : ∀ (l : List Mac) (r : Ran), l ⊆ macs →
      (r.tasks = [] ∧ r.state.sequenceGuard = s.sequenceGuard ∧
        r.state.requireAuth = s.requireAuth ∧
        (∀ mac e, r.state.arcs.get? mac = some e → s.arcs.get? mac = some e) ∧
        ∀ out ∈ r.outputs, ∃ mac ∈ macs, ∃ e, s.arcs.get? mac = some e ∧ RemovalOf e out) →
      (l.foldl (fun r a => r.andThen (removeMyArc a isStillUsable)) r).tasks = [] ∧
        (l.foldl (fun r a => r.andThen (removeMyArc a isStillUsable)) r).state.sequenceGuard
          = s.sequenceGuard ∧
        (l.foldl (fun r a => r.andThen (removeMyArc a isStillUsable)) r).state.requireAuth
          = s.requireAuth ∧
        ∀ out ∈ (l.foldl (fun r a => r.andThen (removeMyArc a isStillUsable)) r).outputs,
          ∃ mac ∈ macs, ∃ e, s.arcs.get? mac = some e ∧ RemovalOf e out from
    h macs (.pure s) (List.Subset.refl _)
      ⟨rfl, rfl, rfl, fun _ _ h => h, fun out hout => by cases hout⟩
  intro l
  induction l with
  | nil => exact fun r _ hr => ⟨hr.1, hr.2.1, hr.2.2.1, hr.2.2.2.2⟩
  | cons a l ih =>
      rintro r hsub ⟨htasks, hguard, hrequire, hkept, houts⟩
      obtain ⟨htasks', hguard', hrequire', hkept', houts'⟩ := hstep a r.state
      refine ih (r.andThen (removeMyArc a isStillUsable)) (fun x hx => hsub (List.mem_cons_of_mem _ hx))
        ⟨?_, hguard'.trans hguard, hrequire'.trans hrequire,
          fun mac e h => hkept mac e (hkept' mac e h), fun out hout => ?_⟩
      · show r.tasks ++ (r.state.removeMyArc a isStillUsable).tasks = []
        rw [htasks, htasks', List.append_nil]
      · rcases List.mem_append.mp hout with hout | hout
        · exact houts out hout
        · obtain ⟨e, hget, hremoval⟩ := houts' out hout
          exact ⟨a, hsub List.mem_cons_self, e, hkept a e hget, hremoval⟩

/-! ## A refused call -/

/-- Nothing happens but that the reaper may have its turn and the guard sees the message. -/
def Refused (i : Input) (s : Manager) (r : Ran) : Prop :=
  ∃ g, r = .pure { s with sequenceGuard := g } ∨
    r = (s.reapStalePending i).andThen fun s => .pure { s with sequenceGuard := g }

lemma refused_pure (i : Input) (s : Manager) : Refused i s (.pure s) :=
  ⟨s.sequenceGuard, .inl rfl⟩

/-- Every authentication of the message fails. -/
def Denied (i : Input) (s : Manager) (mac : Mac) (verified : Verified) : Prop :=
  ∃ g message, s.authenticate i mac verified = ({ s with sequenceGuard := g }, .error message)

lemma handleHereIAm_refused (i : Input) (dev : Dev) (id : NodeId) (addr : NicAddr)
    (hdenied : Denied i (s.reapStalePending i).state mac verified) :
    Refused i s (s.handleHereIAm i dev id mac addr verified) := by
  obtain ⟨g, message, hauth⟩ := hdenied
  unfold handleHereIAm
  split
  · exact refused_pure i s
  · cases s.nics.get? dev with
    | none => exact refused_pure i s
    | some nic =>
        dsimp only
        split
        · exact refused_pure i s
        · have hreaped : ∀ f : Manager → Ran, (∃ g, f (s.reapStalePending i).state
              = .pure { (s.reapStalePending i).state with sequenceGuard := g }) →
              Refused i s ((s.reapStalePending i).andThen f) := by
            rintro f ⟨g, hf⟩
            refine ⟨g, .inr ?_⟩
            unfold Ran.andThen
            rw [hf]
          refine hreaped _ ?_
          split_ifs
          · exact ⟨_, rfl⟩
          · exact ⟨_, rfl⟩
          · exact ⟨_, rfl⟩
          · rw [hauth]
            exact ⟨g, rfl⟩
          · exact ⟨_, rfl⟩

lemma handleRequestArc_refused (i : Input) (dev : Dev) (destId : NodeId) (destMac : Mac)
    (destAddr : NicAddr) (id : NodeId) (addr : NicAddr)
    (hdenied : Denied i (s.reapStalePending i).state mac verified) :
    Refused i s (s.handleRequestArc i dev destId destMac destAddr id mac addr verified) := by
  obtain ⟨g, message, hauth⟩ := hdenied
  unfold handleRequestArc
  split
  · exact refused_pure i s
  · cases s.nics.get? dev with
    | none => exact refused_pure i s
    | some nic =>
        dsimp only
        split
        · exact refused_pure i s
        · split
          · exact refused_pure i s
          · have hreaped : ∀ f : Manager → Ran, (∃ g, f (s.reapStalePending i).state
                = .pure { (s.reapStalePending i).state with sequenceGuard := g }) →
                Refused i s ((s.reapStalePending i).andThen f) := by
              rintro f ⟨g, hf⟩
              refine ⟨g, .inr ?_⟩
              unfold Ran.andThen
              rw [hf]
            refine hreaped _ ?_
            rw [hauth]
            split_ifs
            · exact ⟨_, rfl⟩
            · exact ⟨g, rfl⟩
            · exact ⟨_, rfl⟩

/-- The calls on which the reaper has its turn. -/
def Command.reaps : Command → Bool
  | .hereIAm _ _ _ _ _ => true
  | .requestArc _ _ _ _ _ _ _ _ => true
  | _ => false

lemma handle_reapsFirst (i : Input) {cmd : Command} (hreaps : cmd.reaps = true) :
    ReapsFirst (some cmd) i s (s.handle i cmd).1 := by
  cases cmd with
  | hereIAm dev id mac addr verified => exact handleHereIAm_reaps i dev id mac addr verified s
  | requestArc dev destId destMac destAddr id mac addr verified =>
      exact handleRequestArc_reaps i dev destId destMac destAddr id mac addr verified s
  | _ => cases hreaps

/-- The other calls, if authentication fails, change nothing but the guard. -/
lemma handle_denied (i : Input) {cmd : Command} (hclaim : cmd.claim = some (mac, verified))
    (hreaps : cmd.reaps = false) (hdenied : Denied i s mac verified) :
    ∃ g, (s.handle i cmd).1 = .pure { s with sequenceGuard := g } := by
  obtain ⟨g, message, hauth⟩ := hdenied
  cases cmd with
  | canYouExport id mac' addr peerCanExport verified' =>
      cases hclaim
      show ∃ g, (s.handleCanYouExport i id mac addr peerCanExport verified).1 = _
      unfold handleCanYouExport
      rw [hauth]
      cases s.arcs.get? mac with
      | none => exact ⟨_, rfl⟩
      | some entry =>
          dsimp only
          split
          · exact ⟨_, rfl⟩
          · exact ⟨g, rfl⟩
  | removeArc dev destId destMac destAddr id mac' addr verified' =>
      cases hclaim
      show ∃ g, s.handleRemoveArc i dev destId destMac destAddr id mac addr verified = _
      unfold handleRemoveArc
      rw [hauth]
      split
      · exact ⟨_, rfl⟩
      · cases s.nics.get? dev with
        | none => exact ⟨_, rfl⟩
        | some nic =>
            dsimp only
            split_ifs
            · exact ⟨_, rfl⟩
            · exact ⟨_, rfl⟩
            · exact ⟨g, rfl⟩
            · exact ⟨_, rfl⟩
  | nop id mac' addr verified' =>
      cases hclaim
      show ∃ g, (s.handleNop i id mac addr verified).1 = _
      unfold handleNop
      rw [hauth]
      cases s.arcs.get? mac with
      | none => exact ⟨_, rfl⟩
      | some entry =>
          dsimp only
          split
          · exact ⟨_, rfl⟩
          · split
            · exact ⟨_, rfl⟩
            · exact ⟨g, rfl⟩
  | hereIAm => cases hreaps
  | requestArc => cases hreaps
  | _ => cases hclaim

/-- **A call whose authentication fails** changes nothing but what the reaper and the guard do. -/
lemma handle_refused (i : Input) {cmd : Command} (hclaim : cmd.claim = some (mac, verified))
    (hdenied : Denied i s mac verified)
    (hdenied' : Denied i (s.reapStalePending i).state mac verified) :
    Refused i s (s.handle i cmd).1 := by
  by_cases hreaps : cmd.reaps = true
  · cases cmd with
    | hereIAm dev id mac' addr verified' =>
        cases hclaim
        exact handleHereIAm_refused i dev id addr hdenied'
    | requestArc dev destId destMac destAddr id mac' addr verified' =>
        cases hclaim
        exact handleRequestArc_refused i dev destId destMac destAddr id addr hdenied'
    | _ => cases hreaps
  · obtain ⟨g, hr⟩ := handle_denied i hclaim (Bool.eq_false_of_not_eq_true hreaps) hdenied
    exact ⟨g, .inl hr⟩

/-! ## What a refused call leaves -/

/-- An entry, its route and its events are left alone, and nothing is started. -/
structure Untouched (mac : Mac) (e : ArcEntry) (r : Ran) : Prop where
  entry : r.state.arcs.get? mac = some e
  added : ∀ dev myAddr addr, .ip (.addNeighbor dev myAddr addr) ∉ r.outputs
  removed : ∀ dev myAddr addr, .ip (.removeNeighbor dev myAddr addr) ∈ r.outputs →
    addr ≠ e.arc.neighbourNicAddr
  events : ∀ event, .event event ∈ r.outputs → event.arc.neighbourMac ≠ mac
  tasks : r.tasks = []

lemma untouched_pure (hget : s.arcs.get? mac = some e) (g : SequenceGuard VerifyingKey) :
    Untouched mac e (.pure { s with sequenceGuard := g }) :=
  ⟨hget, fun _ _ _ => List.not_mem_nil, fun _ _ _ hmem => absurd hmem List.not_mem_nil,
    fun _ hmem => absurd hmem List.not_mem_nil, rfl⟩

/-- An entry the reaper does not take. -/
lemma Refused.untouched {i : Input} {r : Ran} {routes : Multiset Route} (hr : Refused i s r)
    (h : Consistent s routes) (hget : s.arcs.get? mac = some e) (hfresh : ¬Expired i e) :
    Untouched mac e r := by
  obtain ⟨g, rfl | rfl⟩ := hr
  · exact untouched_pure hget g
  · have hstale : mac ∉ s.stalePending i := by
      rw [mem_stalePending]
      rintro ⟨e', hget', hexpired⟩
      rw [hget] at hget'
      exact hfresh (Option.some.inj hget' ▸ hexpired)
    obtain ⟨htasks, -, -, houts⟩ := forEach_removeMyArc_effects (s.stalePending i) false s
    have hmem : ∀ {out}, out ∈ (s.reapStalePending i).outputs ++ [] →
        ∃ mac', mac' ≠ mac ∧ ∃ e', s.arcs.get? mac' = some e' ∧ RemovalOf e' out := by
      intro out hout
      rw [List.append_nil] at hout
      obtain ⟨mac', hmac', e', hget', hremoval⟩ := houts out hout
      exact ⟨mac', fun heq => hstale (heq ▸ hmac'), e', hget', hremoval⟩
    refine ⟨?_, fun dev myAddr addr hout => ?_, fun dev myAddr addr hout heq => ?_,
      fun event hout heq => ?_, ?_⟩
    · show (s.reapStalePending i).state.arcs.get? mac = some e
      rw [reapStalePending_get?, if_neg hstale, hget]
    · obtain ⟨_, _, _, _, hremoval⟩ := hmem hout
      exact hremoval
    · obtain ⟨mac', hne, e', hget', hremoval⟩ := hmem hout
      exact hne (h.addresses mac' mac e' e hget' hget (hremoval.symm.trans heq))
    · obtain ⟨mac', hne, e', hget', hremoval⟩ := hmem hout
      cases event with
      | arcRemoved arc =>
          have harc : arc = { e'.arc with state := .removed } := hremoval
          rw [Event.arc, harc] at heq
          exact hne ((h.keyed mac' e' hget').symm.trans heq)
      | arcAdded arc => exact hremoval
      | arcCostChanged arc => exact hremoval
    · show (s.reapStalePending i).tasks ++ [] = []
      rw [List.append_nil]
      exact htasks

/-- What a refused call leaves was there before, and what it does not leave the reaper has taken. -/
lemma Refused.entries {i : Input} {r : Ran} (hr : Refused i s r) :
    (∀ mac e, r.state.arcs.get? mac = some e → s.arcs.get? mac = some e) ∧
      ∀ mac e, s.arcs.get? mac = some e → r.state.arcs.get? mac = some e ∨ Expired i e := by
  obtain ⟨g, rfl | rfl⟩ := hr
  · exact ⟨fun _ _ h => h, fun _ _ h => .inl h⟩
  · have hafter : ∀ mac, ((s.reapStalePending i).andThen fun s =>
        .pure { s with sequenceGuard := g }).state.arcs.get? mac
          = if mac ∈ s.stalePending i then none else s.arcs.get? mac := reapStalePending_get? i s
    constructor
    · intro mac e hget
      rw [hafter] at hget
      split_ifs at hget
      exact hget
    · intro mac e hget
      by_cases hstale : mac ∈ s.stalePending i
      · obtain ⟨e', hget', hexpired⟩ := mem_stalePending.mp hstale
        rw [hget] at hget'
        exact .inr (Option.some.inj hget' ▸ hexpired)
      · exact .inl (by rw [hafter, if_neg hstale, hget])

/-! ## Calls in the name of a pinned arc -/

lemma Foreign.denied (i : Input) (hforeign : Foreign s.sequenceGuard key verified)
    (hget : s.arcs.get? mac = some e) (hkey : e.verifiedKey = some key) : Denied i s mac verified :=
  authenticate_foreign i hget hkey hforeign

/-- An entry whose time had come when the reaper had its turn is not there any more. -/
lemma reaped_gone {c : Option Command} {i : Input} {r : Ran} (hdated : Dated s)
    (hr : ReapsFirst c i s r) (hget : s.arcs.get? mac = some e) (hexpired : Expired i e) :
    r = .pure s ∨ ∀ e', r.state.arcs.get? mac = some e' → e'.inserted ≠ e.inserted := by
  rcases hr with rfl | ⟨f, rfl, hf⟩
  · exact .inl rfl
  · refine .inr fun e' hget' heq => ?_
    have hgone : (s.reapStalePending i).state.arcs.get? mac = none := by
      rw [reapStalePending_get?, if_pos (mem_stalePending.mpr ⟨e, hget, hexpired⟩)]
    rcases hf.before hget' with hle | ⟨e₀, hget₀, _⟩
    · have htokens := (reapStalePending_follows (c := c) i s).tokens_le
      rw [heq] at hle
      exact absurd (htokens.trans hle) (not_le.mpr (hdated mac e hget))
    · rw [hgone] at hget₀
      cases hget₀

/-- One command or the shutdown. -/
def Next (s s' : Manager) : Prop :=
  (∃ i cmd, s' = (s.handle i cmd).1.state) ∨ ∃ i, s' = (s.shutdown i).state

lemma Next.path (h : Next s s') : ∃ c outs tasks, Path c s outs tasks s' := by
  rcases h with ⟨i, cmd, rfl⟩ | ⟨i, rfl⟩
  · exact ⟨_, _, _, handle_path i s cmd⟩
  · exact ⟨none, _, _, shutdown_follows i s⟩

/-- An entry keeps its key for as long as it is stored. -/
lemma verifiedKey_of_next (hdated : Dated s) (hget : s.arcs.get? mac = some e)
    (hkey : e.verifiedKey = some key) (hnext : Relation.ReflTransGen Next s s') {e' : ArcEntry}
    (hget' : s'.arcs.get? mac = some e') (hinserted : e'.inserted = e.inserted) :
    e'.verifiedKey = some key := by
  suffices h : s.tokens ≤ s'.tokens ∧ ∀ e', s'.arcs.get? mac = some e' →
      e'.inserted = e.inserted → e'.verifiedKey = some key from h.2 e' hget' hinserted
  clear hget' hinserted
  induction hnext with
  | refl =>
      refine ⟨le_rfl, fun e' hget' _ => ?_⟩
      rw [hget] at hget'
      exact Option.some.inj hget' ▸ hkey
  | tail _ hstep ih =>
      obtain ⟨htokens, hkept⟩ := ih
      obtain ⟨c, outs, tasks, path⟩ := hstep.path
      refine ⟨htokens.trans path.tokens_le, fun e'' hget'' hinserted => ?_⟩
      rcases path.before hget'' with hle | ⟨e', hget', hbecomes⟩
      · rw [hinserted] at hle
        exact absurd (htokens.trans hle) (not_le.mpr (hdated mac e hget))
      · exact hbecomes.verifiedKey key
          (hkept e' hget' (hbecomes.inserted.symm.trans hinserted))

/-- No command changes what has to be signed. -/
lemma Edit.requireAuth {c : Option Command} {outs : List Output} {tasks : List ArcTask}
    (h : Edit c s outs tasks s') : s'.requireAuth = s.requireAuth := by
  cases h with
  | negotiate hget _ => rw [negotiateArc_state hget]; rfl
  | establish hget hstate hnic _ => rw [exportArc_state hget hstate hnic]; rfl
  | _ => rfl

lemma Path.requireAuth {c : Option Command} {outs : List Output} {tasks : List ArcTask}
    (h : Path c s outs tasks s') : s'.requireAuth = s.requireAuth := by
  induction h with
  | refl => rfl
  | tail _ edit ih => exact edit.requireAuth.trans ih

variable {myId : NodeId} {maxArcs : ℕ} {requireAuth : Bool} {log : List Output}

lemma Run.requireAuth_eq (run : Run myId maxArcs requireAuth s log) : s.requireAuth = requireAuth := by
  induction run with
  | spawn => rfl
  | command run i cmd ih => exact (handle_path i _ cmd).requireAuth.trans ih
  | shutdown run i ih => exact (shutdown_follows (c := none) i _).requireAuth.trans ih

/-- A call in the name of a pinned arc that its key has not signed. -/
lemma foreign_spec (run : Run myId maxArcs requireAuth s log) (hget : s.arcs.get? mac = some e)
    (hkey : e.verifiedKey = some key) (i : Input) {cmd : Command}
    (hclaim : cmd.claim = some (mac, verified)) (hforeign : Foreign s.sequenceGuard key verified) :
    Untouched mac e (s.handle i cmd).1 ∨
      (Expired i e ∧ ∀ e', (s.handle i cmd).1.state.arcs.get? mac = some e' →
        e'.inserted ≠ e.inserted) := by
  have hdenied := hforeign.denied i hget hkey
  by_cases hexpired : Expired i e
  · by_cases hreaps : cmd.reaps = true
    · rcases reaped_gone run.dated (handle_reapsFirst i hreaps) hget hexpired with hr | hgone
      · rw [hr]
        exact .inl (untouched_pure hget s.sequenceGuard)
      · exact .inr ⟨hexpired, hgone⟩
    · obtain ⟨g, hr⟩ := handle_denied i hclaim (Bool.eq_false_of_not_eq_true hreaps) hdenied
      rw [hr]
      exact .inl (untouched_pure hget g)
  · -- the reaper leaves the entry, and the guard as it is
    have hget' : (s.reapStalePending i).state.arcs.get? mac = some e := by
      rw [reapStalePending_get?, if_neg, hget]
      rw [mem_stalePending]
      rintro ⟨e', hget', hexpired'⟩
      rw [hget] at hget'
      exact hexpired (Option.some.inj hget' ▸ hexpired')
    have hguard : (s.reapStalePending i).state.sequenceGuard = s.sequenceGuard :=
      (forEach_removeMyArc_effects (s.stalePending i) false s).2.1
    have hdenied' : Denied i (s.reapStalePending i).state mac verified :=
      Foreign.denied i (hguard ▸ hforeign) hget' hkey
    exact .inl ((handle_refused i hclaim hdenied hdenied').untouched run.consistent hget hexpired)

/-- **A pinned arc obeys only its key.**  In every state reached: the key an entry is pinned to
never changes while the entry is stored; a call in its name without a signature, with another
signer's, or with a sequence its key has used before leaves it alone, but that an expired
Discovered arc may be reaped; and where every call has to be signed, one that is not creates and
changes nothing. -/
theorem pinned_obeys_key (run : Run myId maxArcs requireAuth s log) :
    (∀ mac e key, s.arcs.get? mac = some e → e.verifiedKey = some key →
      (∀ s', Relation.ReflTransGen Next s s' → ∀ e', s'.arcs.get? mac = some e' →
        e'.inserted = e.inserted → e'.verifiedKey = some key) ∧
      ∀ i cmd verified, cmd.claim = some (mac, verified) → Foreign s.sequenceGuard key verified →
        Untouched mac e (s.handle i cmd).1 ∨
          (Expired i e ∧ ∀ e', (s.handle i cmd).1.state.arcs.get? mac = some e' →
            e'.inserted ≠ e.inserted)) ∧
    (requireAuth = true → ∀ i cmd mac, cmd.claim = some (mac, none) →
      (∀ mac' e', (s.handle i cmd).1.state.arcs.get? mac' = some e' →
        s.arcs.get? mac' = some e') ∧
      ∀ mac' e, s.arcs.get? mac' = some e →
        (s.handle i cmd).1.state.arcs.get? mac' = some e ∨ Expired i e) := by
  refine ⟨fun mac e key hget hkey => ⟨fun s' hnext e' hget' hinserted => ?_,
    fun i cmd verified hclaim hforeign => foreign_spec run hget hkey i hclaim hforeign⟩,
    fun hrequire i cmd mac hclaim => ?_⟩
  · exact verifiedKey_of_next run.dated hget hkey hnext hget' hinserted
  · have hs : s.requireAuth = true := run.requireAuth_eq.trans hrequire
    have hs' : (s.reapStalePending i).state.requireAuth = true :=
      (forEach_removeMyArc_effects (s.stalePending i) false s).2.2.1.trans hs
    have hdenied : ∀ {i : Input} {s : Manager}, s.requireAuth = true → Denied i s mac none := by
      intro i s hs
      obtain ⟨message, hauth⟩ := authenticate_unsigned i hs mac
      exact ⟨s.sequenceGuard, message, hauth⟩
    exact (handle_refused i hclaim (hdenied hs) (hdenied hs')).entries

/-- A neighbour's arc is pinned to its key, 7. -/
def pinnedManager : Manager :=
  ((monitoring 1 true).handle (.at 0)
    (.hereIAm "eth0" theirId "02:00:00:00:00:02" "169.254.0.2" (some (7, 1)))).1.state

/-- A call in the neighbour's name that takes its leave, signed by `verified`. -/
def leave (verified : Verified) : Command :=
  .removeArc "eth0" ourId "02:00:00:00:00:01" "169.254.0.1" theirId "02:00:00:00:00:02"
    "169.254.0.2" verified

/-- Neither key 8 nor an old call of key 7 nor a call without a signature takes the arc away, and
the entry keeps key 7 for as long as it is stored. -/
theorem pinned_obeys_key_leave :
    ∃ e, pinnedManager.arcs.get? "02:00:00:00:00:02" = some e ∧ e.verifiedKey = some 7 ∧
      Untouched "02:00:00:00:00:02" e (pinnedManager.handle (.at 1) (leave (some (8, 5)))).1 ∧
      Untouched "02:00:00:00:00:02" e (pinnedManager.handle (.at 1) (leave (some (7, 1)))).1 ∧
      (pinnedManager.handle (.at 1) (leave none)).1.state.arcs.get? "02:00:00:00:00:02" = some e ∧
      ∀ s', Relation.ReflTransGen Next pinnedManager s' →
        ∀ e', s'.arcs.get? "02:00:00:00:00:02" = some e' → e'.inserted = e.inserted →
          e'.verifiedKey = some 7 := by
  have run : Run ourId 1 true pinnedManager _ :=
    (Run.spawn.command (.at 0) (.startMonitor eth0)).command (.at 0)
      (.hereIAm "eth0" theirId "02:00:00:00:00:02" "169.254.0.2" (some (7, 1)))
  obtain ⟨hpinned, hunsigned⟩ := pinned_obeys_key run
  obtain ⟨hkeeps, hforeign⟩ := hpinned "02:00:00:00:00:02" _ 7 rfl rfl
  have hfresh : ¬Expired (.at 1)
      ⟨.new theirId "02:00:00:00:00:02" "169.254.0.2" "eth0", 1, 0, 0, some 7, 1⟩ := by
    rintro ⟨-, hexpired⟩
    exact absurd hexpired (by decide)
  refine ⟨⟨.new theirId "02:00:00:00:00:02" "169.254.0.2" "eth0", 1, 0, 0, some 7, 1⟩, rfl, rfl,
    (hforeign (.at 1) (leave (some (8, 5))) _ rfl ?_).resolve_right fun h => hfresh h.1,
    (hforeign (.at 1) (leave (some (7, 1))) _ rfl ?_).resolve_right fun h => hfresh h.1,
    ((hunsigned rfl (.at 1) (leave none) _ rfl).2 "02:00:00:00:00:02" _ rfl).resolve_right hfresh,
    hkeeps⟩
  · rintro signer sequence ⟨⟩
    exact Or.inl (by decide)
  · rintro signer sequence ⟨⟩
    exact Or.inr ⟨1, rfl, UInt64.le_refl 1⟩

end Netsukuku.Neighborhood
