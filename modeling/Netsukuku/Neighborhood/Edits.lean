import Mathlib
import Netsukuku.Neighborhood.Manager

/-!
# What a command can do

Whatever a command does is a sequence of a few kinds of edit.  What an invariant needs is proved
once for each of them.

* `Edit` — the edits, each with what the handlers have checked by then.
* `Path` — a sequence of edits with what it outputs and spawns.
* `handle_path` — every command follows a path; so does the shutdown.
* `Change` — what an edit does to the arcs, the interfaces and the routes, whichever it is.
-/

namespace Netsukuku.Neighborhood

open Manager

/-- One edit made on behalf of `c`. -/
inductive Edit (c : Option Command) : Manager → List Output → List ArcTask → Manager → Prop
  | observe (s : Manager) (g : SequenceGuard VerifyingKey) : Edit c s [] [] { s with sequenceGuard := g }
  | pin {s : Manager} {mac : Mac} {entry : ArcEntry} {key : VerifyingKey}
      (hget : s.arcs.get? mac = some entry) (hkey : entry.verifiedKey = none) :
      Edit c s [] [] (s.setEntry mac { entry with verifiedKey := some key })
  | insert {s : Manager} (i : Input) {dev : Dev} {nic : NicState} {id : NodeId} {mac : Mac}
      {addr : NicAddr} (verified : Verified) (hnic : s.nics.get? dev = some nic)
      (hnew : s.arcs.get? mac = none) (hcollision : s.findCollision mac addr id dev = false)
      (haddr : s.peerNicAddrAcceptable mac addr = true)
      (hcap : s.pendingCount < s.pendingArcCap) :
      Edit c s (s.insertArc i dev nic id mac addr verified).outputs []
        (s.insertArc i dev nic id mac addr verified).state
  | broadcast (s : Manager) (dev : Dev) (args : NeighborhoodArcArgs) :
      Edit c s [.requestArc dev args] [] s
  | remove {s : Manager} {mac : Mac} {entry : ArcEntry} (isStillUsable : Bool)
      (hget : s.arcs.get? mac = some entry) :
      Edit c s (s.removalOutputs entry isStillUsable) []
        { s with
          arcs := s.arcs.erase mac
          cancelled := insert entry.monitorCancel s.cancelled }
  | negotiate {s : Manager} {mac : Mac} {entry : ArcEntry} (hget : s.arcs.get? mac = some entry)
      (hstate : entry.arc.state ≠ .established) :
      Edit c s [] (s.negotiateArc mac).tasks (s.negotiateArc mac).state
  | giveUp {s : Manager} {mac : Mac} {entry : ArcEntry} {canI canYou : Bool} {inserted : Token}
      (hc : c = some (.requestArcNegotiated mac canI canYou inserted))
      (hget : s.arcs.get? mac = some entry) (hstate : entry.arc.state ≠ .established) :
      Edit c s [] []
        (s.setEntry mac { entry with arc := { entry.arc with state := .discovered } })
  | establish {s : Manager} {mac : Mac} {entry : ArcEntry} {nic : NicState}
      (hget : s.arcs.get? mac = some entry) (hstate : entry.arc.state ≠ .established)
      (hnic : s.nics.get? entry.arc.myDev = some nic)
      (hwhy : s.exportedCount < s.maxArcs ∨
        ∃ inserted, c = some (.requestArcNegotiated mac true true inserted)) :
      Edit c s [] (s.exportArc mac).tasks (s.exportArc mac).state
  | countNoRtt {s : Manager} {mac : Mac} {entry : ArcEntry} {inserted : Token}
      (hc : c = some (.monitorResult mac .noRtt inserted))
      (hget : s.arcs.get? mac = some entry) (hcost : entry.arc.cost = none)
      (hlow : entry.consecutiveNoRtt + 1 < noRttFallbackThreshold) :
      Edit c s [] []
        (s.setEntry mac { entry with consecutiveNoRtt := entry.consecutiveNoRtt + 1 })
  | announce {s : Manager} {mac : Mac} {entry : ArcEntry} {outcome : MonitorOutcome}
      {inserted : Token} (noRtt : ℕ) (cost : UInt64)
      (hc : c = some (.monitorResult mac outcome inserted)) (hget : s.arcs.get? mac = some entry)
      (hcost : entry.arc.cost = none) :
      Edit c s (s.announce mac { entry with consecutiveNoRtt := noRtt } cost).outputs []
        (s.announce mac { entry with consecutiveNoRtt := noRtt } cost).state
  | republish {s : Manager} {mac : Mac} {entry : ArcEntry} {outcome : MonitorOutcome}
      {inserted : Token} {published : UInt64} (cost : UInt64)
      (hc : c = some (.monitorResult mac outcome inserted)) (hget : s.arcs.get? mac = some entry)
      (hcost : entry.arc.cost = some (.finite published)) :
      Edit c s [.event (.arcCostChanged { entry.arc with cost := some (.finite cost) })] []
        (s.setEntry mac { entry with arc := { entry.arc with cost := some (.finite cost) } })
  | addNic {s : Manager} {dev : Dev} (mac : Mac) (addr : NicAddr)
      (hnew : s.nics.get? dev = none) :
      Edit c s [.ip (.addAddress dev addr)] []
        { s with
          nics := s.nics.insert dev ⟨mac, addr, s.tokens⟩
          tokens := s.tokens + 1 }
  | refused (s : Manager) (dev : Dev) (addr : NicAddr) : Edit c s [.ip (.addAddress dev addr)] [] s
  | disable (s : Manager) (devs : Finset Dev) : Edit c s [] [] { s with disabling := devs }
  | cancel (s : Manager) (tokens : Finset Token) :
      Edit c s [] [] { s with cancelled := s.cancelled ∪ tokens }
  | dropNic {s : Manager} {dev : Dev} {nic : NicState} (hnic : s.nics.get? dev = some nic)
      (hbare : ∀ mac entry, s.arcs.get? mac = some entry → entry.arc.myDev ≠ dev) :
      Edit c s [.ip (.removeAddress dev nic.localAddress)] []
        { s with
          nics := s.nics.erase dev
          disabling := s.disabling.erase dev
          cancelled := insert nic.radarCancel s.cancelled }

/-- Edits one after the other. -/
inductive Path (c : Option Command) : Manager → List Output → List ArcTask → Manager → Prop
  | refl (s : Manager) : Path c s [] [] s
  | tail {s s' s'' : Manager} {outs outs' : List Output} {tasks tasks' : List ArcTask}
      (path : Path c s outs tasks s') (edit : Edit c s' outs' tasks' s'') :
      Path c s (outs ++ outs') (tasks ++ tasks') s''

/-- What has been run follows a path. -/
def Follows (c : Option Command) (s : Manager) (r : Ran) : Prop :=
  Path c s r.outputs r.tasks r.state

variable {c : Option Command} {s : Manager}

lemma Path.trans {s' s'' : Manager} {outs outs' : List Output} {tasks tasks' : List ArcTask}
    (h : Path c s outs tasks s') (h' : Path c s' outs' tasks' s'') :
    Path c s (outs ++ outs') (tasks ++ tasks') s'' := by
  induction h' with
  | refl => rwa [List.append_nil, List.append_nil]
  | tail _ edit ih =>
      rw [← List.append_assoc, ← List.append_assoc]
      exact ih.tail edit

lemma Edit.path {s' : Manager} {outs : List Output} {tasks : List ArcTask}
    (h : Edit c s outs tasks s') : Path c s outs tasks s' := (Path.refl s).tail h

lemma follows_pure : Follows c s (.pure s) := .refl s

lemma Follows.andThen {r : Ran} {f : Manager → Ran} (h : Follows c s r)
    (hf : Follows c r.state (f r.state)) : Follows c s (r.andThen f) := Path.trans h hf

/-- A property of states that each step keeps, and the path of all of them. -/
lemma follows_forEach {α : Type} {f : α → Manager → Ran}
    (hf : ∀ a s, Follows c s (f a s)) (l : List α) (s : Manager) :
    Follows c s (Ran.forEach l f s) := by
  unfold Ran.forEach
  suffices h : ∀ r : Ran, Follows c s r → Follows c s (l.foldl (fun r a => r.andThen (f a)) r) from
    h _ follows_pure
  induction l with
  | nil => exact fun r h => h
  | cons a l ih => exact fun r h => ih _ (h.andThen (hf a _))

/-! ## Each function -/

/-- What authenticating a message leaves: the guard has seen it, and an arc without a key may have
got one. -/
lemma authenticate_path (i : Input) (s : Manager) (mac : Mac) (verified : Verified) :
    Path c s [] [] (s.authenticate i mac verified).1 := by
  unfold authenticate
  cases verified with
  | none => split_ifs <;> exact .refl s
  | some signed =>
      obtain ⟨key, sequence⟩ := signed
      dsimp only
      rcases s.sequenceGuard.observe i.signerOrder key sequence with ⟨g, lastSeen | ⟨⟩⟩
      · exact (Edit.observe s g).path
      · dsimp only
        cases hget : s.arcs.get? mac with
        | none => exact (Edit.observe s g).path
        | some entry =>
            dsimp only
            cases hkey : entry.verifiedKey with
            | none =>
                exact (Edit.observe s g).path.tail
                  (Edit.pin (s := { s with sequenceGuard := g }) hget hkey)
            | some pinned =>
                dsimp only
                split_ifs <;> exact (Edit.observe s g).path

/-- A MAC without an arc: only the guard changes. -/
lemma authenticate_new (i : Input) {mac : Mac} (hnew : s.arcs.get? mac = none)
    (verified : Verified) : ∃ g, (s.authenticate i mac verified).1 = { s with sequenceGuard := g } := by
  unfold authenticate
  rw [hnew]
  cases verified with
  | none => split_ifs <;> exact ⟨s.sequenceGuard, rfl⟩
  | some signed =>
      obtain ⟨key, sequence⟩ := signed
      dsimp only
      rcases s.sequenceGuard.observe i.signerOrder key sequence with ⟨g, lastSeen | ⟨⟩⟩
      · exact ⟨g, rfl⟩
      · exact ⟨g, rfl⟩

/-- No arc comes or goes. -/
lemma authenticate_isSome (i : Input) (s : Manager) (mac : Mac) (verified : Verified) :
    ((s.authenticate i mac verified).1.arcs.get? mac).isSome = (s.arcs.get? mac).isSome := by
  cases hget : s.arcs.get? mac with
  | none =>
      obtain ⟨g, hg⟩ := authenticate_new i hget verified
      rw [hg, hget]
  | some entry =>
      unfold authenticate
      rw [hget]
      cases verified with
      | none => split_ifs <;> rw [hget]
      | some signed =>
          obtain ⟨key, sequence⟩ := signed
          dsimp only
          rcases s.sequenceGuard.observe i.signerOrder key sequence with ⟨g, lastSeen | ⟨⟩⟩
          · rw [hget]
          · dsimp only
            split
            · split_ifs <;> rw [hget]
            · rw [setEntry, KeyedMap.get?_insert_self]
              rfl

lemma removeMyArc_follows (mac : Mac) (isStillUsable : Bool) (s : Manager) :
    Follows c s (s.removeMyArc mac isStillUsable) := by
  unfold removeMyArc
  cases hget : s.arcs.get? mac with
  | none => exact follows_pure
  | some entry => exact (Edit.remove isStillUsable hget).path

lemma reapStalePending_follows (i : Input) (s : Manager) :
    Follows c s (s.reapStalePending i) :=
  follows_forEach (fun mac s => removeMyArc_follows mac false s) _ s

lemma exportArc_follows {mac : Mac} (s : Manager)
    (hwhy : s.exportedCount < s.maxArcs ∨
      ∃ inserted, c = some (.requestArcNegotiated mac true true inserted)) :
    Follows c s (s.exportArc mac) := by
  have hall : ∀ {entry : ArcEntry} {nic : NicState}, s.arcs.get? mac = some entry →
      entry.arc.state ≠ .established → s.nics.get? entry.arc.myDev = some nic →
      Follows c s (s.exportArc mac) := by
    intro entry nic hget hstate hnic
    have houts : (s.exportArc mac).outputs = [] := by
      simp [exportArc, hget, hstate, hnic]
    unfold Follows
    rw [houts]
    exact (Edit.establish hget hstate hnic hwhy).path
  cases hget : s.arcs.get? mac with
  | none =>
      have hnone : s.exportArc mac = .pure s := by simp [exportArc, hget]
      rw [hnone]
      exact follows_pure
  | some entry =>
      by_cases hstate : entry.arc.state = .established
      · have hdone : s.exportArc mac = .pure s := by simp [exportArc, hget, hstate]
        rw [hdone]
        exact follows_pure
      · cases hnic : s.nics.get? entry.arc.myDev with
        | none =>
            have hnone : s.exportArc mac = .pure s := by simp [exportArc, hget, hstate, hnic]
            rw [hnone]
            exact follows_pure
        | some nic => exact hall hget hstate hnic

/-! ## Interfaces -/

lemma startMonitor_follows (i : Input) (nic : LocalNic) (s : Manager) :
    Follows c s (s.startMonitor i nic).1 := by
  unfold startMonitor
  split_ifs with hknown
  · exact follows_pure
  · cases i.links with
    | none => exact follows_pure
    | some links =>
        dsimp only
        cases links.find? (·.name = nic.dev) with
        | none => exact follows_pure
        | some link =>
            dsimp only
            split_ifs
            · cases i.addAddress with
              | error e => exact (Edit.refused s nic.dev i.newLinklocalAddress).path
              | ok =>
                  have hnew : s.nics.get? nic.dev = none := by
                    simpa [KeyedMap.contains] using hknown
                  exact (Edit.addNic nic.mac i.newLinklocalAddress hnew).path
            · exact follows_pure

/-- Removing arcs leaves the interfaces, and no arc that was to be removed. -/
lemma forEach_removeMyArc (macs : List Mac) (isStillUsable : Bool) (s : Manager) (mac : Mac) :
    (Ran.forEach macs (fun mac => removeMyArc mac isStillUsable) s).state.nics = s.nics ∧
      (Ran.forEach macs (fun mac => removeMyArc mac isStillUsable) s).state.arcs.get? mac
        = if mac ∈ macs then none else s.arcs.get? mac := by
  have hstep : ∀ (a : Mac) (s : Manager), (s.removeMyArc a isStillUsable).state.nics = s.nics ∧
      (s.removeMyArc a isStillUsable).state.arcs.get? mac
        = if mac = a then none else s.arcs.get? mac := by
    intro a s
    unfold removeMyArc
    cases hget : s.arcs.get? a with
    | none =>
        refine ⟨rfl, ?_⟩
        show s.arcs.get? mac = _
        split_ifs with h
        · rw [h, hget]
        · rfl
    | some entry =>
        refine ⟨rfl, ?_⟩
        show (s.arcs.erase a).get? mac = _
        split_ifs with h
        · rw [h, KeyedMap.get?_erase_self]
        · rw [KeyedMap.get?_erase_of_ne _ h]
  unfold Ran.forEach
  suffices h : ∀ r : Ran,
      (macs.foldl (fun r a => r.andThen (removeMyArc a isStillUsable)) r).state.nics
        = r.state.nics ∧
      (macs.foldl (fun r a => r.andThen (removeMyArc a isStillUsable)) r).state.arcs.get? mac
        = if mac ∈ macs then none else r.state.arcs.get? mac from h (.pure s)
  induction macs with
  | nil => exact fun r => ⟨rfl, rfl⟩
  | cons a macs ih =>
      intro r
      obtain ⟨hnics, harcs⟩ := ih (r.andThen (removeMyArc a isStillUsable))
      obtain ⟨hnics', harcs'⟩ := hstep a r.state
      refine ⟨hnics.trans hnics', ?_⟩
      rw [List.foldl_cons, harcs]
      show (if mac ∈ macs then none else (r.state.removeMyArc a isStillUsable).state.arcs.get? mac)
        = _
      rw [harcs']
      by_cases hmem : mac ∈ macs
      · rw [if_pos hmem, if_pos (List.mem_cons_of_mem _ hmem)]
      · rw [if_neg hmem]
        by_cases ha : mac = a
        · rw [if_pos ha, ha, if_pos List.mem_cons_self]
        · rw [if_neg ha, if_neg (by simpa using ⟨ha, hmem⟩)]

lemma mem_arcsOn {i : Input} {dev : Dev} {mac : Mac} :
    mac ∈ s.arcsOn i dev ↔ ∃ entry, s.arcs.get? mac = some entry ∧ entry.arc.myDev = dev := by
  unfold arcsOn
  simp only [List.mem_map, List.mem_filter, (i.arcOrder.perm _).mem_iff, Prod.exists,
    KeyedMap.mem_entries_iff, decide_eq_true_eq, exists_and_right, exists_eq_right]

lemma teardownNic_follows (i : Input) (dev : Dev) (notifyPeers : Bool) (s : Manager) :
    Follows c s (s.teardownNic i dev notifyPeers) := by
  unfold teardownNic
  split_ifs with hknown
  · obtain ⟨nic, hnic⟩ := KeyedMap.contains_iff.mp hknown
    have hdisable : Path c s [] [] { s with disabling := insert dev s.disabling } :=
      (Edit.disable s _).path
    have hremoved : Follows c s (Ran.forEach (s.arcsOn i dev)
        (fun mac => removeMyArc mac notifyPeers) { s with disabling := insert dev s.disabling }) :=
      hdisable.trans (follows_forEach (fun mac s => removeMyArc_follows mac notifyPeers s) _ _)
    refine hremoved.andThen ?_
    generalize hr : Ran.forEach (s.arcsOn i dev) (fun mac => removeMyArc mac notifyPeers)
      { s with disabling := insert dev s.disabling } = r
    have hafter := forEach_removeMyArc (s.arcsOn i dev) notifyPeers
      { s with disabling := insert dev s.disabling }
    rw [hr] at hafter
    have hnic' : r.state.nics.get? dev = some nic := by
      rw [(hafter "").1]
      exact hnic
    unfold dropNic
    rw [hnic']
    refine (Edit.dropNic hnic' fun mac entry hget => ?_).path
    rw [(hafter mac).2] at hget
    split_ifs at hget with hmem
    exact fun hdev => hmem (mem_arcsOn.mpr ⟨entry, hget, hdev⟩)
  · exact follows_pure

lemma syncInterfaces_follows (i : Input) (s : Manager) : Follows c s (s.syncInterfaces i).1 := by
  unfold syncInterfaces
  cases i.links with
  | none => exact follows_pure
  | some links => exact follows_forEach (fun dev s => teardownNic_follows i dev true s) _ s

lemma shutdown_follows (i : Input) (s : Manager) : Follows c s (s.shutdown i) :=
  (follows_forEach (fun dev s => teardownNic_follows i dev false s) _ s).andThen
    (Edit.cancel _ _).path

/-! ## Inbound calls -/

/-- Everything a call about a new arc has been checked for, and the entry it is given.  The checks
came before the guard saw the message. -/
lemma insertArc_follows (i : Input) (g : SequenceGuard VerifyingKey) {dev : Dev} {nic : NicState} {id : NodeId} {mac : Mac}
    {addr : NicAddr} (verified : Verified) (hnic : s.nics.get? dev = some nic)
    (hnew : s.arcs.get? mac = none) (hcollision : s.findCollision mac addr id dev = false)
    (haddr : s.peerNicAddrAcceptable mac addr = true) (hcap : s.pendingCount < s.pendingArcCap) :
    Follows c { s with sequenceGuard := g }
      (insertArc i dev nic id mac addr verified { s with sequenceGuard := g }) :=
  (Edit.insert (s := { s with sequenceGuard := g }) i verified hnic hnew hcollision haddr
    hcap).path

/-- The interfaces are not the reaper's. -/
lemma reapStalePending_nics (i : Input) (s : Manager) :
    (s.reapStalePending i).state.nics = s.nics :=
  (forEach_removeMyArc _ false s "").1

/-- Nothing at all happens, or the reaper has its turn first. -/
def ReapsFirst (c : Option Command) (i : Input) (s : Manager) (r : Ran) : Prop :=
  r = .pure s ∨ ∃ f : Manager → Ran, r = (s.reapStalePending i).andThen f ∧
    Follows c (s.reapStalePending i).state (f (s.reapStalePending i).state)

lemma ReapsFirst.follows {i : Input} {r : Ran} (h : ReapsFirst c i s r) : Follows c s r := by
  rcases h with rfl | ⟨f, rfl, hf⟩
  · exact follows_pure
  · exact (reapStalePending_follows i s).andThen hf

lemma handleHereIAm_reaps (i : Input) (dev : Dev) (id : NodeId) (mac : Mac) (addr : NicAddr)
    (verified : Verified) (s : Manager) :
    ReapsFirst c i s (s.handleHereIAm i dev id mac addr verified) := by
  unfold handleHereIAm
  split
  · exact .inl rfl
  · cases hnic : s.nics.get? dev with
    | none => exact .inl rfl
    | some nic =>
        dsimp only
        split
        · exact .inl rfl
        · refine .inr ⟨_, rfl, ?_⟩
          rw [← reapStalePending_nics i s] at hnic
          generalize (s.reapStalePending i).state = s at hnic
          split_ifs with hcollision haddr hknown hcap
          · exact follows_pure
          · exact follows_pure
          · exact follows_pure
          · have hnew : s.arcs.get? mac = none := by
              simpa [KeyedMap.contains] using hknown
            have hauth := authenticate_path (c := c) i s mac verified
            obtain ⟨g, hg⟩ := authenticate_new i hnew verified
            rcases hresult : s.authenticate i mac verified with ⟨s', message | ⟨⟩⟩
            · rw [hresult] at hauth
              exact hauth
            · rw [hresult] at hauth hg
              dsimp only at hauth hg ⊢
              subst hg
              exact hauth.trans ((insertArc_follows i g verified hnic hnew
                (Bool.eq_false_of_not_eq_true hcollision) haddr (not_le.mp hcap)).tail
                  (Edit.broadcast _ _ _))
          · exact follows_pure

lemma negotiateArc_follows {mac : Mac} (s : Manager)
    (hstate : ∀ entry, s.arcs.get? mac = some entry → entry.arc.state ≠ .established) :
    Follows c s (s.negotiateArc mac) := by
  cases hget : s.arcs.get? mac with
  | none =>
      have hnone : s.negotiateArc mac = .pure s := by simp [negotiateArc, hget]
      rw [hnone]
      exact follows_pure
  | some entry =>
      have houts : (s.negotiateArc mac).outputs = [] := by simp [negotiateArc, hget]
      unfold Follows
      rw [houts]
      exact (Edit.negotiate hget (hstate entry hget)).path

lemma handleRequestArc_reaps (i : Input) (dev : Dev) (destId : NodeId) (destMac : Mac)
    (destAddr : NicAddr) (id : NodeId) (mac : Mac) (addr : NicAddr) (verified : Verified)
    (s : Manager) :
    ReapsFirst c i s (s.handleRequestArc i dev destId destMac destAddr id mac addr verified) := by
  unfold handleRequestArc
  split
  · exact .inl rfl
  · cases hnic : s.nics.get? dev with
    | none => exact .inl rfl
    | some nic =>
        dsimp only
        split
        · exact .inl rfl
        · split
          · exact .inl rfl
          · refine .inr ⟨_, rfl, ?_⟩
            rw [← reapStalePending_nics i s] at hnic
            generalize (s.reapStalePending i).state = s at hnic
            split_ifs with hcollision haddr
            · exact follows_pure
            · have hauth := authenticate_path (c := c) i s mac verified
              have hsome := authenticate_isSome i s mac verified
              have hguard := fun hnew : s.arcs.get? mac = none => authenticate_new i hnew verified
              rcases hresult : s.authenticate i mac verified with ⟨s', message | ⟨⟩⟩
              · rw [hresult] at hauth
                exact hauth
              · rw [hresult] at hauth hsome hguard
                dsimp only at hauth hsome hguard ⊢
                refine Path.trans hauth ?_
                split_ifs with hstate hknown hcap
                · exact follows_pure
                · refine negotiateArc_follows s' fun entry hget hest => hstate ?_
                  rw [hget]
                  simpa using hest
                · exact follows_pure
                · have hnew : s.arcs.get? mac = none := by
                    have hnone : s'.arcs.get? mac = none := by
                      simpa [KeyedMap.contains] using hknown
                    simpa [hnone] using hsome
                  obtain ⟨g, rfl⟩ := hguard hnew
                  refine (insertArc_follows i g verified hnic hnew
                    (Bool.eq_false_of_not_eq_true hcollision) haddr (not_le.mp hcap)).andThen
                      (negotiateArc_follows _ fun entry hget hest => ?_)
                  have hentry : (insertArc i dev nic id mac addr verified
                      { s with sequenceGuard := g }).state.arcs.get? mac
                        = some ⟨.new id mac addr dev, s.tokens, i.now, 0, verified.map Prod.fst,
                          s.tokens⟩ := KeyedMap.get?_insert_self _ _ _
                  rw [hentry] at hget
                  obtain rfl := Option.some.inj hget
                  cases hest
            · exact follows_pure

lemma handleRequestArcNegotiated_follows {mac : Mac} {canI canYou : Bool} {inserted : Token}
    (s : Manager) :
    Follows (some (.requestArcNegotiated mac canI canYou inserted)) s
      (s.handleRequestArcNegotiated mac canI canYou) := by
  unfold handleRequestArcNegotiated
  split
  · next hboth =>
      rw [Bool.and_eq_true] at hboth
      obtain ⟨rfl, rfl⟩ := hboth
      exact exportArc_follows s (.inr ⟨inserted, rfl⟩)
  · cases hget : s.arcs.get? mac with
    | none => exact follows_pure
    | some entry =>
        dsimp only
        split
        · next hstate => exact (Edit.giveUp rfl hget hstate).path
        · exact follows_pure

lemma handleCanYouExport_follows (i : Input) (id : NodeId) (mac : Mac) (addr : NicAddr)
    (peerCanExport : Bool) (verified : Verified) (s : Manager) :
    Follows c s (s.handleCanYouExport i id mac addr peerCanExport verified).1 := by
  unfold handleCanYouExport
  cases s.arcs.get? mac with
  | none => exact follows_pure
  | some entry =>
      dsimp only
      split
      · exact follows_pure
      · have hauth := authenticate_path (c := c) i s mac verified
        rcases hresult : s.authenticate i mac verified with ⟨s', message | ⟨⟩⟩
        · rw [hresult] at hauth
          exact hauth
        · rw [hresult] at hauth
          dsimp only
          split
          · exact hauth
          · dsimp only
            split
            · next hwhy =>
                rw [Bool.and_eq_true, decide_eq_true_eq] at hwhy
                exact Path.trans hauth (exportArc_follows s' (.inl hwhy.1))
            · exact hauth

lemma handleNop_follows (i : Input) (id : NodeId) (mac : Mac) (addr : NicAddr)
    (verified : Verified) (s : Manager) : Follows c s (s.handleNop i id mac addr verified).1 := by
  unfold handleNop
  cases s.arcs.get? mac with
  | none => exact follows_pure
  | some entry =>
      dsimp only
      split
      · exact follows_pure
      · split
        · exact follows_pure
        · have hauth := authenticate_path (c := c) i s mac verified
          rcases hresult : s.authenticate i mac verified with ⟨s', message | ⟨⟩⟩ <;>
            rw [hresult] at hauth <;> exact hauth

lemma handleRemoveArc_follows (i : Input) (dev : Dev) (destId : NodeId) (destMac : Mac) (destAddr : NicAddr)
    (id : NodeId) (mac : Mac) (addr : NicAddr) (verified : Verified) (s : Manager) :
    Follows c s (s.handleRemoveArc i dev destId destMac destAddr id mac addr verified) := by
  unfold handleRemoveArc
  split
  · exact follows_pure
  · cases s.nics.get? dev with
    | none => exact follows_pure
    | some nic =>
        dsimp only
        split_ifs
        · exact follows_pure
        · exact follows_pure
        · have hauth := authenticate_path (c := c) i s mac verified
          rcases hresult : s.authenticate i mac verified with ⟨s', message | ⟨⟩⟩
          · rw [hresult] at hauth
            exact hauth
          · rw [hresult] at hauth
            exact Path.trans hauth (removeMyArc_follows mac false s')
        · exact follows_pure

/-! ## Results of the monitors -/

lemma republish_follows {mac : Mac} {entry : ArcEntry} {outcome : MonitorOutcome}
    {inserted : Token} {cost : UInt64} (hget : s.arcs.get? mac = some entry) :
    Follows (some (.monitorResult mac outcome inserted)) s (s.republish mac entry cost) := by
  unfold republish
  split
  · next published hcost =>
      split
      · exact (Edit.republish cost rfl hget hcost).path
      · exact follows_pure
  · exact follows_pure

lemma handleMonitorResult_follows {mac : Mac} {outcome : MonitorOutcome} {inserted : Token}
    (s : Manager) :
    Follows (some (.monitorResult mac outcome inserted)) s (s.handleMonitorResult mac outcome) := by
  cases outcome with
  | nopFailed => exact removeMyArc_follows mac false s
  | noRtt =>
      unfold handleMonitorResult
      dsimp only
      cases hget : s.arcs.get? mac with
      | none => exact follows_pure
      | some entry =>
          dsimp only
          split
          · exact follows_pure
          · next hcost =>
              have hnone : entry.arc.cost = none := by simpa using hcost
              split
              · exact (Edit.announce (entry.consecutiveNoRtt + 1) noRttFallbackCostUs rfl hget
                  hnone).path
              · next hlow => exact (Edit.countNoRtt rfl hget hnone (not_le.mp hlow)).path
  | firstSample rtt =>
      unfold handleMonitorResult
      dsimp only
      cases hget : s.arcs.get? mac with
      | none => exact follows_pure
      | some entry =>
          dsimp only
          split
          · exact republish_follows hget
          · next hcost =>
              have hnone : entry.arc.cost = none := by simpa using hcost
              exact (Edit.announce entry.consecutiveNoRtt rtt rfl hget hnone).path
  | sample smoothed =>
      unfold handleMonitorResult
      dsimp only
      cases hget : s.arcs.get? mac with
      | none => exact follows_pure
      | some entry => exact republish_follows hget

/-- **Every command follows a path.** -/
theorem handle_path (i : Input) (s : Manager) (cmd : Command) :
    Follows (some cmd) s (s.handle i cmd).1 := by
  cases cmd with
  | startMonitor nic => exact startMonitor_follows i nic s
  | stopMonitor dev => exact teardownNic_follows i dev true s
  | syncInterfaces => exact syncInterfaces_follows i s
  | hereIAm dev id mac addr verified => exact (handleHereIAm_reaps i dev id mac addr verified s).follows
  | requestArc dev destId destMac destAddr id mac addr verified =>
      exact (handleRequestArc_reaps i dev destId destMac destAddr id mac addr verified s).follows
  | canYouExport id mac addr peerCanExport verified =>
      exact handleCanYouExport_follows i id mac addr peerCanExport verified s
  | removeArc dev destId destMac destAddr id mac addr verified =>
      exact handleRemoveArc_follows i dev destId destMac destAddr id mac addr verified s
  | nop id mac addr verified => exact handleNop_follows i id mac addr verified s
  | monitorResult key outcome inserted => exact handleMonitorResult_follows s
  | requestArcNegotiated mac canI canYou inserted => exact handleRequestArcNegotiated_follows s

/-! ## What becomes of an entry -/

/-- What an entry may turn into while it is stored. -/
structure ArcEntry.Becomes (e e' : ArcEntry) : Prop where
  neighbourId : e'.arc.neighbourId = e.arc.neighbourId
  neighbourMac : e'.arc.neighbourMac = e.arc.neighbourMac
  neighbourNicAddr : e'.arc.neighbourNicAddr = e.arc.neighbourNicAddr
  myDev : e'.arc.myDev = e.arc.myDev
  inserted : e'.inserted = e.inserted
  createdAt : e'.createdAt = e.createdAt
  verifiedKey : ∀ key, e.verifiedKey = some key → e'.verifiedKey = some key
  established : e.arc.state = .established → e'.arc.state = .established

lemma ArcEntry.Becomes.refl (e : ArcEntry) : e.Becomes e :=
  ⟨rfl, rfl, rfl, rfl, rfl, rfl, fun _ h => h, fun h => h⟩

lemma ArcEntry.Becomes.trans {e e' e'' : ArcEntry} (h : e.Becomes e') (h' : e'.Becomes e'') :
    e.Becomes e'' where
  neighbourId := h'.neighbourId.trans h.neighbourId
  neighbourMac := h'.neighbourMac.trans h.neighbourMac
  neighbourNicAddr := h'.neighbourNicAddr.trans h.neighbourNicAddr
  myDev := h'.myDev.trans h.myDev
  inserted := h'.inserted.trans h.inserted
  createdAt := h'.createdAt.trans h.createdAt
  verifiedKey key hkey := h'.verifiedKey key (h.verifiedKey key hkey)
  established hstate := h'.established (h.established hstate)

/-- No route to a neighbour is added or removed. -/
def NoRoutes (outs : List Output) : Prop :=
  ∀ dev myAddr addr, .ip (.addNeighbor dev myAddr addr) ∉ outs ∧
    .ip (.removeNeighbor dev myAddr addr) ∉ outs

lemma noRoutes_nil : NoRoutes [] := by simp [NoRoutes]

/-- What an edit does to the arcs, the interfaces and the routes. -/
inductive Change (s : Manager) : List Output → Manager → Prop
  | idle {outs : List Output} {s' : Manager} (houts : NoRoutes outs) (harcs : s'.arcs = s.arcs)
      (hnics : s'.nics = s.nics) (htokens : s'.tokens = s.tokens) : Change s outs s'
  | update {outs : List Output} {s' : Manager} {mac : Mac} {e e' : ArcEntry}
      (houts : NoRoutes outs) (hget : s.arcs.get? mac = some e)
      (harcs : s'.arcs = s.arcs.insert mac e') (hbecomes : e.Becomes e') (hnics : s'.nics = s.nics)
      (htokens : s.tokens ≤ s'.tokens) : Change s outs s'
  | insert {s' : Manager} {outs : List Output} (i : Input) {dev : Dev} {nic : NicState}
      {id : NodeId} {mac : Mac} {addr : NicAddr} (verified : Verified)
      (hnic : s.nics.get? dev = some nic) (hnew : s.arcs.get? mac = none)
      (hcollision : s.findCollision mac addr id dev = false)
      (haddr : s.peerNicAddrAcceptable mac addr = true)
      (hrun : s.insertArc i dev nic id mac addr verified = ⟨s', outs, []⟩) : Change s outs s'
  | remove {s' : Manager} {mac : Mac} {e : ArcEntry} (isStillUsable : Bool)
      (hget : s.arcs.get? mac = some e) (harcs : s'.arcs = s.arcs.erase mac)
      (hnics : s'.nics = s.nics) (htokens : s'.tokens = s.tokens) :
      Change s (s.removalOutputs e isStillUsable) s'
  | addNic {outs : List Output} {s' : Manager} {dev : Dev} (nic : NicState)
      (houts : NoRoutes outs) (harcs : s'.arcs = s.arcs) (hnew : s.nics.get? dev = none)
      (hnics : s'.nics = s.nics.insert dev nic) (htokens : s.tokens ≤ s'.tokens) :
      Change s outs s'
  | dropNic {outs : List Output} {s' : Manager} {dev : Dev} (houts : NoRoutes outs)
      (harcs : s'.arcs = s.arcs) (hnics : s'.nics = s.nics.erase dev)
      (hbare : ∀ mac e, s.arcs.get? mac = some e → e.arc.myDev ≠ dev)
      (htokens : s'.tokens = s.tokens) : Change s outs s'

variable {s' : Manager} {outs : List Output} {tasks : List ArcTask}

/-- The state `negotiateArc` leaves. -/
lemma negotiateArc_state {mac : Mac} {entry : ArcEntry} (hget : s.arcs.get? mac = some entry) :
    (s.negotiateArc mac).state
      = s.setEntry mac { entry with arc := { entry.arc with state := .requested } } := by
  simp [negotiateArc, hget]

/-- The state `exportArc` leaves. -/
lemma exportArc_state {mac : Mac} {entry : ArcEntry} {nic : NicState}
    (hget : s.arcs.get? mac = some entry) (hstate : entry.arc.state ≠ .established)
    (hnic : s.nics.get? entry.arc.myDev = some nic) :
    (s.exportArc mac).state
      = { s.setEntry mac
            { entry with
              arc := { entry.arc with state := .established }
              monitorCancel := s.tokens } with
          tokens := s.tokens + 1
          cancelled := insert entry.monitorCancel s.cancelled } := by
  simp [exportArc, hget, hstate, hnic]

/-- **Every edit is one of these changes.** -/
theorem Edit.change (h : Edit c s outs tasks s') : Change s outs s' := by
  cases h with
  | observe => exact .idle noRoutes_nil rfl rfl rfl
  | pin hget hkey =>
      refine .update noRoutes_nil hget rfl ⟨rfl, rfl, rfl, rfl, rfl, rfl, fun key h => ?_,
        fun h => h⟩ rfl le_rfl
      rw [hkey] at h
      cases h
  | insert i verified hnic hnew hcollision haddr _ =>
      exact .insert i verified hnic hnew hcollision haddr rfl
  | broadcast => exact .idle (by simp [NoRoutes]) rfl rfl rfl
  | remove isStillUsable hget => exact .remove isStillUsable hget rfl rfl rfl
  | negotiate hget hstate =>
      rw [negotiateArc_state hget]
      exact .update noRoutes_nil hget rfl
        ⟨rfl, rfl, rfl, rfl, rfl, rfl, fun _ h => h, fun h => absurd h hstate⟩ rfl le_rfl
  | giveUp _ hget hstate =>
      exact .update noRoutes_nil hget rfl
        ⟨rfl, rfl, rfl, rfl, rfl, rfl, fun _ h => h, fun h => absurd h hstate⟩ rfl le_rfl
  | establish hget hstate hnic _ =>
      rw [exportArc_state hget hstate hnic]
      exact .update noRoutes_nil hget rfl
        ⟨rfl, rfl, rfl, rfl, rfl, rfl, fun _ h => h, fun _ => rfl⟩ rfl (Nat.le_succ _)
  | countNoRtt _ hget _ _ =>
      exact .update noRoutes_nil hget rfl
        ⟨rfl, rfl, rfl, rfl, rfl, rfl, fun _ h => h, fun h => h⟩ rfl le_rfl
  | announce noRtt cost _ hget _ =>
      exact .update (by simp [NoRoutes, Manager.announce]) hget rfl
        ⟨rfl, rfl, rfl, rfl, rfl, rfl, fun _ h => h, fun h => h⟩ rfl le_rfl
  | republish cost _ hget _ =>
      exact .update (by simp [NoRoutes]) hget rfl
        ⟨rfl, rfl, rfl, rfl, rfl, rfl, fun _ h => h, fun h => h⟩ rfl le_rfl
  | addNic mac addr hnew => exact .addNic _ (by simp [NoRoutes]) rfl hnew rfl (Nat.le_succ _)
  | refused => exact .idle (by simp [NoRoutes]) rfl rfl rfl
  | disable => exact .idle noRoutes_nil rfl rfl rfl
  | cancel => exact .idle noRoutes_nil rfl rfl rfl
  | dropNic _ hbare => exact .dropNic (by simp [NoRoutes]) rfl rfl hbare rfl

/-- Every entry was inserted with a token made before now. -/
def Dated (s : Manager) : Prop :=
  ∀ mac e, s.arcs.get? mac = some e → e.inserted < s.tokens

/-- What a stored entry was before, if it is not newer than that. -/
lemma Change.before (h : Change s outs s') {mac : Mac} {e' : ArcEntry}
    (hget' : s'.arcs.get? mac = some e') :
    (s.tokens ≤ e'.inserted ∧ s.arcs.get? mac = none ∧ e'.inserted < s'.tokens) ∨
      ∃ e, s.arcs.get? mac = some e ∧ e.Becomes e' := by
  cases h with
  | idle _ harcs _ _ => exact .inr ⟨e', harcs ▸ hget', .refl e'⟩
  | @update _ _ mac' e e'' _ hget harcs hbecomes _ _ =>
      rw [harcs, KeyedMap.get?_insert_eq_update] at hget'
      by_cases hmac : mac = mac'
      · subst hmac
        rw [Function.update_self] at hget'
        obtain rfl := Option.some.inj hget'
        exact .inr ⟨e, hget, hbecomes⟩
      · rw [Function.update_of_ne hmac] at hget'
        exact .inr ⟨e', hget', .refl e'⟩
  | @insert _ _ i dev nic id mac' addr verified hnic hnew _ _ hrun =>
      obtain ⟨rfl, -, -⟩ := Ran.mk.inj hrun
      by_cases hmac : mac = mac'
      · subst hmac
        obtain rfl := Option.some.inj
          ((KeyedMap.get?_insert_self _ _ _).symm.trans hget')
        exact .inl ⟨le_rfl, hnew, Nat.lt_succ_self _⟩
      · exact .inr ⟨e', (KeyedMap.get?_insert_of_ne _ _ hmac).symm.trans hget', .refl e'⟩
  | @remove _ mac' e _ hget harcs _ _ =>
      rw [harcs, KeyedMap.get?_erase_eq_update] at hget'
      by_cases hmac : mac = mac'
      · subst hmac
        rw [Function.update_self] at hget'
        cases hget'
      · rw [Function.update_of_ne hmac] at hget'
        exact .inr ⟨e', hget', .refl e'⟩
  | addNic _ _ harcs _ _ _ => exact .inr ⟨e', harcs ▸ hget', .refl e'⟩
  | dropNic _ harcs _ _ _ => exact .inr ⟨e', harcs ▸ hget', .refl e'⟩

lemma Change.tokens_le (h : Change s outs s') : s.tokens ≤ s'.tokens := by
  cases h with
  | idle _ _ _ htokens => exact htokens.ge
  | update _ _ _ _ _ htokens => exact htokens
  | insert _ _ _ _ _ _ hrun =>
      obtain ⟨rfl, -, -⟩ := Ran.mk.inj hrun
      exact Nat.le_succ _
  | remove _ _ _ _ htokens => exact htokens.ge
  | addNic _ _ _ _ _ htokens => exact htokens
  | dropNic _ _ _ _ htokens => exact htokens.ge

lemma Change.dated (h : Change s outs s') (hs : Dated s) : Dated s' := by
  intro mac e' hget'
  rcases h.before hget' with ⟨_, _, hlt⟩ | ⟨e, hget, hbecomes⟩
  · exact hlt
  · rw [hbecomes.inserted]
    exact (hs mac e hget).trans_le h.tokens_le

lemma Path.dated (h : Path c s outs tasks s') (hs : Dated s) : Dated s' := by
  induction h with
  | refl => exact hs
  | tail _ edit ih => exact edit.change.dated ih

lemma Path.tokens_le (h : Path c s outs tasks s') : s.tokens ≤ s'.tokens := by
  induction h with
  | refl => exact le_rfl
  | tail _ edit ih => exact ih.trans edit.change.tokens_le

/-- **An entry at the end of a path was there all along, or is new.** -/
theorem Path.before (h : Path c s outs tasks s') {mac : Mac} {e' : ArcEntry}
    (hget' : s'.arcs.get? mac = some e') :
    s.tokens ≤ e'.inserted ∨ ∃ e, s.arcs.get? mac = some e ∧ e.Becomes e' := by
  induction h generalizing e' with
  | refl => exact .inr ⟨e', hget', .refl e'⟩
  | tail path edit ih =>
      rcases edit.change.before hget' with ⟨hle, _, _⟩ | ⟨e, hget, hbecomes⟩
      · exact .inl (path.tokens_le.trans hle)
      · rcases ih hget with hle | ⟨e₀, hget₀, hbecomes₀⟩
        · exact .inl (hbecomes.inserted ▸ hle)
        · exact .inr ⟨e₀, hget₀, hbecomes₀.trans hbecomes⟩

end Netsukuku.Neighborhood
