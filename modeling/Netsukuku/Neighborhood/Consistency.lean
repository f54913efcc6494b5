import Mathlib
import Netsukuku.Neighborhood.Edits

/-!
# The arcs and the on-link routes

* `neighbours` — the routes to neighbours a sequence of outputs has added and not removed, if every
  call of the route manager succeeds.
* `Consistent` — what holds of the arcs, the interfaces and these routes.
* `consistent_of_run` — it holds in every state reached, and whatever a command or the shutdown
  tears down is not the route of an arc that stays.
-/

namespace Netsukuku.Neighborhood

open Manager

/-! ## Runs -/

/-- The states reached from a fresh manager by any commands, with everything that was output. -/
inductive Run (myId : NodeId) (maxArcs : ℕ) (requireAuth : Bool) : Manager → List Output → Prop
  | spawn : Run myId maxArcs requireAuth (Manager.spawn myId maxArcs requireAuth) []
  | command {s : Manager} {log : List Output} (run : Run myId maxArcs requireAuth s log) (i : Input)
      (cmd : Command) :
      Run myId maxArcs requireAuth (s.handle i cmd).1.state (log ++ (s.handle i cmd).1.outputs)
  | shutdown {s : Manager} {log : List Output} (run : Run myId maxArcs requireAuth s log)
      (i : Input) : Run myId maxArcs requireAuth (s.shutdown i).state (log ++ (s.shutdown i).outputs)

/-! ## Routes -/

/-- A route to a neighbour: our interface, its address and the neighbour's. -/
abbrev Route : Type := Dev × NicAddr × NicAddr

/-- What an output does to the routes. -/
def neighbourStep (routes : Multiset Route) : Output → Multiset Route
  | .ip (.addNeighbor dev myAddr addr) => (dev, myAddr, addr) ::ₘ routes
  | .ip (.removeNeighbor dev myAddr addr) => routes.erase (dev, myAddr, addr)
  | _ => routes

/-- The routes added and not yet removed. -/
def neighbours (log : List Output) : Multiset Route := log.foldl neighbourStep 0

/-- The route of an arc. -/
def Manager.route (s : Manager) (e : ArcEntry) : Option Route :=
  (s.nics.get? e.arc.myDev).map fun nic =>
    (e.arc.myDev, nic.localAddress, e.arc.neighbourNicAddr)

/-- The routes of all the arcs. -/
def Manager.routes (s : Manager) : Multiset Route :=
  (s.arcs.entries : Multiset (Mac × ArcEntry)).filterMap fun e => s.route e.2

lemma foldl_noRoutes {outs : List Output} (h : NoRoutes outs) (routes : Multiset Route) :
    outs.foldl neighbourStep routes = routes := by
  induction outs generalizing routes with
  | nil => rfl
  | cons out outs ih =>
      have htail : NoRoutes outs := fun dev myAddr addr =>
        ⟨fun hmem => (h dev myAddr addr).1 (List.mem_cons_of_mem _ hmem),
          fun hmem => (h dev myAddr addr).2 (List.mem_cons_of_mem _ hmem)⟩
      have hhead : neighbourStep routes out = routes := by
        cases out with
        | ip op =>
            cases op with
            | addNeighbor dev myAddr addr => exact absurd List.mem_cons_self (h dev myAddr addr).1
            | removeNeighbor dev myAddr addr =>
                exact absurd List.mem_cons_self (h dev myAddr addr).2
            | _ => rfl
        | _ => rfl
      rw [List.foldl_cons, hhead, ih htail]

/-! ## The invariant -/

/-- The arcs, the interfaces and the routes fit together. -/
structure Consistent (s : Manager) (routes : Multiset Route) : Prop where
  keyed : ∀ mac e, s.arcs.get? mac = some e → e.arc.neighbourMac = mac
  addresses : ∀ mac mac' e e', s.arcs.get? mac = some e → s.arcs.get? mac' = some e' →
    e.arc.neighbourNicAddr = e'.arc.neighbourNicAddr → mac = mac'
  identities : ∀ mac mac' e e', s.arcs.get? mac = some e → s.arcs.get? mac' = some e' →
    e.arc.neighbourId = e'.arc.neighbourId → e.arc.myDev = e'.arc.myDev → mac = mac'
  monitored : ∀ mac e, s.arcs.get? mac = some e → ∃ nic, s.nics.get? e.arc.myDev = some nic
  routed : routes = s.routes

variable {s s' : Manager} {routes : Multiset Route} {outs : List Output}

/-- A smaller set of arcs fits as well, if the routes do. -/
lemma Consistent.of_arcs (h : Consistent s routes) {routes' : Multiset Route}
    (harcs : ∀ mac e', s'.arcs.get? mac = some e' →
      ∃ e, s.arcs.get? mac = some e ∧ e.Becomes e')
    (hmonitored : ∀ mac e', s'.arcs.get? mac = some e' →
      ∃ nic, s'.nics.get? e'.arc.myDev = some nic)
    (hrouted : routes' = s'.routes) : Consistent s' routes' where
  keyed mac e' hget' := by
    obtain ⟨e, hget, hbecomes⟩ := harcs mac e' hget'
    rw [hbecomes.neighbourMac]
    exact h.keyed mac e hget
  addresses mac₁ mac₂ e₁' e₂' hget₁' hget₂' heq := by
    obtain ⟨e₁, hget₁, hbecomes₁⟩ := harcs mac₁ e₁' hget₁'
    obtain ⟨e₂, hget₂, hbecomes₂⟩ := harcs mac₂ e₂' hget₂'
    rw [hbecomes₁.neighbourNicAddr, hbecomes₂.neighbourNicAddr] at heq
    exact h.addresses mac₁ mac₂ e₁ e₂ hget₁ hget₂ heq
  identities mac₁ mac₂ e₁' e₂' hget₁' hget₂' hid hdev := by
    obtain ⟨e₁, hget₁, hbecomes₁⟩ := harcs mac₁ e₁' hget₁'
    obtain ⟨e₂, hget₂, hbecomes₂⟩ := harcs mac₂ e₂' hget₂'
    rw [hbecomes₁.neighbourId, hbecomes₂.neighbourId] at hid
    rw [hbecomes₁.myDev, hbecomes₂.myDev] at hdev
    exact h.identities mac₁ mac₂ e₁ e₂ hget₁ hget₂ hid hdev
  monitored := hmonitored
  routed := hrouted

/-- The other arcs. -/
lemma routes_erase {mac : Mac} {e : ArcEntry} (hget : s.arcs.get? mac = some e) {route : Route}
    (hroute : s.route e = some route) :
    s.routes = route ::ₘ Multiset.filterMap (fun e => s.route e.2)
      ((s.arcs.erase mac).entries : Multiset (Mac × ArcEntry)) := by
  unfold Manager.routes
  rw [Multiset.coe_eq_coe.mpr (KeyedMap.perm_erase hget), ← Multiset.cons_coe,
    Multiset.filterMap_cons_some (fun e : Mac × ArcEntry => s.route e.2) (mac, e) _ hroute]

/-- Rewritten interfaces that leave those of the arcs. -/
lemma routes_congr (harcs : s'.arcs = s.arcs)
    (hnics : ∀ mac e, s.arcs.get? mac = some e →
      s'.nics.get? e.arc.myDev = s.nics.get? e.arc.myDev) : s'.routes = s.routes := by
  unfold Manager.routes
  rw [harcs, Multiset.filterMap_coe, Multiset.filterMap_coe]
  refine congrArg _ (List.filterMap_congr fun e he => ?_)
  unfold Manager.route
  rw [hnics e.1 e.2 (KeyedMap.mem_entries_iff.mp he)]

lemma removalOutputs_foldl {e : ArcEntry} {nic : NicState} (isStillUsable : Bool)
    (hnic : s.nics.get? e.arc.myDev = some nic) (routes : Multiset Route) :
    (s.removalOutputs e isStillUsable).foldl neighbourStep routes
      = routes.erase (e.arc.myDev, nic.localAddress, e.arc.neighbourNicAddr) := by
  unfold Manager.removalOutputs
  dsimp only
  rw [hnic, List.cons_append, List.foldl_cons]
  refine foldl_noRoutes (fun dev myAddr addr => ?_) _
  cases isStillUsable <;> cases e.arc.cost <;> simp

/-- What the two checks of a new arc say of the arcs there are. -/
lemma checks_spec {mac mac' : Mac} {addr : NicAddr} {id : NodeId} {dev : Dev} {e : ArcEntry}
    (hcollision : s.findCollision mac addr id dev = false)
    (haddr : s.peerNicAddrAcceptable mac addr = true) (hget : s.arcs.get? mac' = some e)
    (hmac : e.arc.neighbourMac ≠ mac) :
    e.arc.neighbourNicAddr ≠ addr ∧ ¬(e.arc.neighbourId = id ∧ e.arc.myDev = dev) := by
  have hmem := KeyedMap.mem_values_of_get? hget
  constructor
  · intro heq
    unfold Manager.peerNicAddrAcceptable at haddr
    simp only [Bool.and_eq_true, Bool.not_eq_true', List.any_eq_false] at haddr
    exact haddr.2 e hmem (by simp [heq, hmac])
  · rintro ⟨hid, hdev⟩
    unfold Manager.findCollision at hcollision
    rw [List.any_eq_false] at hcollision
    exact hcollision e hmem (by simp [hid, hdev, hmac])

/-- A new arc that has passed the checks. -/
lemma Consistent.insertArc (h : Consistent s routes) (i : Input) {dev : Dev} {nic : NicState}
    {id : NodeId} {mac : Mac} {addr : NicAddr} (verified : Verified)
    (hnic : s.nics.get? dev = some nic) (hnew : s.arcs.get? mac = none)
    (hcollision : s.findCollision mac addr id dev = false)
    (haddr : s.peerNicAddrAcceptable mac addr = true) :
    Consistent (s.insertArc i dev nic id mac addr verified).state
      ((s.insertArc i dev nic id mac addr verified).outputs.foldl neighbourStep routes) := by
  -- the entries: the new one, and the old ones under other MACs
  have hcases : ∀ mac' e', (s.insertArc i dev nic id mac addr verified).state.arcs.get? mac'
      = some e' → (mac' = mac ∧ e'.arc = .new id mac addr dev) ∨
        (s.arcs.get? mac' = some e' ∧ e'.arc.neighbourMac ≠ mac) := by
    intro mac' e' hget'
    by_cases hmac : mac' = mac
    · subst hmac
      obtain rfl := Option.some.inj ((KeyedMap.get?_insert_self _ _ _).symm.trans hget')
      exact .inl ⟨rfl, rfl⟩
    · have hget := (KeyedMap.get?_insert_of_ne _ _ hmac).symm.trans hget'
      exact .inr ⟨hget, fun heq => hmac ((h.keyed mac' e' hget).symm.trans heq)⟩
  refine ⟨fun mac' e' hget' => ?_, fun mac₁ mac₂ e₁ e₂ hget₁ hget₂ heq => ?_,
    fun mac₁ mac₂ e₁ e₂ hget₁ hget₂ hid hdev => ?_, fun mac' e' hget' => ?_, ?_⟩
  · rcases hcases mac' e' hget' with ⟨rfl, harc⟩ | ⟨hget, _⟩
    · rw [harc]
      rfl
    · exact h.keyed mac' e' hget
  · rcases hcases mac₁ e₁ hget₁ with ⟨rfl, harc₁⟩ | ⟨hold₁, hmac₁⟩ <;>
      rcases hcases mac₂ e₂ hget₂ with ⟨rfl, harc₂⟩ | ⟨hold₂, hmac₂⟩
    · rfl
    · rw [harc₁] at heq
      exact absurd heq.symm (checks_spec hcollision haddr hold₂ hmac₂).1
    · rw [harc₂] at heq
      exact absurd heq (checks_spec hcollision haddr hold₁ hmac₁).1
    · exact h.addresses mac₁ mac₂ e₁ e₂ hold₁ hold₂ heq
  · rcases hcases mac₁ e₁ hget₁ with ⟨rfl, harc₁⟩ | ⟨hold₁, hmac₁⟩ <;>
      rcases hcases mac₂ e₂ hget₂ with ⟨rfl, harc₂⟩ | ⟨hold₂, hmac₂⟩
    · rfl
    · rw [harc₁] at hid hdev
      exact absurd ⟨hid.symm, hdev.symm⟩ (checks_spec hcollision haddr hold₂ hmac₂).2
    · rw [harc₂] at hid hdev
      exact absurd ⟨hid, hdev⟩ (checks_spec hcollision haddr hold₁ hmac₁).2
    · exact h.identities mac₁ mac₂ e₁ e₂ hold₁ hold₂ hid hdev
  · rcases hcases mac' e' hget' with ⟨rfl, harc⟩ | ⟨hget, _⟩
    · rw [harc]
      exact ⟨nic, hnic⟩
    · exact h.monitored mac' e' hget
  · have hroute : s.route ⟨.new id mac addr dev, s.tokens, i.now, 0, verified.map Prod.fst,
        s.tokens⟩ = some (dev, nic.localAddress, addr) := by
      show (s.nics.get? dev).map _ = _
      rw [hnic]
      rfl
    show (dev, nic.localAddress, addr) ::ₘ routes = Multiset.filterMap
      (fun e : Mac × ArcEntry => s.route e.2) ((s.arcs.insert mac _).entries : Multiset _)
    rw [Multiset.coe_eq_coe.mpr (KeyedMap.perm_insert _ _ _),
      KeyedMap.erase_entries_of_get?_none hnew, ← Multiset.cons_coe,
      Multiset.filterMap_cons_some (fun e : Mac × ArcEntry => s.route e.2) _ _ hroute, h.routed]
    rfl

/-- **One change keeps the invariant.** -/
lemma Consistent.change (h : Consistent s routes) (hchange : Change s outs s') :
    Consistent s' (outs.foldl neighbourStep routes) := by
  cases hchange with
  | idle houts harcs hnics _ =>
      rw [foldl_noRoutes houts]
      refine h.of_arcs (fun mac e' hget' => ⟨e', harcs ▸ hget', .refl e'⟩)
        (fun mac e' hget' => ?_) ?_
      · rw [hnics]
        exact h.monitored mac e' (harcs ▸ hget')
      · rw [h.routed]
        exact (routes_congr harcs fun _ _ _ => by rw [hnics]).symm
  | @update _ _ mac e e' houts hget harcs hbecomes hnics htokens =>
      rw [foldl_noRoutes houts]
      have hbefore : ∀ mac₁ e₁', s'.arcs.get? mac₁ = some e₁' →
          ∃ e₁, s.arcs.get? mac₁ = some e₁ ∧ e₁.Becomes e₁' := by
        intro mac₁ e₁' hget₁'
        rw [harcs, KeyedMap.get?_insert_eq_update] at hget₁'
        by_cases hmac : mac₁ = mac
        · subst hmac
          rw [Function.update_self] at hget₁'
          obtain rfl := Option.some.inj hget₁'
          exact ⟨e, hget, hbecomes⟩
        · rw [Function.update_of_ne hmac] at hget₁'
          exact ⟨e₁', hget₁', .refl e₁'⟩
      refine h.of_arcs hbefore (fun mac₁ e₁' hget₁' => ?_) ?_
      · obtain ⟨e₁, hget₁, hbecomes₁⟩ := hbefore mac₁ e₁' hget₁'
        rw [hnics, hbecomes₁.myDev]
        exact h.monitored mac₁ e₁ hget₁
      · obtain ⟨nic, hnic⟩ := h.monitored mac e hget
        have hroute : ∀ e, s'.route e = s.route e := by
          intro e
          unfold Manager.route
          rw [hnics]
        have hsame : s.route e' = some (e.arc.myDev, nic.localAddress, e.arc.neighbourNicAddr) := by
          unfold Manager.route
          rw [hbecomes.myDev, hnic, hbecomes.neighbourNicAddr]
          rfl
        have hgone : s.route e = some (e.arc.myDev, nic.localAddress, e.arc.neighbourNicAddr) := by
          rw [Manager.route, hnic]
          rfl
        rw [h.routed, routes_erase hget hgone]
        unfold Manager.routes
        simp only [hroute]
        rw [harcs, Multiset.coe_eq_coe.mpr (KeyedMap.perm_insert _ _ _), ← Multiset.cons_coe,
          Multiset.filterMap_cons_some (fun e : Mac × ArcEntry => s.route e.2) (mac, e') _ hsame]
  | @insert _ _ i dev nic id mac addr verified hnic hnew hcollision haddr hrun =>
      obtain ⟨rfl, rfl, -⟩ := Ran.mk.inj hrun
      exact h.insertArc i verified hnic hnew hcollision haddr
  | @remove _ mac e isStillUsable hget harcs hnics htokens =>
      obtain ⟨nic, hnic⟩ := h.monitored mac e hget
      have hkept : ∀ mac₁ e₁, s'.arcs.get? mac₁ = some e₁ → s.arcs.get? mac₁ = some e₁ := by
        intro mac₁ e₁ hget₁
        rw [harcs, ← KeyedMap.mem_entries_iff, KeyedMap.mem_erase] at hget₁
        exact KeyedMap.mem_entries_iff.mp hget₁.2
      refine h.of_arcs (fun mac₁ e₁ hget₁ => ⟨e₁, hkept mac₁ e₁ hget₁, .refl e₁⟩)
        (fun mac₁ e₁ hget₁ => ?_) ?_
      · rw [hnics]
        exact h.monitored mac₁ e₁ (hkept mac₁ e₁ hget₁)
      · have hroute : ∀ e, s'.route e = s.route e := by
          intro e
          unfold Manager.route
          rw [hnics]
        have hgone : s.route e = some (e.arc.myDev, nic.localAddress, e.arc.neighbourNicAddr) := by
          rw [Manager.route, hnic]
          rfl
        rw [removalOutputs_foldl isStillUsable hnic, h.routed, routes_erase hget hgone,
          Multiset.erase_cons_head]
        unfold Manager.routes
        simp only [hroute, harcs]
  | @addNic _ _ dev nic houts harcs hnew hnics _ =>
      rw [foldl_noRoutes houts]
      have hother : ∀ mac e, s.arcs.get? mac = some e →
          s'.nics.get? e.arc.myDev = s.nics.get? e.arc.myDev := by
        intro mac e hget
        obtain ⟨nic', hnic'⟩ := h.monitored mac e hget
        rw [hnics]
        refine KeyedMap.get?_insert_of_ne _ _ fun hdev => ?_
        rw [hdev, hnew] at hnic'
        cases hnic'
      refine h.of_arcs (fun mac e' hget' => ⟨e', harcs ▸ hget', .refl e'⟩)
        (fun mac e' hget' => ?_) (h.routed.trans (routes_congr harcs hother).symm)
      rw [hother mac e' (harcs ▸ hget')]
      exact h.monitored mac e' (harcs ▸ hget')
  | @dropNic _ _ dev houts harcs hnics hbare _ =>
      rw [foldl_noRoutes houts]
      have hother : ∀ mac e, s.arcs.get? mac = some e →
          s'.nics.get? e.arc.myDev = s.nics.get? e.arc.myDev := by
        intro mac e hget
        rw [hnics]
        exact KeyedMap.get?_erase_of_ne _ (hbare mac e hget)
      refine h.of_arcs (fun mac e' hget' => ⟨e', harcs ▸ hget', .refl e'⟩)
        (fun mac e' hget' => ?_) (h.routed.trans (routes_congr harcs hother).symm)
      rw [hother mac e' (harcs ▸ hget')]
      exact h.monitored mac e' (harcs ▸ hget')

/-! ## A whole path -/

variable {c : Option Command} {tasks : List ArcTask}

lemma Consistent.path (h : Consistent s routes) (path : Path c s outs tasks s') :
    Consistent s' (outs.foldl neighbourStep routes) := by
  induction path with
  | refl => exact h
  | tail _ edit ih =>
      rw [List.foldl_append]
      exact ih.change edit.change

/-- No route to the address of an arc that is there before and after is removed. -/
def Spares (s : Manager) (r : Ran) : Prop :=
  ∀ dev myAddr addr, .ip (.removeNeighbor dev myAddr addr) ∈ r.outputs →
    ∀ mac e e', s.arcs.get? mac = some e → r.state.arcs.get? mac = some e' →
      e'.inserted = e.inserted → e.arc.neighbourNicAddr ≠ addr

/-- The route a removal removes. -/
lemma removeNeighbor_mem {e : ArcEntry} {isStillUsable : Bool} {dev : Dev} {myAddr addr : NicAddr}
    (hmem : .ip (.removeNeighbor dev myAddr addr) ∈ s.removalOutputs e isStillUsable) :
    e.arc.neighbourNicAddr = addr := by
  unfold Manager.removalOutputs at hmem
  rcases List.mem_append.mp hmem with hmem | hmem
  · cases hnic : s.nics.get? e.arc.myDev with
    | none =>
        rw [hnic] at hmem
        cases hmem
    | some nic =>
        rw [hnic] at hmem
        rcases List.mem_cons.mp hmem with heq | hmem
        · cases heq
          rfl
        · cases isStillUsable <;> simp at hmem
  · cases hcost : e.arc.cost <;> simp [hcost] at hmem

/-- The route removed is that of the arc removed, which is not there any more. -/
lemma Change.removed (hchange : Change s outs s') {dev : Dev} {myAddr addr : NicAddr}
    (hmem : .ip (.removeNeighbor dev myAddr addr) ∈ outs) :
    ∃ mac e, s.arcs.get? mac = some e ∧ e.arc.neighbourNicAddr = addr ∧
      s'.arcs.get? mac = none := by
  cases hchange with
  | idle houts _ _ _ => exact absurd hmem (houts dev myAddr addr).2
  | update houts _ _ _ _ _ => exact absurd hmem (houts dev myAddr addr).2
  | insert _ _ _ _ _ _ hrun =>
      obtain ⟨-, rfl, -⟩ := Ran.mk.inj hrun
      cases List.mem_singleton.mp hmem
  | @remove _ mac e isStillUsable hget harcs _ _ =>
      exact ⟨mac, e, hget, removeNeighbor_mem hmem, by rw [harcs, KeyedMap.get?_erase_self]⟩
  | addNic _ houts _ _ _ _ => exact absurd hmem (houts dev myAddr addr).2
  | dropNic houts _ _ _ _ => exact absurd hmem (houts dev myAddr addr).2

lemma Consistent.spares (h : Consistent s routes) (hdated : Dated s)
    (path : Path c s outs tasks s') : Spares s ⟨s', outs, tasks⟩ := by
  intro dev myAddr addr hmem mac e e' hget hget' hinserted
  dsimp only at hmem hget'
  induction path generalizing e' with
  | refl => cases hmem
  | @tail s₁ s₂ outs₁ outs₂ _ _ path edit ih =>
      -- the arc was there before the last edit, too
      obtain ⟨e₁, hget₁, hbecomes⟩ : ∃ e₁, s₁.arcs.get? mac = some e₁ ∧ e₁.Becomes e' := by
        rcases edit.change.before hget' with ⟨hle, _, _⟩ | hbefore
        · rw [hinserted] at hle
          exact absurd hle (not_le.mpr ((hdated mac e hget).trans_le path.tokens_le))
        · exact hbefore
      rcases List.mem_append.mp hmem with hmem | hmem
      · exact ih hmem e₁ hget₁ (hbecomes.inserted.symm.trans hinserted)
      · obtain ⟨mac₂, e₂, hget₂, haddr₂, hgone⟩ := edit.change.removed hmem
        intro heq
        have hsame : e₁.arc.neighbourNicAddr = e.arc.neighbourNicAddr := by
          rcases path.before hget₁ with hle | ⟨e₀, hget₀, hbecomes₀⟩
          · rw [← hbecomes.inserted, hinserted] at hle
            exact absurd hle (not_le.mpr (hdated mac e hget))
          · rw [hget] at hget₀
            obtain rfl := Option.some.inj hget₀
            exact hbecomes₀.neighbourNicAddr
        have hmac := (h.path path).addresses mac₂ mac e₂ e₁ hget₂ hget₁
          (by rw [haddr₂, hsame, heq])
        rw [← hmac, hgone] at hget'
        cases hget'

/-- No route is there twice. -/
lemma Consistent.nodup (h : Consistent s routes) : s.routes.Nodup := by
  unfold Manager.routes
  rw [Multiset.filterMap_coe, Multiset.coe_nodup, List.Nodup, List.pairwise_filterMap]
  refine (List.Nodup.of_map _ s.arcs.nodup).pairwise_of_forall_ne ?_
  rintro ⟨mac, e⟩ hmem ⟨mac', e'⟩ hmem' hne route hroute route' hroute' heq
  subst heq
  obtain ⟨nic, -, rfl⟩ := Option.map_eq_some_iff.mp hroute
  obtain ⟨nic', -, hsame⟩ := Option.map_eq_some_iff.mp hroute'
  have hget := KeyedMap.mem_entries_iff.mp hmem
  have hget' := KeyedMap.mem_entries_iff.mp hmem'
  have haddr : e'.arc.neighbourNicAddr = e.arc.neighbourNicAddr :=
    congrArg (fun route : Route => route.2.2) hsame
  have hmac := h.addresses mac mac' e e' hget hget' haddr.symm
  subst hmac
  rw [hget] at hget'
  exact hne (Prod.ext rfl (Option.some.inj hget'))

variable {myId : NodeId} {maxArcs : ℕ} {requireAuth : Bool} {log : List Output}

lemma Run.dated (run : Run myId maxArcs requireAuth s log) : Dated s := by
  induction run with
  | spawn => exact fun mac e hget => by cases hget
  | command run i cmd ih => exact (handle_path i _ cmd).dated ih
  | shutdown run i ih => exact (shutdown_follows (c := none) i _).dated ih

lemma consistent_spawn : Consistent (Manager.spawn myId maxArcs requireAuth) 0 :=
  ⟨fun _ _ hget => (by cases hget), fun _ _ _ _ hget => (by cases hget),
    fun _ _ _ _ hget => (by cases hget), fun _ _ hget => (by cases hget), rfl⟩

lemma Run.consistent (run : Run myId maxArcs requireAuth s log) :
    Consistent s (neighbours log) := by
  induction run with
  | spawn => exact consistent_spawn
  | command run i cmd ih =>
      unfold neighbours
      rw [List.foldl_append]
      exact ih.path (handle_path i _ cmd)
  | shutdown run i ih =>
      unfold neighbours
      rw [List.foldl_append]
      exact ih.path (shutdown_follows (c := none) i _)

/-- **The arcs and the on-link routes stay consistent** in every state reached by any commands: no
two arcs share an address, or an interface and an id, every interface of an arc is monitored, and
the routes are one for each arc.  Neither a command nor the shutdown removes the route of an arc
that stays. -/
theorem consistent_of_run (run : Run myId maxArcs requireAuth s log) :
    Consistent s (neighbours log) ∧ s.routes.Nodup ∧
      (∀ i cmd, Spares s (s.handle i cmd).1) ∧ ∀ i, Spares s (s.shutdown i) :=
  ⟨run.consistent, run.consistent.nodup,
    fun i cmd => run.consistent.spares run.dated (handle_path i s cmd),
    fun i => run.consistent.spares run.dated (shutdown_follows (c := none) i s)⟩

/-! ## Two neighbours -/

/-- Our interface. -/
def eth0 : LocalNic := ⟨"eth0", "02:00:00:00:00:01"⟩

/-- What the manager finds outside at time `now`: the one interface, up, and an address for it. -/
def Input.at (now : ℕ) : Input :=
  ⟨now, .asInserted, .asInserted, .asInserted, some [⟨"eth0", true⟩], "169.254.0.1", .ok ()⟩

/-- Our discovery id. -/
def ourId : NodeId := ⟨1, by decide, by decide⟩

/-- A neighbour's. -/
def theirId : NodeId := ⟨2, by decide, by decide⟩

/-- A second neighbour's discovery id. -/
def otherId : NodeId := ⟨3, by decide, by decide⟩

/-- A manager that monitors the interface. -/
def monitoring (maxArcs : ℕ) (requireAuth : Bool) : Manager :=
  ((Manager.spawn ourId maxArcs requireAuth).handle (.at 0) (.startMonitor eth0)).1.state

/-- Two neighbours say that they are here, and a third with the address of the second. -/
theorem consistent_of_run_two :
    let s := ((((monitoring 1 false).handle (.at 0)
      (.hereIAm "eth0" theirId "02:00:00:00:00:02" "169.254.0.2" none)).1.state.handle (.at 1)
      (.hereIAm "eth0" otherId "02:00:00:00:00:03" "169.254.0.3" none)).1.state.handle (.at 2)
      (.hereIAm "eth0" otherId "02:00:00:00:00:04" "169.254.0.3" none)).1.state
    Consistent s (("eth0", "169.254.0.1", "169.254.0.3") ::ₘ
        {("eth0", "169.254.0.1", "169.254.0.2")}) ∧ s.routes.Nodup ∧
      (∀ i cmd, Spares s (s.handle i cmd).1) ∧ ∀ i, Spares s (s.shutdown i) :=
  consistent_of_run ((((Run.spawn.command (.at 0) (.startMonitor eth0)).command (.at 0)
    (.hereIAm "eth0" theirId "02:00:00:00:00:02" "169.254.0.2" none)).command (.at 1)
    (.hereIAm "eth0" otherId "02:00:00:00:00:03" "169.254.0.3" none)).command (.at 2)
    (.hereIAm "eth0" otherId "02:00:00:00:00:04" "169.254.0.3" none))

end Netsukuku.Neighborhood
