import Mathlib
import Netsukuku.Qspn.Reachable

/-!
# Entering a network

An identity that hooks into another network is superseded by a new one at a new address.  The new
identity carries over the arcs inside the g-node that migrates, under new ids, and the part of the
previous map reachable through them below the level of that g-node.

* `importLevel` — one level of the previous map, over the arcs that survive.
* `newEntering` — the constructor of the entering identity.
* `newEntering_repInv` — it never fails on the map of a reachable state, it holds exactly the
  surviving paths, and the representation invariant holds in every state reached from it.
-/

namespace Netsukuku

variable {F : Type}

/-- An arc of the previous identity that survives the migration, and its new id. -/
structure InternalArc where
  previousArc : ArcId
  newArc : ArcId
  peerNaddr : Naddr
  cost : Cost

/-- The key of the split debounce set: a fingerprint by level and identity. -/
abbrev FpKey := ℕ × List UInt8

/-- The state of one identity: the routing state, the splits whose timer runs, and the levels it
bridges (from level 0: none, the identity is a main one). -/
structure IdentityState (F : Type) extends QspnState F where
  pendingGnodeSplit : Finset (FpKey × FpKey)
  connectivityFromLevel : ℕ
  connectivityToLevel : ℕ

/-! ## The import of the previous map -/

/-- The arcs of an entering identity: the ones carried over, their peers known, and the new ones,
whose peers are not. -/
def enteringArcs (internalArcs : List InternalArc) (externalArcs : List (ArcId × Cost)) :
    KeyedMap ArcId ArcEntry :=
  externalArcs.foldl (fun arcs e => arcs.insertOrdered e.1 ⟨e.2, none⟩)
    (internalArcs.foldl (fun arcs a => arcs.insertOrdered a.newArc ⟨a.cost, some a.peerNaddr⟩)
      .empty)

/-- The new id of each arc carried over. -/
def arcRemap (internalArcs : List InternalArc) : KeyedMap ArcId ArcId :=
  internalArcs.foldl (fun remap a => remap.insert a.previousArc a.newArc) .empty

/-- The same path, leaving over another arc. -/
def NodePath.over (np : NodePath) (newArc : ArcId) : NodePath :=
  { np with arc := newArc, path := { np.path with arcs := newArc :: np.path.arcs.tail } }

/-- One path of the previous map; `none` if its arc does not survive. -/
def importPath (remap : KeyedMap ArcId ArcId) (np : NodePath) :
    Outcome QspnError (Option NodePath) :=
  match remap.get? np.arc with
  | none => .ok none
  | some newArc =>
      if np.path.arcs = [] then
        .error (.panic "index out of bounds: the len is 0 but the index is 0")
      else .ok (some (np.over newArc))

/-- One destination of the previous map; `none` if no path to it survives. -/
def importDestination (remap : KeyedMap ArcId ArcId) (d : Destination) :
    Outcome QspnError (Option Destination) := do
  let paths ← d.paths.mapM (importPath remap)
  let paths := paths.filterMap id
  .ok (if paths = [] then none else some ⟨d.coord, paths⟩)

/-- One level of the previous map. -/
def importLevel (remap : KeyedMap ArcId ArcId) (levelMap : KeyedMap UInt32 Destination) :
    Outcome QspnError (KeyedMap UInt32 Destination) :=
  levelMap.entries.foldlM (fun acc e => do
    let d ← importDestination remap e.2
    .ok (d.elim acc (acc.insert e.1))) .empty

/-- The routing state of an entering identity before its first climb. -/
def QspnState.entering (myNaddr : Naddr) (myFingerprint : Fp) (above : List Fp)
    (config : QspnConfig F) (arcs : KeyedMap ArcId ArcEntry) (guestGnodeLevel hostGnodeLevel : ℕ)
    (imported : List (KeyedMap UInt32 Destination)) : QspnState F where
  myNaddr
  myFingerprints := myFingerprint :: above
  myNodesInside := List.replicate (myNaddr.topology.levels + 1) 1
  arcs
  destinations := imported ++ List.replicate (myNaddr.topology.levels - imported.length) .empty
  config
  bootstrap := .inProgress guestGnodeLevel hostGnodeLevel

/-- `QspnState::new_entering`. -/
def newEntering (myNaddr : Naddr) (myFingerprint : Fp) (config : QspnConfig F)
    (internalArcs : List InternalArc) (externalArcs : List (ArcId × Cost))
    (guestGnodeLevel hostGnodeLevel : ℕ) (connectivity : ℕ × ℕ)
    (previousDestinations : List (KeyedMap UInt32 Destination)) :
    Outcome QspnError (IdentityState F) := do
  let levels := myNaddr.topology.levels
  Outcome.assert "qspn.vala:302" (hostGnodeLevel ≤ levels)
  Outcome.assert "qspn.vala:303" (guestGnodeLevel < hostGnodeLevel)
  Outcome.assert "qspn.vala:241" (connectivity.1 < guestGnodeLevel + 1)
  let imported ← (previousDestinations.take guestGnodeLevel).mapM
    (importLevel (arcRemap internalArcs))
  let above ← QspnState.climbAlone myFingerprint levels
  let (s, climbed) := (QspnState.entering myNaddr myFingerprint above config
    (enteringArcs internalArcs externalArcs) guestGnodeLevel hostGnodeLevel imported).updateClusters
  let _ ← climbed
  .ok { s with
    pendingGnodeSplit := ∅
    connectivityFromLevel := connectivity.1
    connectivityToLevel := min connectivity.2 guestGnodeLevel }

/-! ## What survives -/

/-- A path over the new id of its arc, if the arc survives. -/
def carry (remap : KeyedMap ArcId ArcId) (np : NodePath) : Option NodePath :=
  (remap.get? np.arc).map np.over

/-- A destination with the paths that survive, if any does. -/
def carried (remap : KeyedMap ArcId ArcId) (d : Destination) : Option Destination :=
  if d.paths.filterMap (carry remap) = [] then none
  else some ⟨d.coord, d.paths.filterMap (carry remap)⟩

lemma carry_eq_some {remap : KeyedMap ArcId ArcId} {np np' : NodePath} :
    carry remap np = some np' ↔ ∃ newArc, remap.get? np.arc = some newArc ∧ np.over newArc = np' :=
  Option.map_eq_some_iff

lemma importPath_eq {remap : KeyedMap ArcId ArcId} {np : NodePath} (h : np.path.arcs ≠ []) :
    importPath remap np = .ok (carry remap np) := by
  unfold importPath carry
  cases remap.get? np.arc with
  | none => rfl
  | some newArc => simp [h]

lemma importDestination_eq {remap : KeyedMap ArcId ArcId} {d : Destination}
    (h : ∀ np ∈ d.paths, np.path.arcs ≠ []) :
    importDestination remap d = .ok (carried remap d) := by
  rw [importDestination, Outcome.mapM_of_forall fun np hnp => importPath_eq (h np hnp),
    Outcome.ok_bind, List.filterMap_map]
  simp only [Function.id_comp, carried]

/-- Storing new keys one after the other lists them in that order. -/
lemma entries_foldlM_insert {ε κ ν μ : Type} [DecidableEq κ] {f : ν → Outcome ε (Option μ)}
    {g : ν → Option μ} :
    ∀ {l : List (κ × ν)} {acc : KeyedMap κ μ}, (l.map Prod.fst).Nodup →
      (∀ e ∈ l, acc.get? e.1 = none) → (∀ e ∈ l, f e.2 = .ok (g e.2)) →
      ∃ m, l.foldlM (fun acc e => do
          let d ← f e.2
          .ok (d.elim acc (acc.insert e.1))) acc = (.ok m : Outcome ε (KeyedMap κ μ)) ∧
        m.entries = acc.entries ++ l.filterMap fun e => (g e.2).map (Prod.mk e.1)
  | [], acc, _, _, _ => ⟨acc, rfl, by simp⟩
  | e :: l, acc, hnd, hnew, hf => by
      rw [List.map_cons, List.nodup_cons] at hnd
      rw [List.foldlM_cons, hf e List.mem_cons_self, Outcome.ok_bind, Outcome.ok_bind]
      have hrest : ∀ e' ∈ l, e'.1 ≠ e.1 := by
        intro e' he' heq
        exact hnd.1 (heq ▸ List.mem_map_of_mem he')
      have hf' : ∀ e' ∈ l, f e'.2 = .ok (g e'.2) := fun e' he' => hf e' (List.mem_cons_of_mem e he')
      cases hg : g e.2 with
      | none =>
          obtain ⟨m, hm, hentries⟩ := entries_foldlM_insert hnd.2
            (fun e' he' => hnew e' (List.mem_cons_of_mem e he')) hf'
          exact ⟨m, hm, by simp [hentries, hg]⟩
      | some d =>
          have hins : ∀ e' ∈ l, (acc.insert e.1 d).get? e'.1 = none := by
            intro e' he'
            rw [KeyedMap.get?_insert_of_ne _ _ (hrest e' he')]
            exact hnew e' (List.mem_cons_of_mem e he')
          obtain ⟨m, hm, hentries⟩ := entries_foldlM_insert hnd.2 hins hf'
          refine ⟨m, hm, ?_⟩
          have hkept := KeyedMap.erase_entries_of_get?_none (hnew e List.mem_cons_self)
          simp [hentries, hg, KeyedMap.insert, hkept]

/-- On well-formed paths a level is imported as what survives of it. -/
lemma importLevel_eq {remap : KeyedMap ArcId ArcId} {m : KeyedMap UInt32 Destination}
    (h : ∀ d ∈ m.values, ∀ np ∈ d.paths, np.path.arcs ≠ []) :
    importLevel remap m = .ok (m.filterMapValues (carried remap)) := by
  have hdests : ∀ e ∈ m.entries, importDestination remap e.2 = .ok (carried remap e.2) :=
    fun e he => importDestination_eq (h e.2 (KeyedMap.mem_values.mpr ⟨e.1, he⟩))
  obtain ⟨m', hm', hentries⟩ := entries_foldlM_insert m.nodup
    (fun e _ => (KeyedMap.get?_empty e.1 : (.empty : KeyedMap UInt32 Destination).get? e.1 = none))
    hdests
  change importLevel remap m = .ok m' at hm'
  rw [hm']
  congr 1
  obtain ⟨entries, hnd⟩ := m'
  simpa [KeyedMap.filterMapValues] using hentries

/-! ## The arcs -/

section Arcs

variable {internalArcs : List InternalArc}

/-- What the remap knows comes from an arc that survives. -/
lemma mem_of_get?_arcRemap {a b : ArcId} (h : (arcRemap internalArcs).get? a = some b) :
    ∃ e ∈ internalArcs, e.previousArc = a ∧ e.newArc = b := by
  unfold arcRemap at h
  induction internalArcs using List.reverseRecOn with
  | nil => cases h
  | append_singleton l e ih =>
      rw [List.foldl_concat] at h
      by_cases ha : a = e.previousArc
      · rw [ha, KeyedMap.get?_insert_self] at h
        exact ⟨e, by simp, ha.symm, Option.some.inj h⟩
      · rw [KeyedMap.get?_insert_of_ne _ _ ha] at h
        obtain ⟨e', he', hmem⟩ := ih h
        exact ⟨e', List.mem_append_left _ he', hmem⟩

/-- Two arcs do not end up under one id. -/
lemma arcRemap_inj (hnd : (internalArcs.map InternalArc.newArc).Nodup) {a a' b : ArcId}
    (h : (arcRemap internalArcs).get? a = some b) (h' : (arcRemap internalArcs).get? a' = some b) :
    a = a' := by
  obtain ⟨e, he, rfl, rfl⟩ := mem_of_get?_arcRemap h
  obtain ⟨e', he', rfl, hnew⟩ := mem_of_get?_arcRemap h'
  rw [List.inj_on_of_nodup_map hnd he he' hnew.symm]

/-- An arc of the entering identity: a new one, or one carried over with its peer. -/
lemma get?_enteringArcs {externalArcs : List (ArcId × Cost)} {id : ArcId} {entry : ArcEntry}
    (h : (enteringArcs internalArcs externalArcs).get? id = some entry) :
    entry.peerNaddr = none ∨
      ∃ a ∈ internalArcs, a.newArc = id ∧ entry = ⟨a.cost, some a.peerNaddr⟩ := by
  unfold enteringArcs at h
  induction externalArcs using List.reverseRecOn with
  | nil =>
      refine Or.inr ?_
      induction internalArcs using List.reverseRecOn with
      | nil => cases h
      | append_singleton l a ih =>
          rw [List.foldl_nil, List.foldl_concat, KeyedMap.get?_insertOrdered] at h
          by_cases hid : id = a.newArc
          · rw [hid, KeyedMap.get?_insert_self] at h
            exact ⟨a, by simp, hid.symm, (Option.some.inj h).symm⟩
          · rw [KeyedMap.get?_insert_of_ne _ _ hid] at h
            obtain ⟨a', ha', hmem⟩ := ih h
            exact ⟨a', List.mem_append_left _ ha', hmem⟩
  | append_singleton l e ih =>
      rw [List.foldl_concat, KeyedMap.get?_insertOrdered] at h
      by_cases hid : id = e.1
      · rw [hid, KeyedMap.get?_insert_self] at h
        exact Or.inl (Option.some.inj h ▸ rfl)
      · rw [KeyedMap.get?_insert_of_ne _ _ hid] at h
        exact ih h

/-- Every arc carried over is an arc of the entering identity. -/
lemma contains_enteringArcs (externalArcs : List (ArcId × Cost)) {a : InternalArc}
    (ha : a ∈ internalArcs) :
    (enteringArcs internalArcs externalArcs).contains a.newArc = true := by
  unfold enteringArcs
  induction externalArcs using List.reverseRecOn with
  | nil =>
      rw [List.foldl_nil]
      induction internalArcs using List.reverseRecOn with
      | nil => cases ha
      | append_singleton l a' ih =>
          rw [List.foldl_concat, KeyedMap.contains_insertOrdered]
          rcases List.mem_append.mp ha with ha | ha
          · exact Or.inr (ih ha)
          · exact Or.inl (by rw [List.mem_singleton.mp ha])
  | append_singleton l e ih =>
      rw [List.foldl_concat, KeyedMap.contains_insertOrdered]
      exact Or.inr ih

end Arcs

/-! ## The map carried over -/

lemma PathInv.arcs_ne_nil {levels : ℕ} {d : HCoord} {np : NodePath} (h : PathInv levels d np) :
    np.path.arcs ≠ [] := by
  intro hnil
  have hhead := h.head_arc
  rw [hnil] at hhead
  cases hhead

/-- A path over another first arc is as well formed. -/
lemma PathInv.over {levels : ℕ} {d : HCoord} {np : NodePath} (h : PathInv levels d np)
    (newArc : ArcId) : PathInv levels d (np.over newArc) where
  last := h.last
  length_arcs := by
    have hpos := List.length_pos_of_ne_nil h.arcs_ne_nil
    simp only [NodePath.over, List.length_cons, List.length_tail, h.length_arcs]
    omega
  head_arc := rfl
  inLevels := h.inLevels
  fingerprint_level := h.fingerprint_level

/-- Paths of different routes stay so. -/
lemma PathInv.route_over_ne {levels : ℕ} {d : HCoord} {np np' : NodePath}
    (h : PathInv levels d np) (h' : PathInv levels d np')
    (hne : np.path.route ≠ np'.path.route) {b b' : ArcId} (hinj : b = b' → np.arc = np'.arc) :
    (np.over b).path.route ≠ (np'.over b').path.route := by
  intro heq
  simp only [NodePath.over, EtpPath.route, Prod.mk.injEq, List.cons.injEq] at heq
  obtain ⟨hhops, hb, htail⟩ := heq
  refine hne (Prod.ext hhops ?_)
  simp only [EtpPath.route]
  rw [← List.cons_head?_tail h.head_arc, ← List.cons_head?_tail h'.head_arc, htail, hinj hb]

/-- **What survives of a stored destination is one.** -/
lemma DestInv.carried {levels maxPaths : ℕ} {d : HCoord} {dest dest' : Destination}
    (h : DestInv levels maxPaths d dest) {internalArcs : List InternalArc}
    (hnd : (internalArcs.map InternalArc.newArc).Nodup)
    (hc : Netsukuku.carried (arcRemap internalArcs) dest = some dest') :
    DestInv levels maxPaths d dest' := by
  unfold Netsukuku.carried at hc
  split_ifs at hc with hnil
  cases hc
  refine ⟨h.coord, hnil, ?_, ?_, ?_, ?_⟩
  · intro np hnp
    obtain ⟨np₀, hnp₀, hcarry⟩ := List.mem_filterMap.mp hnp
    obtain ⟨newArc, _, rfl⟩ := carry_eq_some.mp hcarry
    exact (h.path np₀ hnp₀).over newArc
  · intro np hnp
    obtain ⟨np₀, hnp₀, hcarry⟩ := List.mem_filterMap.mp hnp
    obtain ⟨newArc, _, rfl⟩ := carry_eq_some.mp hcarry
    exact h.live np₀ hnp₀
  · have hroutes := List.pairwise_map.mp h.routes_nodup
    rw [List.Nodup, List.pairwise_map, List.pairwise_filterMap]
    refine hroutes.imp_of_mem ?_
    intro np np' hnp hnp' hne b hb b' hb'
    obtain ⟨a, ha, rfl⟩ := carry_eq_some.mp hb
    obtain ⟨a', ha', rfl⟩ := carry_eq_some.mp hb'
    refine (h.path np hnp).route_over_ne (h.path np' hnp') hne ?_
    rintro rfl
    exact arcRemap_inj hnd ha ha'
  · exact (List.length_filterMap_le _ _).trans h.bounded

/-! ## The entering identity -/

/-- What an identity that entered from `old` starts with: exactly the surviving paths below the
level that migrates, and the peers of the arcs carried over. -/
structure Entered (old : QspnState F) (n : Naddr) (internalArcs : List InternalArc)
    (guestGnodeLevel : ℕ) (s : QspnState F) : Prop extends RepInv s where
  address : s.myNaddr = n
  stored : ∀ d np, np ∈ s.storedAt d ↔ d.level < guestGnodeLevel ∧
    ∃ np₀ ∈ old.storedAt d, carry (arcRemap internalArcs) np₀ = some np
  peers : ∀ arc peer, s.peerNaddr arc = some peer → ∃ a ∈ internalArcs, a.peerNaddr = peer

namespace Entered

variable {old : QspnState F} {n : Naddr} {internalArcs : List InternalArc} {guestGnodeLevel : ℕ}

/-- The climb changes none of it. -/
lemma updateClusters {s : QspnState F} (h : Entered old n internalArcs guestGnodeLevel s) :
    ∃ s' events, s.updateClusters = (s', .ok events) ∧
      Entered old n internalArcs guestGnodeLevel s' := by
  obtain ⟨s', events, hrun, hs', hsame⟩ := h.updateClusters_ok
  refine ⟨s', events, hrun, h.toRepInv.sameMap hs' hsame, hsame.myNaddr.trans h.address, ?_, ?_⟩
  · intro d np
    rw [← h.stored d np, QspnState.storedAt, QspnState.storedAt, QspnState.destination,
      QspnState.destination, hsame.destinations]
  · intro arc peer hp
    rw [QspnState.peerNaddr, hsame.arcs] at hp
    exact h.peers arc peer hp

end Entered

section Entering

variable {old : QspnState F} {n : Naddr} {fp : Fp} {above : List Fp} {config : QspnConfig F}
  {internalArcs : List InternalArc} {guestGnodeLevel hostGnodeLevel : ℕ} {connectivity : ℕ × ℕ}

/-- The levels imported from a well-formed map. -/
abbrev importedFrom (old : QspnState F) (internalArcs : List InternalArc) (guestGnodeLevel : ℕ) :
    List (KeyedMap UInt32 Destination) :=
  (old.destinations.take guestGnodeLevel).map
    (KeyedMap.filterMapValues (carried (arcRemap internalArcs)))

/-- The import of a well-formed map does not fail. -/
lemma mapM_importLevel (hold : MapInv old) :
    (old.destinations.take guestGnodeLevel).mapM (importLevel (arcRemap internalArcs)) =
      .ok (importedFrom old internalArcs guestGnodeLevel) := by
  refine Outcome.mapM_of_forall ?_
  intro m hm
  obtain ⟨l, hl⟩ := List.mem_iff_getElem?.mp (List.mem_of_mem_take hm)
  refine importLevel_eq ?_
  intro dest hdest np hnp
  obtain ⟨pos, hpos⟩ := KeyedMap.mem_values.mp hdest
  exact ((hold.dest ⟨l, pos⟩ dest (hold.destination_of_mem hl hpos)).path np hnp).arcs_ne_nil

/-- The map of the entering identity, looked up. -/
lemma destination_entering (hold : MapInv old) (htop : n.topology = old.myNaddr.topology)
    (hguest : guestGnodeLevel ≤ n.topology.levels) (fp : Fp) (above : List Fp)
    (config : QspnConfig F) (arcs : KeyedMap ArcId ArcEntry) (hostGnodeLevel : ℕ)
    (internalArcs : List InternalArc) (l : ℕ) (pos : UInt32) :
    (QspnState.entering n fp above config arcs guestGnodeLevel hostGnodeLevel
      (importedFrom old internalArcs guestGnodeLevel)).destination l pos =
      if l < guestGnodeLevel then
        (old.destination l pos).bind (carried (arcRemap internalArcs))
      else none := by
  have hlen : old.destinations.length = n.topology.levels := by
    rw [hold.length_destinations, QspnState.levels, htop]
  have himported : (importedFrom old internalArcs guestGnodeLevel).length = guestGnodeLevel := by
    simp [importedFrom, hlen, hguest]
  simp only [QspnState.destination, QspnState.entering]
  split_ifs with hl
  · rw [List.getElem?_append_left (by omega), List.getElem?_map, List.getElem?_take_of_lt hl]
    cases old.destinations[l]? with
    | none => rfl
    | some m => exact KeyedMap.get?_filterMapValues _ m pos
  · rw [List.getElem?_append_right (by omega), List.getElem?_replicate]
    split_ifs <;> rfl

/-- **The state before the first climb** is already what the identity starts with. -/
lemma entered_entering (hold : MapInv old) (htop : n.topology = old.myNaddr.topology)
    (hlevel : fp.level = 0) (habove : QspnState.climbAlone fp n.topology.levels = .ok above)
    (hmax : old.config.maxPaths ≤ config.maxPaths)
    (hpeers : ∀ a ∈ internalArcs, a.peerNaddr.topology = n.topology)
    (hnd : (internalArcs.map InternalArc.newArc).Nodup)
    (hguest : guestGnodeLevel ≤ n.topology.levels) (externalArcs : List (ArcId × Cost))
    (hostGnodeLevel : ℕ) :
    Entered old n internalArcs guestGnodeLevel (QspnState.entering n fp above config
      (enteringArcs internalArcs externalArcs) guestGnodeLevel hostGnodeLevel
      (importedFrom old internalArcs guestGnodeLevel)) := by
  have hlevels : old.levels = n.topology.levels := by rw [QspnState.levels, htop]
  -- the chain and the sizes are those of a node that created its own network
  obtain ⟨s₀, hs₀, hinv⟩ := new_repInv n hlevel (pending_of_climbAlone habove) config
  rw [QspnState.new, habove] at hs₀
  cases hs₀
  have hdest := destination_entering hold htop hguest fp above config
    (enteringArcs internalArcs externalArcs) hostGnodeLevel internalArcs
  have hpeer : ∀ arc peer, (QspnState.entering n fp above config
      (enteringArcs internalArcs externalArcs) guestGnodeLevel hostGnodeLevel
      (importedFrom old internalArcs guestGnodeLevel)).peerNaddr arc = some peer →
      ∃ a ∈ internalArcs, a.peerNaddr = peer := by
    intro arc peer hp
    obtain ⟨entry, hentry, hp⟩ := Option.bind_eq_some_iff.mp hp
    rcases get?_enteringArcs hentry with hnone | ⟨a, ha, _, rfl⟩
    · rw [hnone] at hp
      cases hp
    · exact ⟨a, ha, Option.some.inj hp⟩
  have hstored : ∀ d np, np ∈ (QspnState.entering n fp above config
      (enteringArcs internalArcs externalArcs) guestGnodeLevel hostGnodeLevel
      (importedFrom old internalArcs guestGnodeLevel)).storedAt d ↔ d.level < guestGnodeLevel ∧
      ∃ np₀ ∈ old.storedAt d, carry (arcRemap internalArcs) np₀ = some np := by
    intro d np
    rw [QspnState.mem_storedAt, hdest]
    split_ifs with hl
    · simp only [hl, true_and, QspnState.mem_storedAt, Option.bind_eq_some_iff]
      constructor
      · rintro ⟨dest', ⟨dest, hd, hc⟩, hnp⟩
        unfold carried at hc
        split_ifs at hc
        cases hc
        obtain ⟨np₀, hnp₀, hcarry⟩ := List.mem_filterMap.mp hnp
        exact ⟨np₀, ⟨dest, hd, hnp₀⟩, hcarry⟩
      · rintro ⟨np₀, ⟨dest, hd, hnp₀⟩, hcarry⟩
        have hmem : np ∈ dest.paths.filterMap (carry (arcRemap internalArcs)) :=
          List.mem_filterMap.mpr ⟨np₀, hnp₀, hcarry⟩
        exact ⟨_, ⟨dest, hd, if_neg (List.ne_nil_of_mem hmem)⟩, hmem⟩
    · simp [hl]
  refine ⟨⟨⟨?_, ?_, hinv.chain, hinv.length_nodesInside, ?_⟩, ?_⟩, rfl, hstored, hpeer⟩
  · simp only [QspnState.entering, QspnState.levels, List.length_append, List.length_map,
      List.length_take, List.length_replicate, hold.length_destinations]
    omega
  · intro d dest hd
    rw [hdest] at hd
    split_ifs at hd
    obtain ⟨dest₀, hd₀, hc⟩ := Option.bind_eq_some_iff.mp hd
    have hdest₀ := (hold.dest d dest₀ hd₀).carried hnd hc
    rw [hlevels] at hdest₀
    exact ⟨hdest₀.coord, hdest₀.paths_ne_nil, hdest₀.path, hdest₀.live, hdest₀.routes_nodup,
      hdest₀.bounded.trans (Nat.mul_le_mul_left _ hmax)⟩
  · intro arc peer hp
    obtain ⟨a, ha, rfl⟩ := hpeer arc peer hp
    exact hpeers a ha
  · intro d np hnp
    obtain ⟨_, np₀, _, hcarry⟩ := (hstored d np).mp hnp
    obtain ⟨newArc, hremap, rfl⟩ := carry_eq_some.mp hcarry
    obtain ⟨a, ha, _, rfl⟩ := mem_of_get?_arcRemap hremap
    exact contains_enteringArcs externalArcs ha

/-- The constructor returns, and with what. -/
lemma newEntering_ok (hold : MapInv old) (htop : n.topology = old.myNaddr.topology)
    (hlevel : fp.level = 0) (hpending : n.topology.levels ≤ fp.pendingElderships.length)
    (hmax : old.config.maxPaths ≤ config.maxPaths)
    (hpeers : ∀ a ∈ internalArcs, a.peerNaddr.topology = n.topology)
    (hnd : (internalArcs.map InternalArc.newArc).Nodup) (hguest : guestGnodeLevel < hostGnodeLevel)
    (hhost : hostGnodeLevel ≤ n.topology.levels) (hconn : connectivity.1 ≤ guestGnodeLevel)
    (externalArcs : List (ArcId × Cost)) :
    ∃ s, newEntering n fp config internalArcs externalArcs guestGnodeLevel hostGnodeLevel
        connectivity old.destinations = .ok s ∧
      Entered old n internalArcs guestGnodeLevel s.toQspnState ∧
      s.connectivityFromLevel = connectivity.1 ∧
      s.connectivityToLevel = min connectivity.2 guestGnodeLevel := by
  obtain ⟨above, habove, _⟩ := climbAlone_ok hpending
  obtain ⟨s', events, hrun, hs'⟩ := (entered_entering hold htop hlevel habove hmax hpeers hnd
    (hguest.le.trans hhost) externalArcs hostGnodeLevel).updateClusters
  refine ⟨⟨s', ∅, connectivity.1, min connectivity.2 guestGnodeLevel⟩, ?_, hs', rfl, rfl⟩
  simp only [newEntering, decide_eq_true hhost, decide_eq_true hguest,
    decide_eq_true (Nat.lt_succ_of_le hconn), Outcome.assert_true, Outcome.ok_bind,
    mapM_importLevel hold, habove, hrun]

/-- A constructor that returned, returned that. -/
lemma entered_of_newEntering (hold : MapInv old) (htop : n.topology = old.myNaddr.topology)
    (hlevel : fp.level = 0) (hmax : old.config.maxPaths ≤ config.maxPaths)
    (hpeers : ∀ a ∈ internalArcs, a.peerNaddr.topology = n.topology)
    (hnd : (internalArcs.map InternalArc.newArc).Nodup) {externalArcs : List (ArcId × Cost)}
    {s : IdentityState F} (h : newEntering n fp config internalArcs externalArcs guestGnodeLevel hostGnodeLevel
      connectivity old.destinations = .ok s) :
    guestGnodeLevel < hostGnodeLevel ∧ Entered old n internalArcs guestGnodeLevel s.toQspnState := by
  have hrun := h
  obtain ⟨_, hhost, h⟩ := Outcome.bind_eq_ok.mp h
  obtain ⟨_, hguest, h⟩ := Outcome.bind_eq_ok.mp h
  obtain ⟨_, hconn, h⟩ := Outcome.bind_eq_ok.mp h
  obtain ⟨_, _, h⟩ := Outcome.bind_eq_ok.mp h
  obtain ⟨_, habove, _⟩ := Outcome.bind_eq_ok.mp h
  have hhost := of_decide_eq_true (Outcome.assert_eq_ok.mp hhost)
  have hguest := of_decide_eq_true (Outcome.assert_eq_ok.mp hguest)
  have hconn := of_decide_eq_true (Outcome.assert_eq_ok.mp hconn)
  obtain ⟨s', hs', hentered, _⟩ := newEntering_ok hold htop hlevel (pending_of_climbAlone habove)
    hmax hpeers hnd hguest hhost (Nat.le_of_lt_succ hconn) externalArcs
  rw [hrun] at hs'
  cases hs'
  exact ⟨hguest, hentered⟩

end Entering

/-- **Entering a network keeps the representation invariant.**  From the map of any well-formed
state the constructor returns; the new identity holds exactly the paths to destinations below the
migrating g-node whose arc survives, each over the new id of its arc, and the representation
invariant holds in every state reached from there. -/
theorem newEntering_repInv [Float64 F] {old : QspnState F} (hold : MapInv old) {n : Naddr}
    (htop : n.topology = old.myNaddr.topology) (id : List UInt8) (eldership : UInt32)
    {pending : List UInt32} (hpending : n.topology.levels ≤ pending.length)
    {config : QspnConfig F} (hmax : old.config.maxPaths ≤ config.maxPaths)
    {internalArcs : List InternalArc} (externalArcs : List (ArcId × Cost))
    (hpeers : ∀ a ∈ internalArcs, a.peerNaddr.topology = n.topology)
    (hnd : (internalArcs.map InternalArc.newArc).Nodup) {guestGnodeLevel hostGnodeLevel : ℕ}
    (hguest : guestGnodeLevel < hostGnodeLevel) (hhost : hostGnodeLevel ≤ n.topology.levels)
    {connectivity : ℕ × ℕ} (hconn : connectivity.1 ≤ guestGnodeLevel) :
    ∃ s, newEntering n (Fingerprint.new id eldership pending) config internalArcs externalArcs
        guestGnodeLevel hostGnodeLevel connectivity old.destinations = .ok s ∧
      (∀ d np, np ∈ s.storedAt d ↔ d.level < guestGnodeLevel ∧
        ∃ np₀ ∈ old.storedAt d, carry (arcRemap internalArcs) np₀ = some np) ∧
      ∀ s', Reachable s.toQspnState s' → RepInv s' := by
  have hlevel : (Fingerprint.new id eldership pending).level = 0 := rfl
  obtain ⟨s, hrun, hs, _⟩ := newEntering_ok hold htop hlevel hpending hmax hpeers hnd hguest hhost
    hconn externalArcs
  exact ⟨s, hrun, hs.stored, fun s' hreach => hreach.repInv hs.toRepInv⟩

/-! ## A node that moves to another g-node -/

/-- The node at position 0 has heard from the one at position 1, in the same g-node. -/
lemma exists_oneNeighbor : ∃ s : QspnState ℚ, Reachable twoLevelState s ∧
    s.myNaddr.topology = twoTiers ∧ s.config.maxPaths = tolerantConfig.maxPaths ∧
    (s.storedAt ⟨0, 1⟩).map NodePath.arc = [⟨1⟩] := by
  refine ⟨_, (Relation.ReflTransGen.refl.tail (.addArc _ ⟨1⟩ (.finite 10))).tail
    (.ingest .asInserted none (@Revised.revised _ _ _ _ ⟨1⟩
      ⟨twoLevelNode 1, twoLevelChain 1, [1, 1, 1], [], []⟩ true _ .nil rfl rfl rfl)),
    by decide +kernel, by decide +kernel, by decide +kernel⟩

/-- It follows its g-node to position 3: its arc has a new id, and the path over it is kept. -/
theorem newEntering_repInv_twoLevels : ∃ old s : QspnState ℚ, ∃ s₁ : IdentityState ℚ,
    Reachable twoLevelState old ∧
    newEntering ⟨twoTiers, [0, 3], rfl⟩ (Fingerprint.new [9] 0 [0, 0]) tolerantConfig
      [⟨⟨1⟩, ⟨7⟩, twoLevelNode 1, .null⟩] [(⟨8⟩, .finite 5)] 1 2 (0, 0) old.destinations = .ok s₁ ∧
    (∃ np ∈ s₁.storedAt ⟨0, 1⟩, np.arc = ⟨7⟩) ∧
    Reachable s₁.toQspnState s ∧ RepInv s := by
  obtain ⟨old, hold, htop, hmax, harcs⟩ := exists_oneNeighbor
  have hnew : QspnState.new (twoLevelNode 0) (Fingerprint.new [0] 0 [0, 0]) tolerantConfig =
      .ok twoLevelState := rfl
  obtain ⟨s₁, hrun, hstored, hreach⟩ := @newEntering_repInv ℚ _ old
    (hold.repInv (repInv_of_new hnew).1).toMapInv ⟨twoTiers, [0, 3], rfl⟩ htop.symm [9] 0 [0, 0] (by decide)
    tolerantConfig hmax.le [⟨⟨1⟩, ⟨7⟩, twoLevelNode 1, .null⟩] [(⟨8⟩, .finite 5)]
    (by simp [twoLevelNode]) (by simp) 1 2 (by simp) (by decide) (0, 0) (by simp)
  have hmem : (⟨1⟩ : ArcId) ∈ (old.storedAt ⟨0, 1⟩).map NodePath.arc := by
    rw [harcs]
    exact List.mem_cons_self
  obtain ⟨np₀, hnp₀, harc⟩ := List.mem_map.mp hmem
  refine ⟨old, s₁.toQspnState.addArc ⟨9⟩ .null, s₁, hold, hrun,
    ⟨np₀.over ⟨7⟩, (hstored ⟨0, 1⟩ _).mpr ⟨Nat.one_pos, np₀, hnp₀, ?_⟩, rfl⟩, ?_, hreach _ ?_⟩
  · rw [carry, harc]
    rfl
  · exact .single (.addArc _ _ _)
  · exact .single (.addArc _ _ _)

end Netsukuku
