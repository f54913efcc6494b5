import Mathlib
import Netsukuku.Qspn.UpdateMapTotal

/-!
# Reachable states satisfy the representation invariant

A `QspnState` starts from `QspnState::new` and is changed by the arc operations, by
`exit_network`, by `update_clusters` and by ingesting messages.  Ingestion is modelled in the
shape both callers use: a number of accepted messages are recorded and revised, each over a
current arc (`Revised`), and one `update_map` takes all the candidates.

* `reviseEtp_candidates` — revision of an accepted message yields well-formed candidates.
* `Revised` — recorded and revised, not yet merged.
* `Step`, `Reachable` — the operations and their runs.
* `reachable_repInv` — the invariant holds in every reachable state, and nothing fails there.
-/

namespace Netsukuku

variable {F : Type}

/-! ## Candidates -/

/-- The destination of a path a receiver keeps lies at or above the level where it sees the
sender: anything below was marked as not valid outside. -/
lemma PathOk.level_le_of_not_ignored {t : Topology} {p : EtpPath} (h : PathOk t p) {l : ℕ}
    (hl : l < t.levels) (hign : p.ignoreOutside[l]?.getD false = false) :
    l ≤ (p.hops.getLast h.hops_ne_nil).level := by
  by_contra hlt
  have hlen : l < p.ignoreOutside.length := h.length_ignoreOutside ▸ hl
  have hget := List.getElem?_eq_getElem hlen
  have htrue := h.ignored_above l (not_le.mp hlt) _ hget
  rw [hget, htrue] at hign
  cases hign

/-- The grouped image of an accepted path is a path to the same destination over the new arc. -/
lemma PathOk.pathInv_grouped {t : Topology} {p : EtpPath} (h : PathOk t p) {v : HCoord}
    (hv : v.level < t.levels) (hign : p.ignoreOutside[v.level]?.getD false = false) (arc : ArcId) :
    PathInv t.levels (p.hops.getLast h.hops_ne_nil) (NodePath.new arc (groupedPath v arc p)) where
  last := by
    have hlast := getLast_groupHops h.hops_ne_nil (h.level_le_of_not_ignored hv hign)
    rw [← hlast]
    exact List.getLast?_eq_getLast_of_ne_nil (List.cons_ne_nil _ _)
  length_arcs := length_groupedPath h.length_arcs
  head_arc := rfl
  inLevels g hg := by
    rcases mem_groupHops hg with rfl | hg
    · exact hv
    · exact (h.hops_ok.real g hg).inLevels
  fingerprint_level := h.fingerprint_level

lemma pathInv_intrinsic {levels : ℕ} {v : HCoord} (hv : v.level < levels) {arc : ArcId} {fp : Fp}
    (hfp : fp.level = v.level) (n : ℕ) (nn : UInt32) :
    PathInv levels v (NodePath.new arc (intrinsicPath n v arc fp nn)) where
  last := rfl
  length_arcs := rfl
  head_arc := rfl
  inLevels g hg := by
    rw [List.mem_singleton.mp hg]
    exact hv
  fingerprint_level := hfp

/-- Withdrawing a path changes neither its route nor its destination. -/
lemma PathInv.dead {levels : ℕ} {d : HCoord} {np : NodePath} (h : PathInv levels d np) {arc : ArcId}
    (harc : np.path.arcs.head? = some arc) :
    PathInv levels d (NodePath.new arc (deadPath np.path)) :=
  ⟨h.last, h.length_arcs, harc, h.inLevels, h.fingerprint_level⟩

/-- **Revision of an accepted message yields well-formed candidates**, all of them over the arc
the message came in on. -/
theorem reviseEtp_candidates {me : Naddr} {m : EtpMessage} {arc : ArcId} {oldPeer : Option Naddr}
    {isFull : Bool} {existing : List NodePath} {r : RevisedEtp}
    (hin : checkIncomingMessage m me = true)
    (hrev : reviseEtp me m arc oldPeer isFull existing = .ok r)
    (hex : ∀ np ∈ existing, np.path.arcs.head? = some arc ∧ ∃ d, PathInv me.topology.levels d np) :
    ∀ np ∈ r.paths, np.arc = arc ∧ ∃ d, PathInv me.topology.levels d np := by
  obtain ⟨_, _, hw⟩ := checkIncomingMessage_iff.mp hin
  obtain ⟨hfps, hnns, v, fp, nn, moved, hv, _, hfp, hfl, _, hmoved, rfl⟩ :=
    (reviseEtp_eq_ok fun p hp => (hw.paths_ok p hp).length_arcs).mp hrev
  have hlev := (Naddr.hcoord_eq_some.mp hv).2.1
  intro np hnp
  rcases List.mem_append.mp hnp with hnp | hnp
  · -- an implicit withdrawal
    rw [withdrawals] at hnp
    split_ifs at hnp
    · obtain ⟨np₀, hnp₀, rfl⟩ := List.mem_map.mp hnp
      obtain ⟨harc, d, hd⟩ := hex np₀ (List.mem_filter.mp hnp₀).1
      exact ⟨rfl, d, hd.dead harc⟩
    · cases hnp
  · obtain ⟨p, hp, rfl⟩ := List.mem_map.mp hnp
    refine ⟨rfl, ?_⟩
    rcases List.mem_append.mp hp with hp | hp
    · obtain ⟨p₀, hp₀, hign, rfl, _⟩ := mem_survivors.mp hp
      exact ⟨_, (hw.paths_ok p₀ hp₀).pathInv_grouped hlev hign arc⟩
    · rcases List.mem_cons.mp hp with rfl | hp
      · exact ⟨v, pathInv_intrinsic hlev hfl _ _⟩
      · obtain ⟨moved', hmoved', hform⟩ : ∃ moved', movedAway me m arc oldPeer v = .ok moved' ∧ _ :=
          movedAway_ok hfps hnns
        rw [hmoved] at hmoved'
        cases hmoved'
        obtain ⟨oldV, fp', nn', hold, hfp', rfl⟩ := hform p hp
        obtain ⟨_, old, _, hcoord⟩ := oldCoord_eq_some hold
        have hlev' := (Naddr.hcoord_eq_some.mp hcoord).2.1
        have hfl' := hw.fingerprint_level _ _ hfp'
        exact ⟨oldV, (pathInv_intrinsic hlev' hfl' me.topology.levels nn').dead rfl⟩

/-! ## The operations keep the invariant -/

namespace QspnState

section Record

variable (s : QspnState F) (arc : ArcId) (n : Naddr)

@[simp] lemma recordPeerNaddr_myNaddr : (s.recordPeerNaddr arc n).1.myNaddr = s.myNaddr := by
  unfold recordPeerNaddr
  cases s.arcs.get? arc <;> rfl

@[simp] lemma recordPeerNaddr_destinations :
    (s.recordPeerNaddr arc n).1.destinations = s.destinations := by
  unfold recordPeerNaddr
  cases s.arcs.get? arc <;> rfl

@[simp] lemma recordPeerNaddr_containsArc (a : ArcId) :
    (s.recordPeerNaddr arc n).1.containsArc a = s.containsArc a := by
  unfold recordPeerNaddr
  cases he : s.arcs.get? arc with
  | none => rfl
  | some e =>
      have harc : s.arcs.contains arc = true := KeyedMap.contains_iff.mpr ⟨e, he⟩
      rw [Bool.eq_iff_iff]
      simp only [containsArc]
      rw [KeyedMap.contains_insertOrdered]
      exact or_iff_right_of_imp fun ha => ha ▸ harc

@[simp] lemma recordPeerNaddr_storedAt (d : HCoord) :
    (s.recordPeerNaddr arc n).1.storedAt d = s.storedAt d := by
  simp [storedAt, destination]

/-- Recording a peer leaves the paths of every arc where they are. -/
@[simp] lemma recordPeerNaddr_pathsViaArc0 (a : ArcId) :
    (s.recordPeerNaddr arc n).1.pathsViaArc0 a = s.pathsViaArc0 a := by
  simp [pathsViaArc0]

end Record

lemma reviseOver_fst (s : QspnState F) (arc : ArcId) (m : EtpMessage) (isFull : Bool) :
    (s.reviseOver arc m isFull).1 = (s.recordPeerNaddr arc m.nodeAddress).1 := rfl

lemma reviseOver_snd (s : QspnState F) (arc : ArcId) (m : EtpMessage) (isFull : Bool) :
    (s.reviseOver arc m isFull).2 = reviseEtp s.myNaddr m arc
      (s.recordPeerNaddr arc m.nodeAddress).2 isFull (if isFull then s.pathsViaArc0 arc else []) := by
  simp [reviseOver]

lemma mem_pathsViaArc0 {s : QspnState F} {arc : ArcId} {np : NodePath}
    (h : np ∈ s.pathsViaArc0 arc) :
    np.path.arcs.head? = some arc ∧ ∃ d, np ∈ s.storedAt d := by
  obtain ⟨hnp, harc⟩ := List.mem_filter.mp h
  refine ⟨of_decide_eq_true harc, ?_⟩
  obtain ⟨m, hm, hnp⟩ := List.mem_flatMap.mp hnp
  obtain ⟨dest, hdest, hnp⟩ := List.mem_flatMap.mp hnp
  obtain ⟨l, hl⟩ := List.mem_iff_getElem?.mp hm
  obtain ⟨pos, hpos⟩ := KeyedMap.mem_values.mp hdest
  refine ⟨⟨l, pos⟩, mem_storedAt.mpr ⟨dest, ?_, hnp⟩⟩
  rw [destination, hl, Option.bind_some]
  exact KeyedMap.mem_entries_iff.mp hpos

lemma destination_removeArc (s : QspnState F) (arc : ArcId) (l : ℕ) (pos : UInt32)
    (h : s.containsArc arc = true) :
    (s.removeArc arc).1.destination l pos = (s.destination l pos).bind (withoutArc arc) := by
  rw [removeArc, if_pos h]
  simp only [destination, List.getElem?_map]
  cases s.destinations[l]? with
  | none => rfl
  | some m => simp [KeyedMap.get?_filterMapValues]

/-- Removing an arc takes its paths out of every destination, and leaves the others in order. -/
lemma storedAt_removeArc (s : QspnState F) {arc : ArcId} (h : s.containsArc arc = true)
    (d : HCoord) :
    (s.removeArc arc).1.storedAt d = (s.storedAt d).filter fun np => decide (np.arc ≠ arc) := by
  rw [storedAt, storedAt, destination_removeArc s arc _ _ h]
  cases s.destination d.level d.pos with
  | none => rfl
  | some dest =>
      rw [Option.bind_some, withoutArc]
      split_ifs with hnil
      · exact hnil.symm
      · rfl

lemma removeArc_of_not_contains {s : QspnState F} {arc : ArcId} (h : ¬ s.containsArc arc = true) :
    (s.removeArc arc).1 = s := by rw [removeArc, if_neg h]

/-- What removing one arc preserves, removing several preserves. -/
lemma removeArcs_preserves {P : QspnState F → Prop} (step : ∀ s arc, P s → P (s.removeArc arc).1)
    {s : QspnState F} (h : P s) (arcs : List ArcId) : P (s.removeArcs arcs).1 := by
  unfold removeArcs
  have hacc : P ((s, []) : QspnState F × List QspnEvent).1 := h
  generalize ((s, []) : QspnState F × List QspnEvent) = acc at hacc ⊢
  induction arcs generalizing acc with
  | nil => exact hacc
  | cons a l ih => exact ih _ (step acc.1 a hacc)

lemma destination_of_strip {s : QspnState F} {lvl l : ℕ} {pos : UInt32} {dest : Destination}
    (h : (s.stripDestinationsAtOrAbove lvl).1.destination l pos = some dest) :
    s.destination l pos = some dest := by
  simp only [stripDestinationsAtOrAbove, destination, List.getElem?_append] at h
  split_ifs at h with hl
  · rw [List.length_take] at hl
    rw [List.getElem?_take_of_lt (by omega)] at h
    exact h
  · rw [List.getElem?_replicate] at h
    split_ifs at h
    · cases h
    · cases h

end QspnState

namespace MapInv

variable {s : QspnState F}

/-- Rewriting the arc table keeps the invariant if the recorded peers stay in the topology. -/
lemma of_arcs (h : MapInv s) {arcs : KeyedMap ArcId ArcEntry}
    (hpeer : ∀ arc e peer, arcs.get? arc = some e → e.peerNaddr = some peer →
      peer.topology = s.myNaddr.topology) : MapInv { s with arcs } := by
  refine ⟨h.length_destinations, h.dest, h.chain, h.length_nodesInside, fun arc peer hp => ?_⟩
  obtain ⟨e, he, hp⟩ := Option.bind_eq_some_iff.mp hp
  exact hpeer arc e peer he hp

lemma entry_peer (h : MapInv s) {arc : ArcId} {e : ArcEntry} {peer : Naddr}
    (he : s.arcs.get? arc = some e) (hp : e.peerNaddr = some peer) :
    peer.topology = s.myNaddr.topology := by
  refine h.peer arc peer ?_
  rw [QspnState.peerNaddr, he, Option.bind_some, hp]

/-- Storing an entry for one arc. -/
lemma insertArc (h : MapInv s) (id : ArcId) (e : ArcEntry)
    (he : ∀ peer, e.peerNaddr = some peer → peer.topology = s.myNaddr.topology) :
    MapInv { s with arcs := s.arcs.insertOrdered id e } := by
  refine h.of_arcs fun arc e' peer he' hp => ?_
  rw [KeyedMap.get?_insertOrdered] at he'
  by_cases harc : arc = id
  · rw [harc, KeyedMap.get?_insert_self] at he'
    cases he'
    exact he peer hp
  · rw [KeyedMap.get?_insert_of_ne _ _ harc] at he'
    exact h.entry_peer he' hp

lemma addArc (h : MapInv s) (id : ArcId) (cost : Cost) : MapInv (s.addArc id cost) :=
  h.insertArc id ⟨cost, none⟩ (by simp)

lemma setArcCost (h : MapInv s) (arc : ArcId) (cost : Cost) : MapInv (s.setArcCost arc cost) := by
  unfold QspnState.setArcCost
  cases he : s.arcs.get? arc with
  | none => exact h
  | some e => exact h.insertArc arc _ fun peer hp => h.entry_peer he hp

lemma recordPeerNaddr (h : MapInv s) (arc : ArcId) {n : Naddr}
    (hn : n.topology = s.myNaddr.topology) : MapInv (s.recordPeerNaddr arc n).1 := by
  unfold QspnState.recordPeerNaddr
  cases he : s.arcs.get? arc with
  | none => exact h
  | some e =>
      refine h.insertArc arc _ fun peer hp => ?_
      cases hp
      exact hn

lemma removeArc (h : MapInv s) (arc : ArcId) : MapInv (s.removeArc arc).1 := by
  by_cases hc : s.containsArc arc = true
  · have hdest : ∀ d dest, (s.removeArc arc).1.destination d.level d.pos = some dest →
        DestInv s.levels s.config.maxPaths d dest := by
      intro d dest hd
      rw [QspnState.destination_removeArc s arc _ _ hc, Option.bind_eq_some_iff] at hd
      obtain ⟨dest₀, hd₀, hd⟩ := hd
      have h₀ := h.dest d dest₀ hd₀
      rw [QspnState.withoutArc] at hd
      split_ifs at hd with hne
      cases hd
      have hsub : (dest₀.paths.filter fun np => decide (np.arc ≠ arc)).Sublist dest₀.paths :=
        List.filter_sublist
      exact ⟨h₀.coord, hne, fun np hnp => h₀.path np (hsub.subset hnp),
        fun np hnp => h₀.live np (hsub.subset hnp), h₀.routes_nodup.sublist (hsub.map _),
        hsub.length_le.trans h₀.bounded⟩
    rw [QspnState.removeArc, if_pos hc] at hdest ⊢
    refine ⟨(List.length_map _).trans h.length_destinations, hdest, h.chain,
      h.length_nodesInside, fun a peer hp => ?_⟩
    obtain ⟨e, he, hp⟩ := Option.bind_eq_some_iff.mp hp
    by_cases ha : a = arc
    · rw [ha, KeyedMap.get?_erase_self] at he
      cases he
    · rw [KeyedMap.get?_erase_of_ne _ ha] at he
      exact h.entry_peer he hp
  · rw [QspnState.removeArc_of_not_contains hc]
    exact h

lemma stripDestinations (h : MapInv s) (lvl : ℕ) :
    MapInv (s.stripDestinationsAtOrAbove lvl).1 := by
  refine ⟨?_, fun d dest hd => ?_, h.chain, h.length_nodesInside, h.peer⟩
  · have := h.length_destinations
    simp only [QspnState.stripDestinationsAtOrAbove, List.length_append, List.length_take,
      List.length_replicate]
    change _ = s.levels
    omega
  · exact h.dest d dest (QspnState.destination_of_strip hd)

lemma removeArcs (h : MapInv s) (arcs : List ArcId) : MapInv (s.removeArcs arcs).1 :=
  QspnState.removeArcs_preserves (fun _ arc hs => hs.removeArc arc) h arcs

/-- Leaving a network never fails. -/
theorem exitNetwork_ok (h : MapInv s) (lvl : ℕ) :
    ∃ s' r, s.exitNetwork lvl = (s', .ok r) ∧ MapInv s' := by
  obtain ⟨s₂, climbed, h₂, hinv₂, _⟩ := (h.stripDestinations lvl).updateClusters_ok
  obtain ⟨s₄, climbed', h₄, hinv₄, _⟩ :=
    (hinv₂.removeArcs (s₂.arcsAtOrAbove lvl)).updateClusters_ok
  refine ⟨s₄, ((s.stripDestinationsAtOrAbove lvl).2 ++ climbed ++
    (s₂.removeArcs (s₂.arcsAtOrAbove lvl)).2 ++ climbed', s₂.arcsAtOrAbove lvl), ?_, hinv₄⟩
  simp only [QspnState.exitNetwork, h₂, h₄]

end MapInv

namespace RepInv

variable {s : QspnState F}

lemma of_storedAt {s' : QspnState F} (h' : MapInv s')
    (hcur : ∀ d, ∀ np ∈ s'.storedAt d, s'.containsArc np.arc = true) : RepInv s' := ⟨h', hcur⟩

lemma insertArc (h : RepInv s) (id : ArcId) (e : ArcEntry)
    (h' : MapInv { s with arcs := s.arcs.insertOrdered id e }) :
    RepInv { s with arcs := s.arcs.insertOrdered id e } :=
  of_storedAt h' fun d np hnp =>
    KeyedMap.contains_insertOrdered.mpr (Or.inr (h.arc_current d np hnp))

lemma addArc (h : RepInv s) (id : ArcId) (cost : Cost) : RepInv (s.addArc id cost) :=
  h.insertArc id _ (h.toMapInv.addArc id cost)

lemma setArcCost (h : RepInv s) (arc : ArcId) (cost : Cost) : RepInv (s.setArcCost arc cost) := by
  have h' := h.toMapInv.setArcCost arc cost
  unfold QspnState.setArcCost at h' ⊢
  cases he : s.arcs.get? arc with
  | none => exact h
  | some e =>
      rw [he] at h'
      exact h.insertArc arc _ h'

lemma recordPeerNaddr (h : RepInv s) (arc : ArcId) {n : Naddr}
    (hn : n.topology = s.myNaddr.topology) : RepInv (s.recordPeerNaddr arc n).1 := by
  have h' := h.toMapInv.recordPeerNaddr arc hn
  unfold QspnState.recordPeerNaddr at h' ⊢
  cases he : s.arcs.get? arc with
  | none => exact h
  | some e =>
      rw [he] at h'
      exact h.insertArc arc _ h'

lemma removeArc (h : RepInv s) (arc : ArcId) : RepInv (s.removeArc arc).1 := by
  by_cases hc : s.containsArc arc = true
  · refine of_storedAt (h.toMapInv.removeArc arc) fun d np hnp => ?_
    rw [QspnState.storedAt_removeArc s hc] at hnp
    obtain ⟨hnp, hne⟩ := List.mem_filter.mp hnp
    have hcur := h.arc_current d np hnp
    rw [QspnState.removeArc, if_pos hc]
    exact KeyedMap.contains_erase.mpr ⟨of_decide_eq_true hne, hcur⟩
  · rw [QspnState.removeArc_of_not_contains hc]
    exact h

lemma stripDestinations (h : RepInv s) (lvl : ℕ) :
    RepInv (s.stripDestinationsAtOrAbove lvl).1 := by
  refine of_storedAt (h.toMapInv.stripDestinations lvl) fun d np hnp => ?_
  obtain ⟨dest, hd, hnp⟩ := QspnState.mem_storedAt.mp hnp
  exact h.arc_current d np (QspnState.mem_storedAt.mpr ⟨dest, QspnState.destination_of_strip hd, hnp⟩)

lemma sameMap (h : RepInv s) {s' : QspnState F} (h' : MapInv s') (hs : MapInv.SameMap s s') :
    RepInv s' := by
  refine of_storedAt h' fun d np hnp => ?_
  rw [QspnState.containsArc, hs.arcs]
  refine h.arc_current d np ?_
  rwa [QspnState.storedAt, QspnState.destination, hs.destinations] at hnp

lemma updateClusters (h : RepInv s) : RepInv s.updateClusters.1 := by
  obtain ⟨s', events, hrun, hs', hsame⟩ := h.toMapInv.updateClusters_ok
  rw [hrun]
  exact h.sameMap hs' hsame

lemma removeArcs (h : RepInv s) (arcs : List ArcId) : RepInv (s.removeArcs arcs).1 :=
  QspnState.removeArcs_preserves (fun _ arc hs => hs.removeArc arc) h arcs

lemma exitNetwork (h : RepInv s) (lvl : ℕ) : RepInv (s.exitNetwork lvl).1 := by
  have h₁ := h.stripDestinations lvl
  obtain ⟨s₂, climbed, h₂, hinv₂, hsame₂⟩ := h₁.toMapInv.updateClusters_ok
  have h₃ := (h₁.sameMap hinv₂ hsame₂).removeArcs (s₂.arcsAtOrAbove lvl)
  obtain ⟨s₄, climbed', h₄, hinv₄, hsame₄⟩ := h₃.toMapInv.updateClusters_ok
  simp only [QspnState.exitNetwork, h₂, h₄]
  exact h₃.sameMap hinv₄ hsame₄

end RepInv

/-! ## Ingestion -/

/-- Accepted messages recorded and revised one after the other, each over a current arc: the
state they leave and the candidates they yield.  A message the revision rejects leaves its
sender's address recorded. -/
inductive Revised (s : QspnState F) : QspnState F → List NodePath → Prop
  | nil : Revised s s []
  | revised {s₁ : QspnState F} {q : List NodePath} {arc : ArcId} {m : EtpMessage} {isFull : Bool}
      {r : RevisedEtp} : Revised s s₁ q → s₁.containsArc arc = true →
      checkIncomingMessage m s₁.myNaddr = true → (s₁.reviseOver arc m isFull).2 = .ok r →
      Revised s (s₁.reviseOver arc m isFull).1 (q ++ r.paths)
  | rejected {s₁ : QspnState F} {q : List NodePath} {arc : ArcId} {m : EtpMessage} {isFull : Bool}
      {e : Fault QspnError} : Revised s s₁ q → s₁.containsArc arc = true →
      checkIncomingMessage m s₁.myNaddr = true → (s₁.reviseOver arc m isFull).2 = .error e →
      Revised s (s₁.reviseOver arc m isFull).1 q

/-- Candidates of accepted messages are well formed and lie over current arcs, and recording the
messages keeps the invariant. -/
theorem Revised.repInv {s s' : QspnState F} {q : List NodePath} (h : Revised s s' q)
    (hs : RepInv s) :
    RepInv s' ∧ CandidatesOk s'.levels q ∧ ∀ np ∈ q, s'.containsArc np.arc = true := by
  induction h with
  | nil => exact ⟨hs, by simp [CandidatesOk], by simp⟩
  | @revised s₁ q arc m isFull r _ hc hin hrev ih =>
      obtain ⟨h₁, hq, harcs⟩ := ih
      have htop := (checkIncomingMessage_iff.mp hin).1
      have hcand : ∀ np ∈ r.paths, np.arc = arc ∧ ∃ d, PathInv s₁.levels d np := by
        rw [QspnState.reviseOver_snd] at hrev
        refine reviseEtp_candidates hin hrev fun np hnp => ?_
        split_ifs at hnp
        · obtain ⟨harc, d, hd⟩ := QspnState.mem_pathsViaArc0 hnp
          exact ⟨harc, d, h₁.pathInv hd⟩
        · cases hnp
      have hlevels : (s₁.reviseOver arc m isFull).1.levels = s₁.levels := by
        simp [QspnState.reviseOver_fst, QspnState.levels]
      refine ⟨h₁.recordPeerNaddr arc htop, fun np hnp => ?_, fun np hnp => ?_⟩
      · rw [hlevels]
        rcases List.mem_append.mp hnp with hnp | hnp
        · exact hq np hnp
        · exact (hcand np hnp).2
      · rw [QspnState.reviseOver_fst, QspnState.recordPeerNaddr_containsArc]
        rcases List.mem_append.mp hnp with hnp | hnp
        · exact harcs np hnp
        · exact (hcand np hnp).1 ▸ hc
  | @rejected s₁ q arc m isFull e _ hc hin hrev ih =>
      obtain ⟨h₁, hq, harcs⟩ := ih
      have hlevels : (s₁.reviseOver arc m isFull).1.levels = s₁.levels := by
        simp [QspnState.reviseOver_fst, QspnState.levels]
      refine ⟨h₁.recordPeerNaddr arc (checkIncomingMessage_iff.mp hin).1, hlevels ▸ hq,
        fun np hnp => ?_⟩
      rw [QspnState.reviseOver_fst, QspnState.recordPeerNaddr_containsArc]
      exact harcs np hnp

section Runs

variable [Float64 F]

/-- Merging well-formed candidates over current arcs keeps the invariant. -/
theorem RepInv.updateMap {s : QspnState F} (h : RepInv s) (order : MapOrder) {q : List NodePath}
    (hq : CandidatesOk s.levels q) (harcs : ∀ np ∈ q, s.containsArc np.arc = true)
    (aChanged : Option ArcId) :
    ∃ s' out, updateMap order s q aChanged = (s', .ok out) ∧ RepInv s' := by
  obtain ⟨s', out, hrun, hs'⟩ := h.toMapInv.updateMap_ok order hq aChanged
  obtain ⟨hframe, hfrom⟩ := updateMap_storedFrom order s q aChanged
  rw [hrun] at hframe hfrom
  refine ⟨s', out, hrun, hs', fun d np hnp => ?_⟩
  rw [QspnState.containsArc, hframe.arcs]
  obtain ⟨np₀, hnp₀, hc⟩ := hfrom d np hnp
  rw [← NodePath.arc_eq_of_core hc]
  rcases List.mem_append.mp hnp₀ with hnp₀ | hnp₀
  · exact h.arc_current d np₀ hnp₀
  · exact harcs np₀ (List.mem_filter.mp hnp₀).1

/-- The operations on a routing state. -/
inductive Step : QspnState F → QspnState F → Prop
  | addArc (s : QspnState F) (id : ArcId) (cost : Cost) : Step s (s.addArc id cost)
  | setArcCost (s : QspnState F) (arc : ArcId) (cost : Cost) : Step s (s.setArcCost arc cost)
  | removeArc (s : QspnState F) (arc : ArcId) : Step s (s.removeArc arc).1
  | exitNetwork (s : QspnState F) (lvl : ℕ) : Step s (s.exitNetwork lvl).1
  | updateClusters (s : QspnState F) : Step s s.updateClusters.1
  | record {s s₁ : QspnState F} {q : List NodePath} : Revised s s₁ q → Step s s₁
  | ingest {s s₁ : QspnState F} {q : List NodePath} (order : MapOrder)
      (aChanged : Option ArcId) : Revised s s₁ q → Step s (updateMap order s₁ q aChanged).1

/-- `s` is reached from `s₀` by a sequence of operations. -/
def Reachable (s₀ s : QspnState F) : Prop := Relation.ReflTransGen Step s₀ s

/-- **One operation keeps the invariant.** -/
theorem Step.repInv {s s' : QspnState F} (hstep : Step s s') (h : RepInv s) : RepInv s' := by
  cases hstep with
  | addArc id cost => exact h.addArc id cost
  | setArcCost arc cost => exact h.setArcCost arc cost
  | removeArc arc => exact h.removeArc arc
  | exitNetwork lvl => exact h.exitNetwork lvl
  | updateClusters => exact h.updateClusters
  | record hrev => exact (hrev.repInv h).1
  | ingest order aChanged hrev =>
      obtain ⟨h₁, hq, harcs⟩ := hrev.repInv h
      obtain ⟨s'', out, hrun, h''⟩ := h₁.updateMap order hq harcs aChanged
      rw [hrun]
      exact h''

/-- A run keeps the invariant. -/
theorem Reachable.repInv {s₀ s : QspnState F} (hrun : Reachable s₀ s) (h₀ : RepInv s₀) :
    RepInv s := by
  induction hrun with
  | refl => exact h₀
  | tail _ hstep ih => exact hstep.repInv ih

end Runs

/-! ## The start -/

/-- Climbing alone succeeds while elderships are left, and yields a chain. -/
lemma climbAlone_ok :
    ∀ {n : ℕ} {fp : Fp}, n ≤ fp.pendingElderships.length →
      ∃ above, QspnState.climbAlone fp n = .ok above ∧ above.length = n ∧
        ∀ (l : ℕ) (g : Fp), above[l]? = some g → g.level = fp.level + l + 1 ∧
          fp.pendingElderships.length = g.pendingElderships.length + l + 1
  | 0, fp, _ => ⟨[], rfl, rfl, by simp⟩
  | n + 1, fp, h => by
      obtain ⟨next, hnext⟩ := Fingerprint.exists_construct (f := fp) (by omega) [] false
      obtain ⟨hlevel, hpending⟩ := Fingerprint.level_of_construct hnext
      have hn : n ≤ next.pendingElderships.length := by omega
      obtain ⟨rest, hrest, hlen, hchain⟩ := climbAlone_ok hn
      refine ⟨next :: rest, ?_, by simp [hlen], fun l g hg => ?_⟩
      · rw [QspnState.climbAlone, hnext, Outcome.unwrap_ok, Outcome.ok_bind, hrest,
          Outcome.ok_bind]
      · cases l with
        | zero =>
            cases hg
            omega
        | succ l =>
            obtain ⟨h₁, h₂⟩ := hchain l g hg
            omega

/-- **A fresh state satisfies the invariant**, provided the fingerprint can be climbed to the
top. -/
theorem new_repInv (n : Naddr) {fp : Fp} (hfp : fp.level = 0)
    (hpending : n.topology.levels ≤ fp.pendingElderships.length) (config : QspnConfig F) :
    ∃ s₀, QspnState.new n fp config = .ok s₀ ∧ RepInv s₀ := by
  obtain ⟨above, habove, hlen, hchain⟩ := climbAlone_ok hpending
  have hnone : ∀ (l : ℕ) (pos : UInt32), ((List.replicate n.topology.levels
      KeyedMap.empty)[l]?.bind fun m : KeyedMap UInt32 Destination => m.get? pos) = none := by
    intro l pos
    rw [List.getElem?_replicate]
    split_ifs <;> rfl
  refine ⟨_, by rw [QspnState.new, habove]; rfl, ⟨?_, ?_, ⟨?_, ?_, ?_⟩, ?_, ?_⟩, ?_⟩
  · exact List.length_replicate
  · intro d dest hd
    simp only [QspnState.destination, hnone] at hd
    cases hd
  · simp only [List.length_cons, hlen]
    rfl
  · intro l g hg
    cases l with
    | zero =>
        cases hg
        exact hfp
    | succ l =>
        obtain ⟨h₁, _⟩ := hchain l g hg
        omega
  · intro l g hg
    change n.topology.levels ≤ _
    cases l with
    | zero =>
        cases hg
        omega
    | succ l =>
        obtain ⟨_, h₂⟩ := hchain l g hg
        omega
  · exact List.length_replicate
  · intro arc peer hp
    cases hp
  · intro d np hnp
    simp [QspnState.storedAt, QspnState.destination, hnone] at hnp

/-- A climb that returned had enough elderships. -/
lemma pending_of_climbAlone :
    ∀ {n : ℕ} {fp : Fp} {above : List Fp}, QspnState.climbAlone fp n = .ok above →
      n ≤ fp.pendingElderships.length
  | 0, _, _, _ => Nat.zero_le _
  | n + 1, fp, above, h => by
      obtain ⟨next, hnext, h⟩ := Outcome.bind_eq_ok.mp h
      obtain ⟨rest, hrest, _⟩ := Outcome.bind_eq_ok.mp h
      have ih := pending_of_climbAlone hrest
      have hcons : fp.construct [] false = .ok next := by
        cases hc : fp.construct [] false with
        | ok x =>
            rw [hc] at hnext
            cases hnext
            rfl
        | error e =>
            rw [hc] at hnext
            cases e <;> cases hnext
      obtain ⟨_, hpending⟩ := Fingerprint.level_of_construct hcons
      omega

/-- A state that could be built satisfies the invariant, stores nothing and has no arcs. -/
lemma repInv_of_new {n : Naddr} {id : List UInt8} {eldership : UInt32} {pending : List UInt32}
    {config : QspnConfig F} {s : QspnState F}
    (h : QspnState.new n (Fingerprint.new id eldership pending) config = .ok s) :
    RepInv s ∧ s.myNaddr = n ∧ (∀ d, s.storedAt d = []) ∧ s.arcs = .empty := by
  obtain ⟨above, habove, hs⟩ := Outcome.bind_eq_ok.mp h
  obtain ⟨s₀, h₀, hinv⟩ : ∃ s₀, QspnState.new n (Fingerprint.new id eldership pending) config =
      .ok s₀ ∧ RepInv s₀ := new_repInv n rfl (pending_of_climbAlone habove) config
  rw [h] at h₀
  cases h₀
  cases hs
  refine ⟨hinv, rfl, fun d => ?_, rfl⟩
  simp only [QspnState.storedAt, QspnState.destination, List.getElem?_replicate]
  split_ifs <;> rfl

/-- **Every reachable state satisfies the representation invariant, and nothing fails there.**
From a node that created its network with enough pending elderships, whatever arcs come and go
and whatever accepted messages are ingested, the map is well formed; and merging further accepted
messages, climbing the clusters, exposing paths and taking a snapshot all return. -/
theorem reachable_repInv [Float64 F] (n : Naddr) (id : List UInt8) (eldership : UInt32)
    {pending : List UInt32} (hpending : n.topology.levels ≤ pending.length)
    (config : QspnConfig F) :
    ∃ s₀, QspnState.new n (Fingerprint.new id eldership pending) config = .ok s₀ ∧
      ∀ s, Reachable s₀ s →
        RepInv s ∧
        (∀ s₁ q, Revised s s₁ q → ∀ order aChanged,
          ∃ s₂ out, updateMap order s₁ q aChanged = (s₂, .ok out)) ∧
        (∃ s₁ events, s.updateClusters = (s₁, .ok events)) ∧
        (∀ d, ∃ paths, s.exposedPaths d = .ok paths) ∧
        ∃ snapshot, s.snapshot = .ok snapshot := by
  obtain ⟨s₀, hnew, h₀⟩ := @new_repInv F n (Fingerprint.new id eldership pending) rfl hpending config
  refine ⟨s₀, hnew, fun s hrun => ?_⟩
  have h := hrun.repInv h₀
  refine ⟨h, fun s₁ q hrev order aChanged => ?_, ?_, h.exposedPaths_ok, h.snapshot_ok⟩
  · obtain ⟨h₁, hq, _⟩ := hrev.repInv h
    obtain ⟨s₂, out, hmap, _⟩ := h₁.toMapInv.updateMap_ok order hq aChanged
    exact ⟨s₂, out, hmap⟩
  · obtain ⟨s₁, events, hclimb, _⟩ := h.updateClusters_ok
    exact ⟨s₁, events, hclimb⟩

lemma oneLevel_ne_nil : ([4] : List UInt32) ≠ [] := by simp

lemma oneLevel_pos : ∀ g ∈ ([4] : List UInt32), 0 < g.toNat := by simp

/-- A network of one level with room for four nodes. -/
def oneLevel : Topology := ⟨[4], oneLevel_ne_nil, oneLevel_pos⟩

lemma length_oneLevelNode (p : UInt32) : [p].length = oneLevel.levels := rfl

/-- The node at position `p` of a one-level network. -/
def oneLevelNode (p : UInt32) : Naddr := ⟨oneLevel, [p], length_oneLevelNode p⟩

theorem reachable_repInv_oneLevel :
    (oneLevelNode 0).topology.levels ≤ [(0 : UInt32)].length ∧
      ∃ s₀ : QspnState ℚ, QspnState.new (oneLevelNode 0) (Fingerprint.new [1] 0 [0]) .default =
        .ok s₀ ∧ ∀ s, Reachable s₀ s → RepInv s := by
  refine ⟨by decide, ?_⟩
  have hpending : (oneLevelNode 0).topology.levels ≤ [(0 : UInt32)].length := by decide
  obtain ⟨s₀, hnew, h⟩ := reachable_repInv (F := ℚ) (oneLevelNode 0) [1] 0 hpending .default
  exact ⟨s₀, hnew, fun s hs => (h s hs).1⟩

/-! ## A small network

A one-level network, the node at position 0 of it with one arc to the node at position 1, and the
messages that node sends: enough to run the operations on. -/

/-- The node at position 0 with one arc, over which it has learned one path to position 2. -/
def oneLevelState (np : NodePath) : QspnState ℚ where
  myNaddr := oneLevelNode 0
  myFingerprints := [Fingerprint.new [0] 0 [0], ⟨[0], 1, 0, [], [0]⟩]
  myNodesInside := [1, 1]
  arcs := ⟨[(⟨1⟩, ⟨.finite 10, some (oneLevelNode 1)⟩)], List.nodup_singleton _⟩
  destinations := [⟨[(2, ⟨⟨0, 2⟩, [np]⟩)], List.nodup_singleton _⟩]
  config := .default
  bootstrap := .complete

/-- The node at position `p` of the one-level network, just created. -/
def freshNode (p : UInt32) : QspnState ℚ where
  myNaddr := oneLevelNode p
  myFingerprints := [Fingerprint.new [1] 0 [0], ⟨[1], 1, 0, [], [0]⟩]
  myNodesInside := [1, 1]
  arcs := .empty
  destinations := [.empty]
  config := .default
  bootstrap := .complete

/-- A path of the one-level network, as it travels. -/
def oneLevelPath (hops : List HCoord) (arcs : List ArcId) (cost : Cost) : EtpPath :=
  ⟨hops, arcs, cost, Fingerprint.new [2] 0 [0], 1, [false]⟩

/-- A message of the node at position 1. -/
def oneLevelEtp (paths : List EtpPath) : EtpMessage :=
  ⟨oneLevelNode 1, [Fingerprint.new [1] 0 [0], ⟨[1], 1, 0, [], [0]⟩], [1, 1], [], paths⟩

/-- Its only destination. -/
lemma oneLevelState_destination {np : NodePath} {d : HCoord} {dest : Destination}
    (hd : (oneLevelState np).destination d.level d.pos = some dest) :
    d = ⟨0, 2⟩ ∧ dest = ⟨⟨0, 2⟩, [np]⟩ := by
  obtain ⟨l, p⟩ := d
  obtain ⟨m, hm, hget⟩ := Option.bind_eq_some_iff.mp hd
  have hmem := KeyedMap.mem_entries_iff.mpr hget
  rcases l with _ | l
  · cases hm
    obtain ⟨rfl, rfl⟩ : p = 2 ∧ dest = _ := by simpa using hmem
    exact ⟨rfl, rfl⟩
  · cases hm

lemma oneLevelState_repInv {np : NodePath} (hnp : PathInv 1 ⟨0, 2⟩ np)
    (hlive : np.path.cost ≠ .dead) (harc : np.arc = ⟨1⟩) : RepInv (oneLevelState np) := by
  have hlevels : (oneLevelState np).levels = 1 := rfl
  refine ⟨⟨rfl, fun d dest hd => ?_, ⟨rfl, fun l fp hl => ?_, fun l fp hl => ?_⟩, rfl,
    fun arc peer hp => ?_⟩, fun d np' hnp' => ?_⟩
  · obtain ⟨rfl, rfl⟩ := oneLevelState_destination hd
    refine ⟨rfl, by simp, ?_, ?_, by simp, ?_⟩
    · rw [hlevels]
      simpa using hnp
    · simpa using hlive
    · show 1 ≤ mandatoryPathFactor * 5
      decide
  · rcases l with _ | _ | l
    all_goals
      cases hl
      try rfl
  · rw [hlevels]
    rcases l with _ | _ | l
    all_goals
      cases hl
      try simp [Fingerprint.new]
  · obtain ⟨e, he, hpeer⟩ := Option.bind_eq_some_iff.mp hp
    have hmem := KeyedMap.mem_entries_iff.mpr he
    obtain ⟨rfl, rfl⟩ : arc = ⟨1⟩ ∧ e = _ := by simpa [oneLevelState] using hmem
    cases hpeer
    rfl
  · obtain ⟨dest, hd, hnp'⟩ := QspnState.mem_storedAt.mp hnp'
    obtain ⟨rfl, rfl⟩ := oneLevelState_destination hd
    rw [List.mem_singleton.mp hnp', harc]
    rfl

/-- A path of the one-level node to position 2, through the node at position 1. -/
def oneLevelRelayed (cost : Cost) : NodePath :=
  NodePath.new ⟨1⟩ (oneLevelPath [⟨0, 1⟩, ⟨0, 2⟩] [⟨1⟩, ⟨7⟩] cost)

lemma pathInv_oneLevelRelayed (cost : Cost) : PathInv 1 ⟨0, 2⟩ (oneLevelRelayed cost) where
  last := rfl
  length_arcs := rfl
  head_arc := rfl
  inLevels := by simp [oneLevelRelayed, NodePath.new, oneLevelPath]
  fingerprint_level := rfl

lemma oneLevelRelayed_repInv : RepInv (oneLevelState (oneLevelRelayed (.finite 5))) :=
  oneLevelState_repInv (pathInv_oneLevelRelayed _) (by decide) rfl

/-! ## Two levels -/

lemma twoTiers_ne_nil : ([4, 4] : List UInt32) ≠ [] := by simp

lemma twoTiers_pos : ∀ g ∈ ([4, 4] : List UInt32), 0 < g.toNat := by simp

/-- A network of two levels. -/
def twoTiers : Topology := ⟨[4, 4], twoTiers_ne_nil, twoTiers_pos⟩

/-- The node at position `p` of the g-node at position 0. -/
def twoLevelNode (p : UInt32) : Naddr := ⟨twoTiers, [p, 0], rfl⟩

def twoLevelChain (id : UInt8) : List Fp :=
  [Fingerprint.new [id] 0 [0, 0], ⟨[id], 1, 0, [0], [0]⟩, ⟨[id], 2, 0, [], [0, 0]⟩]

/-- A configuration that tolerates paths with common hops. -/
def tolerantConfig : QspnConfig ℚ := { QspnConfig.default with maxCommonHopsRatio := 1 }

/-- The node at position 0, just created. -/
def twoLevelState : QspnState ℚ where
  myNaddr := twoLevelNode 0
  myFingerprints := twoLevelChain 0
  myNodesInside := [1, 1, 1]
  arcs := .empty
  destinations := [.empty, .empty]
  config := tolerantConfig
  bootstrap := .complete

end Netsukuku
