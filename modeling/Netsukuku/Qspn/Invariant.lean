import Mathlib
import Netsukuku.Qspn.UpdateMapSpec

/-!
# The representation invariant

What is true of a `QspnState` between operations, and what it buys: on a state satisfying it no
operation returns `Err` or panics.

* `PathInv` — what a path to `d` must look like, stored or candidate.
* `DestInv`, `MapInv` — the destination maps, the fingerprint chain and the recorded peers.
* `RepInv` — `MapInv`, and every stored path leaves over a current arc.
* `exposedPaths_ok`, `snapshot_ok`, `updateClusters_ok` — the operations outside `update_map`.

`MapInv` alone carries the absence of failures; the currency of the arcs is kept apart because
the actor may drop an arc while candidates learned over it are still being collected.
-/

namespace Netsukuku

variable {F : Type}

/-- A path to `d`: it ends there, leaves over its own arc, has one arc per hop, and carries a
fingerprint of `d`'s level. -/
structure PathInv (levels : ℕ) (d : HCoord) (np : NodePath) : Prop where
  last : np.path.hops.getLast? = some d
  length_arcs : np.path.hops.length = np.path.arcs.length
  head_arc : np.path.arcs.head? = some np.arc
  inLevels : ∀ h ∈ np.path.hops, h.level < levels
  fingerprint_level : np.path.fingerprint.level = d.level

namespace PathInv

variable {levels : ℕ} {d : HCoord} {np : NodePath}

lemma hops_ne_nil (h : PathInv levels d np) : np.path.hops ≠ [] := by
  intro hnil
  have := h.last
  rw [hnil] at this
  cases this

lemma mem_hops (h : PathInv levels d np) : d ∈ np.path.hops := List.mem_of_getLast? h.last

lemma level_lt (h : PathInv levels d np) : d.level < levels := h.inLevels d h.mem_hops

lemma of_core {np₀ : NodePath} (h : PathInv levels d np₀) (hc : np₀.core = np.core) :
    PathInv levels d np := by
  have hp := NodePath.path_eq_of_core hc
  have ha := NodePath.arc_eq_of_core hc
  exact ⟨hp ▸ h.last, hp ▸ h.length_arcs, hp ▸ ha ▸ h.head_arc, hp ▸ h.inLevels,
    hp ▸ h.fingerprint_level⟩

end PathInv

/-- A stored destination: under its own coordinate, never empty, every path a live path to it,
no route twice, and within the hard bound. -/
structure DestInv (levels maxPaths : ℕ) (d : HCoord) (dest : Destination) : Prop where
  coord : dest.coord = d
  paths_ne_nil : dest.paths ≠ []
  path : ∀ np ∈ dest.paths, PathInv levels d np
  live : ∀ np ∈ dest.paths, np.path.cost ≠ .dead
  routes_nodup : (dest.paths.map fun np => np.path.route).Nodup
  bounded : dest.paths.length ≤ mandatoryPathFactor * maxPaths

/-- A fingerprint chain long enough to climb to the top. -/
structure ChainInv (levels : ℕ) (fps : List Fp) : Prop where
  length : fps.length = levels + 1
  level : ∀ (l : ℕ) (fp : Fp), fps[l]? = some fp → fp.level = l
  pending : ∀ (l : ℕ) (fp : Fp), fps[l]? = some fp → levels ≤ l + fp.pendingElderships.length

/-- The part of the invariant that keeps every operation from failing. -/
structure MapInv (s : QspnState F) : Prop where
  length_destinations : s.destinations.length = s.levels
  dest : ∀ d dest, s.destination d.level d.pos = some dest →
    DestInv s.levels s.config.maxPaths d dest
  chain : ChainInv s.levels s.myFingerprints
  length_nodesInside : s.myNodesInside.length = s.levels + 1
  peer : ∀ arc peer, s.peerNaddr arc = some peer → peer.topology = s.myNaddr.topology

/-- **The representation invariant.** -/
structure RepInv (s : QspnState F) : Prop extends MapInv s where
  arc_current : ∀ d, ∀ np ∈ s.storedAt d, s.containsArc np.arc = true

namespace MapInv

variable {s : QspnState F}

lemma pathInv (h : MapInv s) {d : HCoord} {np : NodePath} (hnp : np ∈ s.storedAt d) :
    PathInv s.levels d np := by
  obtain ⟨dest, hdest, hnp⟩ := QspnState.mem_storedAt.mp hnp
  exact (h.dest d dest hdest).path np hnp

/-- The stored routes of a destination are distinct. -/
lemma routes_nodup (h : MapInv s) (d : HCoord) :
    ((s.storedAt d).map fun np => np.path.route).Nodup := by
  unfold QspnState.storedAt
  cases hd : s.destination d.level d.pos with
  | none => exact List.nodup_nil
  | some dest => exact (h.dest d dest hd).routes_nodup

/-- A destination met by iterating over a level map is stored under its own coordinate. -/
lemma destination_of_mem (_h : MapInv s) {l : ℕ} {m : KeyedMap UInt32 Destination}
    (hm : s.destinations[l]? = some m) {pos : UInt32} {dest : Destination}
    (hd : (pos, dest) ∈ m.entries) : s.destination l pos = some dest := by
  rw [QspnState.destination, hm, Option.bind_some]
  exact KeyedMap.mem_entries_iff.mp hd

lemma evaluate_ok (h : MapInv s) {d : HCoord} {dest : Destination}
    (hd : s.destination d.level d.pos = some dest) (arcCost : ArcId → Cost) :
    ∃ r, dest.evaluate arcCost = .ok r := by
  have hdest := h.dest d dest hd
  refine Destination.evaluate_ok hdest.paths_ne_nil (fun p hp => ?_) arcCost
  rw [(hdest.path p hp).fingerprint_level, hdest.coord]

/-- The destinations of a level map all evaluate. -/
lemma evaluate_values_ok (h : MapInv s) {l : ℕ} {m : KeyedMap UInt32 Destination}
    (hm : s.destinations[l]? = some m) {dest : Destination} (hd : dest ∈ m.values)
    (arcCost : ArcId → Cost) : ∃ r, dest.evaluate arcCost = .ok r := by
  obtain ⟨pos, hpos⟩ := KeyedMap.mem_values.mp hd
  have hlook := h.destination_of_mem hm hpos
  exact h.evaluate_ok (d := ⟨l, pos⟩) hlook arcCost

theorem exposedPaths_ok (h : MapInv s) (d : HCoord) : ∃ r, s.exposedPaths d = .ok r := by
  unfold QspnState.exposedPaths
  cases hd : s.destination d.level d.pos with
  | none => exact ⟨[], rfl⟩
  | some dest =>
      simp only
      split_ifs
      · exact ⟨[], rfl⟩
      · exact ⟨dest.paths, rfl⟩
      · obtain ⟨r, hr⟩ := h.evaluate_ok hd s.arcCost
        rw [hr]
        exact ⟨_, rfl⟩

theorem snapshot_ok (h : MapInv s) : ∃ r, s.snapshot = .ok r := by
  refine Outcome.mapM_ok fun e _ => ?_
  split_ifs
  · exact ⟨[], rfl⟩
  · have hentries : ∃ r, e.1.values.mapM s.snapshotEntry = .ok r := by
      refine Outcome.mapM_ok fun d _ => ?_
      obtain ⟨exposed, hexposed⟩ := h.exposedPaths_ok d.coord
      unfold QspnState.snapshotEntry
      rw [hexposed, Outcome.ok_bind]
      split_ifs <;> exact ⟨_, rfl⟩
    obtain ⟨entries, hentries⟩ := hentries
    rw [hentries, Outcome.ok_bind]
    exact ⟨_, rfl⟩

/-! ## Climbing the clusters -/

/-- The sum of the sizes below a level fits: a level map has at most `2³²` keys. -/
lemma length_values_le (m : KeyedMap UInt32 Destination) : m.values.length ≤ 2 ^ 32 := by
  have hnd : (m.entries.map fun e => e.1.toNat).Nodup := by
    have := m.nodup.map (f := UInt32.toNat) fun a b hab => UInt32.toNat_inj.mp hab
    simpa [List.map_map, Function.comp_def] using this
  have hsub : (m.entries.map fun e => e.1.toNat) ⊆ List.range (2 ^ 32) := by
    intro x hx
    obtain ⟨e, _, rfl⟩ := List.mem_map.mp hx
    exact List.mem_range.mpr e.1.toNat_lt
  have := (List.subperm_of_subset hnd hsub).length_le
  simpa [KeyedMap.values] using this

lemma clusterSum_ok {childLevel : ℕ} :
    ∀ {l : List Destination} {acc : List Fp × ℕ},
      (∀ d ∈ l, ∃ r, d.evaluate s.arcCost = .ok r) →
      acc.2 + l.length * (2 ^ 32 - 1) < 2 ^ 64 →
      ∃ r, l.foldlM (s.clusterSum childLevel) acc = .ok r ∧
        r.2 ≤ acc.2 + l.length * (2 ^ 32 - 1)
  | [], acc, _, _ => ⟨acc, rfl, by simp⟩
  | d :: l, acc, hev, hsum => by
      obtain ⟨⟨fp, nn, idx⟩, hr⟩ := hev d List.mem_cons_self
      have hnn := nn.toNat_lt
      have hterm : (if childLevel = 0 then 1 else nn.toNat) ≤ 2 ^ 32 - 1 := by
        split_ifs <;> omega
      rw [List.length_cons, Nat.succ_mul] at hsum
      have hlt : acc.2 + (if childLevel = 0 then 1 else nn.toNat) < 2 ^ 64 := by omega
      have hstep : s.clusterSum childLevel acc d =
          .ok (acc.1 ++ [fp], acc.2 + if childLevel = 0 then 1 else nn.toNat) := by
        simp only [QspnState.clusterSum, hr, Outcome.mapErr_ok, Outcome.ok_bind,
          Outcome.checkedAdd_of_lt hlt]
      obtain ⟨r, hfold, hle⟩ : ∃ r, l.foldlM (s.clusterSum childLevel)
          (acc.1 ++ [fp], acc.2 + if childLevel = 0 then 1 else nn.toNat) = .ok r ∧
          r.2 ≤ (acc.2 + if childLevel = 0 then 1 else nn.toNat) + l.length * (2 ^ 32 - 1) :=
        clusterSum_ok (fun d' hd' => hev d' (List.mem_cons_of_mem d hd')) (by simp only; omega)
      refine ⟨r, by rw [List.foldlM_cons, hstep, Outcome.ok_bind, hfold], ?_⟩
      rw [List.length_cons, Nat.succ_mul]
      omega

/-- Everything but the fingerprint chain and the sizes is unchanged. -/
structure SameMap (s s' : QspnState F) : Prop where
  myNaddr : s'.myNaddr = s.myNaddr
  arcs : s'.arcs = s.arcs
  destinations : s'.destinations = s.destinations
  config : s'.config = s.config
  bootstrap : s'.bootstrap = s.bootstrap

lemma SameMap.trans {s₁ s₂ : QspnState F} (h : SameMap s s₁) (h' : SameMap s₁ s₂) :
    SameMap s s₂ :=
  ⟨h'.myNaddr.trans h.myNaddr, h'.arcs.trans h.arcs, h'.destinations.trans h.destinations,
    h'.config.trans h.config, h'.bootstrap.trans h.bootstrap⟩

lemma of_sameMap {s' : QspnState F} (h : MapInv s) (hs : SameMap s s')
    (hchain : ChainInv s.levels s'.myFingerprints)
    (hnodes : s'.myNodesInside.length = s.levels + 1) : MapInv s' := by
  have hlevels : s'.levels = s.levels := by rw [QspnState.levels, hs.myNaddr, QspnState.levels]
  refine ⟨by rw [hs.destinations, hlevels, h.length_destinations], fun d dest hd => ?_,
    hlevels ▸ hchain, hlevels ▸ hnodes, fun arc peer hp => ?_⟩
  · rw [hlevels, hs.config]
    rw [QspnState.destination, hs.destinations] at hd
    exact h.dest d dest hd
  · rw [hs.myNaddr]
    rw [QspnState.peerNaddr, hs.arcs] at hp
    exact h.peer arc peer hp

/-- One level of the climb returns and keeps the invariant. -/
lemma clusterLevel_ok (h : MapInv s) {i : ℕ} (hi : 1 ≤ i) (hi' : i ≤ s.levels) :
    ∃ s' events, s.clusterLevel i = .ok (s', events) ∧ MapInv s' ∧ SameMap s s' := by
  have hlen := h.length_destinations
  have hchild : i - 1 < s.destinations.length := by omega
  have hfps : i - 1 < s.myFingerprints.length := by rw [h.chain.length]; omega
  have hfps' : i < s.myFingerprints.length := by rw [h.chain.length]; omega
  have hnn : i - 1 < s.myNodesInside.length := by rw [h.length_nodesInside]; omega
  have hnn' : i < s.myNodesInside.length := by rw [h.length_nodesInside]; omega
  have hm := List.getElem?_eq_getElem hchild
  have hvalues := length_values_le s.destinations[i - 1]
  obtain ⟨r, hfold, hle⟩ : ∃ r, s.destinations[i - 1].values.foldlM (s.clusterSum (i - 1))
      ([], 0) = .ok r ∧ r.2 ≤ 0 + s.destinations[i - 1].values.length * (2 ^ 32 - 1) :=
    clusterSum_ok (fun d hd => h.evaluate_values_ok hm hd s.arcCost) (by simp only; omega)
  obtain ⟨fpSet, nnTot⟩ := r
  simp only at hle
  have hfp := List.getElem?_eq_getElem hfps
  have hpending := h.chain.pending _ _ hfp
  have hlevel := h.chain.level _ _ hfp
  obtain ⟨newFp, hnew⟩ := Fingerprint.exists_construct (f := s.myFingerprints[i - 1]) (by omega)
    fpSet ((s.myNaddr.isVirtualAt (i - 1)).getD false)
  obtain ⟨hnewLevel, hnewPending⟩ := Fingerprint.level_of_construct hnew
  have hchildNn := s.myNodesInside[i - 1].toNat_lt
  have hsum : s.myNodesInside[i - 1].toNat + nnTot < 2 ^ 64 := by omega
  simp only [QspnState.clusterLevel, Outcome.index_of_lt hchild, Outcome.index_of_lt hfps,
    Outcome.index_of_lt hfps', Outcome.index_of_lt hnn, Outcome.index_of_lt hnn', Outcome.ok_bind,
    hfold, hnew, Outcome.mapErr_ok, Outcome.checkedAdd_of_lt hsum]
  have hsame : SameMap s { s with
      myFingerprints := s.myFingerprints.set i newFp
      myNodesInside := s.myNodesInside.set i
        (UInt32.ofNat (min (s.myNodesInside[i - 1].toNat + nnTot) (2 ^ 32 - 1))) } :=
    ⟨rfl, rfl, rfl, rfl, rfl⟩
  refine ⟨_, _, rfl, h.of_sameMap hsame ⟨?_, ?_, ?_⟩ ?_, hsame⟩
  · simp [h.chain.length]
  · intro l fp hl
    rw [List.getElem?_set] at hl
    split_ifs at hl with hil
    · cases hl
      omega
    · exact h.chain.level l fp hl
  · intro l fp hl
    rw [List.getElem?_set] at hl
    split_ifs at hl with hil
    · cases hl
      omega
    · exact h.chain.pending l fp hl
  · simp [h.length_nodesInside]

/-- **The climb never fails**, and touches nothing but the chain and the sizes. -/
theorem updateClusters_ok (h : MapInv s) :
    ∃ s' events, s.updateClusters = (s', .ok events) ∧ MapInv s' ∧ SameMap s s' := by
  have hloop : ∃ s' bs, Outcome.loop QspnState.clusterStep s (List.range' 1 s.levels) =
      (s', .ok bs) ∧ (MapInv s' ∧ SameMap s s') ∧ ∀ b ∈ bs, True := by
    refine Outcome.loop_ok (P := fun s' => MapInv s' ∧ SameMap s s')
      ⟨h, ⟨rfl, rfl, rfl, rfl, rfl⟩⟩ ?_
    rintro s₁ i ⟨h₁, hsame₁⟩ hi
    have hlevels : s₁.levels = s.levels := by
      rw [QspnState.levels, hsame₁.myNaddr, QspnState.levels]
    rw [List.mem_range'_1] at hi
    obtain ⟨s₂, events, hstep, h₂, hsame₂⟩ := h₁.clusterLevel_ok hi.1 (by omega)
    exact ⟨s₂, events, by rw [QspnState.clusterStep, hstep], ⟨h₂, hsame₁.trans hsame₂⟩, trivial⟩
  obtain ⟨s', events, hrun, ⟨hs', hsame⟩, _⟩ := hloop
  refine ⟨s', events.flatten, ?_, hs', hsame⟩
  rw [QspnState.updateClusters, hrun]
  rfl

end MapInv

end Netsukuku
