import Mathlib
import Netsukuku.Qspn.Diff

/-!
# What a node shows of its map

Consumers see, for each destination, the paths of the winning branch with their total costs.  Which
branch wins depends on the fingerprints of all stored paths, on their order where elderships tie,
and on which of the winner's paths is the cheapest; so a path may come or go from what is shown
without being touched.

* `exposedOf` — what is exposed of a list of paths, whatever their exposure flags.
* `shown`, `routesTo` — the routes a state shows, and those a published snapshot has; the snapshot
  of a state has what the state shows (`routesTo_snapshot`).
* `Undercut` — a further candidate of a stored route is cheaper than the stored path, and the first
  one says nothing new.
* `quiet_turn` — a turn that reports nothing, and undercuts nothing, leaves what is stored; sorted
  paths even in their order.
* `pairwise_turn` — what a turn stores is sorted by total cost.
-/

namespace Netsukuku

variable {F : Type}

/-! ## Exposure -/

/-- The exposed ones among the paths stored for `d`. -/
def exposedOf (arcCost : ArcId → Cost) (d : HCoord) (paths : List NodePath) :
    Outcome QspnError (List NodePath) :=
  if paths = [] then .ok []
  else if d.level = 0 then .ok paths
  else do
    let (validFp, validNn, _) ← ((⟨d, paths⟩ : Destination).evaluate arcCost).mapErr .common
    .ok (paths.filter fun p =>
      p.path.fingerprint.sameBranch validFp p.path.nodesInside validNn)

lemma exposedPaths_eq {s : QspnState F} (h : MapInv s) (d : HCoord) :
    s.exposedPaths d = exposedOf s.arcCost d (s.storedAt d) := by
  unfold QspnState.exposedPaths QspnState.storedAt
  cases hd : s.destination d.level d.pos with
  | none => rfl
  | some dest =>
      obtain ⟨coord, paths⟩ := dest
      obtain rfl : coord = d := (h.dest d _ hd).coord
      rfl

/-- A path with its exposure flag down. -/
def NodePath.bare (np : NodePath) : NodePath := NodePath.new np.arc np.path

lemma map_bare_eq {l l' : List NodePath} (h : l'.map NodePath.core = l.map NodePath.core) :
    l'.map NodePath.bare = l.map NodePath.bare := by
  have := congrArg (List.map fun c : ArcId × EtpPath => NodePath.new c.1 c.2) h
  rwa [List.map_map, List.map_map] at this

lemma winningFingerprint_map_bare (paths : List NodePath) :
    winningFingerprint (paths.map NodePath.bare) = winningFingerprint paths := by
  unfold winningFingerprint
  rw [List.foldlM_map]
  rfl

/-- The evaluation of a destination does not look at exposure flags. -/
lemma evaluate_map_bare (d : HCoord) (paths : List NodePath) (arcCost : ArcId → Cost) :
    (⟨d, paths.map NodePath.bare⟩ : Destination).evaluate arcCost =
      (⟨d, paths⟩ : Destination).evaluate arcCost := by
  have hzip : (paths.map NodePath.bare).zipIdx =
      paths.zipIdx.map fun e => (e.1.bare, e.2) := by
    rw [List.zipIdx_map]
    rfl
  unfold Destination.evaluate
  simp only [winningFingerprint_map_bare, hzip, List.isEmpty_map]
  congr 1
  funext _
  split_ifs
  · rw [Scan.firstMin_map]
    cases h : Scan.firstMin (fun e : NodePath × ℕ => e.1.totalCost (arcCost e.1.arc))
        paths.zipIdx with
    | none => simp only [NodePath.bare, NodePath.new, NodePath.totalCost] at h ⊢; rw [h]; rfl
    | some best => simp only [NodePath.bare, NodePath.new, NodePath.totalCost] at h ⊢; rw [h]; rfl
  · congr 1
    funext winner?
    congr 1
    funext winner
    rw [List.filter_map, Scan.firstMin_map]
    cases h : Scan.firstMin (fun e : NodePath × ℕ => e.1.totalCost (arcCost e.1.arc))
        (paths.zipIdx.filter fun e => e.1.path.fingerprint.identityEq winner) with
    | none =>
        simp only [NodePath.bare, NodePath.new, NodePath.totalCost, Function.comp_def] at h ⊢
        rw [h]
        rfl
    | some best =>
        simp only [NodePath.bare, NodePath.new, NodePath.totalCost, Function.comp_def] at h ⊢
        rw [h]
        rfl

/-- Nor at arcs none of its paths leaves over. -/
lemma evaluate_congr_cost {d : HCoord} {paths : List NodePath} {arcCost arcCost' : ArcId → Cost}
    (h : ∀ np ∈ paths, arcCost np.arc = arcCost' np.arc) :
    (⟨d, paths⟩ : Destination).evaluate arcCost = (⟨d, paths⟩ : Destination).evaluate arcCost' := by
  have hkey : ∀ e ∈ paths.zipIdx,
      e.1.totalCost (arcCost e.1.arc) = e.1.totalCost (arcCost' e.1.arc) := by
    intro e he
    rw [h e.1 (List.fst_mem_of_mem_zipIdx he)]
  unfold Destination.evaluate
  simp only
  rw [Scan.firstMin_congr hkey]
  congr 1
  funext _
  split_ifs
  · rfl
  · congr 1
    funext winner?
    congr 1
    funext winner
    rw [Scan.firstMin_congr fun e he => hkey e (List.mem_filter.mp he).1]

/-- What is exposed depends on what the paths say and on the costs of their arcs. -/
lemma exposedOf_congr {d : HCoord} {paths paths' : List NodePath} {arcCost arcCost' : ArcId → Cost}
    (hcore : paths'.map NodePath.core = paths.map NodePath.core)
    (hcost : ∀ np ∈ paths, arcCost np.arc = arcCost' np.arc) {l : List NodePath}
    (h : exposedOf arcCost d paths = .ok l) :
    ∃ l', exposedOf arcCost' d paths' = .ok l' ∧ l'.map NodePath.core = l.map NodePath.core := by
  have hnil : paths' = [] ↔ paths = [] := by
    rw [← List.map_eq_nil_iff (f := NodePath.core), hcore, List.map_eq_nil_iff]
  have heval : (⟨d, paths'⟩ : Destination).evaluate arcCost' =
      (⟨d, paths⟩ : Destination).evaluate arcCost := by
    rw [← evaluate_map_bare d paths', map_bare_eq hcore, evaluate_map_bare,
      evaluate_congr_cost hcost]
  unfold exposedOf at h ⊢
  rw [heval]
  by_cases hp : paths = []
  · rw [if_pos hp] at h
    cases h
    exact ⟨[], if_pos (hnil.mpr hp), rfl⟩
  rw [if_neg hp] at h
  rw [if_neg (mt hnil.mp hp)]
  by_cases hlevel : d.level = 0
  · rw [if_pos hlevel] at h
    cases h
    exact ⟨paths', if_pos hlevel, hcore⟩
  rw [if_neg hlevel] at h
  rw [if_neg hlevel]
  obtain ⟨⟨validFp, validNn, i⟩, hr, h⟩ := Outcome.bind_eq_ok.mp h
  cases h
  rw [hr]
  refine ⟨_, rfl, ?_⟩
  have hfilter : ∀ paths : List NodePath, (paths.filter fun p =>
      p.path.fingerprint.sameBranch validFp p.path.nodesInside validNn).map NodePath.core =
      (paths.map NodePath.core).filter fun c =>
        c.2.fingerprint.sameBranch validFp c.2.nodesInside validNn := by
    intro paths
    rw [List.filter_map]
    rfl
  rw [hfilter, hfilter, hcore]

lemma mem_of_exposedOf {d : HCoord} {paths l : List NodePath} {arcCost : ArcId → Cost}
    (h : exposedOf arcCost d paths = .ok l) {np : NodePath} (hnp : np ∈ l) : np ∈ paths := by
  unfold exposedOf at h
  split_ifs at h
  · cases h
    cases hnp
  · cases h
    exact hnp
  · obtain ⟨_, -, h⟩ := Outcome.bind_eq_ok.mp h
    cases h
    exact (List.mem_filter.mp hnp).1

lemma mem_of_exposedPaths {s : QspnState F} (hs : MapInv s) {d : HCoord} {l : List NodePath}
    (h : s.exposedPaths d = .ok l) {np : NodePath} (hnp : np ∈ l) : np ∈ s.storedAt d := by
  rw [exposedPaths_eq hs] at h
  exact mem_of_exposedOf h hnp

/-! ## What is shown -/

/-- The routes a state shows for `d`. -/
def shown (s : QspnState F) (d : HCoord) : Set RoutePath :=
  {r | ∃ l, s.exposedPaths d = .ok l ∧ ∃ np ∈ l, toRoutePath np (s.arcCost np.arc) = r}

/-- The routes a snapshot has for `d`. -/
def routesTo (snap : RouteSnapshot) (d : HCoord) : Set RoutePath :=
  {r | ∃ entries ∈ snap, ∃ e ∈ entries, e.destination = d ∧ r ∈ e.paths}

lemma shown_congr {s s' : QspnState F} (hs : MapInv s) (hs' : MapInv s') {d : HCoord}
    (hcore : (s'.storedAt d).map NodePath.core = (s.storedAt d).map NodePath.core)
    (hcost : ∀ np ∈ s.storedAt d, s.arcCost np.arc = s'.arcCost np.arc) :
    shown s' d = shown s d := by
  have hroute : ∀ (np np' : NodePath) (c : Cost), np.core = np'.core →
      toRoutePath np c = toRoutePath np' c := by
    intro np np' c hc
    simp only [toRoutePath, NodePath.totalCost, NodePath.arc_eq_of_core hc,
      NodePath.path_eq_of_core hc]
  obtain ⟨l, hl⟩ := hs.exposedPaths_ok d
  have hl' := hl
  rw [exposedPaths_eq hs] at hl'
  obtain ⟨l', hl', hcl⟩ := exposedOf_congr hcore hcost hl'
  rw [← exposedPaths_eq hs'] at hl'
  have hmem : ∀ np ∈ l, s.arcCost np.arc = s'.arcCost np.arc := fun np hnp =>
    hcost np (mem_of_exposedPaths hs hl hnp)
  ext r
  constructor
  · rintro ⟨l₁, hl₁, np', hnp', rfl⟩
    rw [hl'] at hl₁
    cases hl₁
    obtain ⟨np, hnp, hc⟩ := exists_mem_of_map_core hcl hnp'
    refine ⟨l, hl, np, hnp, ?_⟩
    rw [hmem np hnp, NodePath.arc_eq_of_core hc]
    exact hroute np np' _ hc
  · rintro ⟨l₁, hl₁, np, hnp, rfl⟩
    rw [hl] at hl₁
    cases hl₁
    obtain ⟨np', hnp', hc⟩ := exists_mem_of_map_core hcl.symm hnp
    refine ⟨l', hl', np', hnp', ?_⟩
    rw [NodePath.arc_eq_of_core hc, ← hmem np hnp]
    exact hroute np' np _ hc

/-- **A published snapshot has what the state shows**, once no level is withheld. -/
theorem routesTo_snapshot {s : QspnState F} (hs : MapInv s) (hcomplete : s.bootstrap = .complete)
    {snap : RouteSnapshot} (h : s.snapshot = .ok snap) (d : HCoord) :
    routesTo snap d = shown s d := by
  have hguest : s.guestGnodeLevel = s.levels := by
    rw [QspnState.guestGnodeLevel, hcomplete]
  ext r
  constructor
  · rintro ⟨entries, hentries, e, he, rfl, hr⟩
    obtain ⟨⟨m, l⟩, hml, hrun⟩ := (Outcome.mem_of_mapM h entries).mp hentries
    split_ifs at hrun with hlevel
    · cases hrun
      cases he
    · obtain ⟨os, hos, hrun⟩ := Outcome.bind_eq_ok.mp hrun
      cases hrun
      rw [List.mem_filterMap] at he
      obtain ⟨o, ho, rfl⟩ := he
      obtain ⟨dest, -, hentry⟩ := (Outcome.mem_of_mapM hos _).mp ho
      obtain ⟨exposed, hexposed, hentry⟩ := Outcome.bind_eq_ok.mp hentry
      split_ifs at hentry
      · cases hentry
      · obtain rfl := Option.some.inj (Except.ok.inj hentry)
        rw [List.mem_insertionSort, List.mem_map] at hr
        obtain ⟨np, hnp, rfl⟩ := hr
        exact ⟨exposed, hexposed, np, hnp, rfl⟩
  · rintro ⟨exposed, hexposed, np, hnp, rfl⟩
    obtain ⟨dest, hdest, -⟩ := QspnState.mem_storedAt.mp (mem_of_exposedPaths hs hexposed hnp)
    obtain ⟨m, hm, hget⟩ := Option.bind_eq_some_iff.mp hdest
    have hcoord : dest.coord = d := (hs.dest d dest hdest).coord
    have hlevel : d.level < s.levels := by
      rw [← hs.length_destinations]
      exact (List.getElem?_eq_some_iff.mp hm).1
    obtain ⟨entries, hentries, hrun⟩ := Outcome.exists_of_mapM h (m, d.level)
      (List.mk_mem_zipIdx_iff_getElem?.mpr hm)
    simp only [hguest, not_le.mpr hlevel, if_false] at hrun
    obtain ⟨os, hos, hrun⟩ := Outcome.bind_eq_ok.mp hrun
    cases hrun
    obtain ⟨o, ho, hentry⟩ := Outcome.exists_of_mapM hos dest (KeyedMap.mem_values_of_get? hget)
    rw [QspnState.snapshotEntry, hcoord, hexposed, Outcome.ok_bind,
      if_neg (List.ne_nil_of_mem hnp)] at hentry
    cases hentry
    refine ⟨_, hentries, _, List.mem_filterMap.mpr ⟨_, ho, rfl⟩, rfl, ?_⟩
    rw [List.mem_insertionSort]
    exact List.mem_map.mpr ⟨np, hnp, rfl⟩

/-! ## Turns -/

section Turns

variable [Float64 F]

/-- No stored path is replaced behind its back: where its first candidate says nothing new, no
further candidate of its route is cheaper. -/
def NotUndercut (aChanged : Option ArcId) (s : QspnState F) (q : List NodePath) : Prop :=
  ∀ d, ∀ p1 ∈ s.storedAt d,
    reported s.config.nodesInsideTolerance aChanged (candidatesFor q d) p1 = false →
    ∀ c ∈ (ofRoute p1.path.route (candidatesFor q d)).tail,
      p1.totalCost (s.arcCost p1.arc) ≤ c.totalCost (s.arcCost c.arc)

variable {s : QspnState F} {qd : List NodePath} {d : HCoord} {aChanged : Option ArcId}
  {zSet : List (List HCoord)} {arcCost : ArcId → Cost} {plan : Plan}

/-- The admitted paths are selected from the sorted candidates. -/
lemma admitted_sublist {merged : Merged} {od : List NodePath}
    (h : admitted s arcCost zSet d merged = .ok od) :
    od.Sublist (Scan.dedupOn (fun np => np.path.route) []
      (((merged.od ++ merged.rest).insertionSort fun a b =>
        a.totalCost (arcCost a.arc) ≤ b.totalCost (arcCost b.arc)).filter
          fun np => knowsHops s np.path.route.1)) := by
  obtain ⟨⟨known, nn⟩, hprune, h⟩ := Outcome.bind_eq_ok.mp h
  obtain ⟨vnd, _, h⟩ := Outcome.bind_eq_ok.mp h
  obtain ⟨mch, _, h⟩ := Outcome.bind_eq_ok.mp h
  obtain ⟨a, hadmit, h⟩ := Outcome.bind_eq_ok.mp h
  cases h
  obtain ⟨⟨kept, hkept, hsub, _⟩, _⟩ := admitCandidates_rd hadmit (Nat.zero_le _)
  rw [List.nil_append] at hkept
  rw [pruneUnknown_eq_filter hprune] at hsub
  exact hkept ▸ hsub

/-- **What a turn stores is sorted by total cost.** -/
theorem pairwise_turn (h : planDestination s qd d aChanged zSet arcCost = .ok plan) :
    plan.od.Pairwise fun a b =>
      a.totalCost (arcCost a.arc) ≤ b.totalCost (arcCost b.arc) := by
  obtain ⟨od, hod, hcore⟩ := planDestination_core h
  have hsorted : od.Pairwise fun a b =>
      a.totalCost (arcCost a.arc) ≤ b.totalCost (arcCost b.arc) :=
    (List.pairwise_insertionSort _ _).sublist (((admitted_sublist hod).trans
      (Scan.dedupOn_sublist _ _ _)).trans List.filter_sublist)
  have hmap : ∀ l : List NodePath, (l.map NodePath.core).Pairwise (fun a b =>
      (arcCost a.1).saturatingAdd a.2.cost ≤ (arcCost b.1).saturatingAdd b.2.cost) ↔
      l.Pairwise fun a b => a.totalCost (arcCost a.arc) ≤ b.totalCost (arcCost b.arc) := by
    intro l
    rw [List.pairwise_map]
    rfl
  rw [← hmap, hcore, hmap]
  exact hsorted

/-- **A turn that reports nothing stores what was stored**: it admits the stored paths and no
others, and in their order if they were sorted. -/
theorem quiet_turn (hnd : ((s.storedAt d).map fun p => p.path.route).Nodup)
    (h : planDestination s qd d aChanged zSet arcCost = .ok plan) (hquiet : plan.allPathsSet = [])
    (hundercut : ∀ p1 ∈ s.storedAt d,
      reported s.config.nodesInsideTolerance aChanged qd p1 = false →
      ∀ c ∈ (ofRoute p1.path.route qd).tail,
        p1.totalCost (arcCost p1.arc) ≤ c.totalCost (arcCost c.arc)) :
    (∀ c, c ∈ plan.od.map NodePath.core ↔ c ∈ (s.storedAt d).map NodePath.core) ∧
      (∀ p1 ∈ s.storedAt d,
        reported s.config.nodesInsideTolerance aChanged qd p1 = false) ∧
      (((s.storedAt d).Pairwise fun a b =>
        a.totalCost (arcCost a.arc) ≤ b.totalCost (arcCost b.arc)) →
        plan.od.map NodePath.core = (s.storedAt d).map NodePath.core) := by
  obtain ⟨od, hod, hcore, hpaths⟩ := planDestination_reports h
  obtain ⟨hfrom, _, hodnd, _⟩ := admitted_spec hod
  rw [hpaths, List.append_eq_nil_iff, List.map_eq_nil_iff, List.filter_eq_nil_iff,
    List.flatMap_eq_nil_iff] at hquiet
  obtain ⟨hnew, hknown⟩ := hquiet
  -- a stored path is admitted again, and its merge is not reported
  have hstay : ∀ p ∈ s.storedAt d,
      reported s.config.nodesInsideTolerance aChanged qd p = false ∧ p ∈ od := by
    intro p hp
    have hreport := hknown p hp
    unfold knownReport at hreport
    cases ho : od.find? fun o => o.hopsArcsEqual p.path with
    | none =>
        rw [ho] at hreport
        cases hreport
    | some o =>
        simp only [ho, any_mergeKnown_vd _ _ _ hnd hp, ite_eq_right_iff, List.cons_ne_nil,
          imp_false, Bool.not_eq_true] at hreport
        have hroute : o.path.route = p.path.route := route_of_find? ho
        have hmin := firstMin_of_mem_admitted hod (List.mem_of_find?_eq_some ho)
        rw [hroute, ofRoute_merged hnd hp, mergedWith_of_not_reported hreport,
          Scan.firstMin_cons_of_le (hundercut p hp hreport)] at hmin
        obtain rfl := Option.some.inj hmin
        exact ⟨hreport, List.mem_of_find?_eq_some ho⟩
  have hsame : ∀ o, o ∈ od ↔ o ∈ s.storedAt d := by
    intro o
    refine ⟨fun ho => ?_, fun ho => (hstay o ho).2⟩
    have hstored : (s.storedAt d).any (fun q => q.hopsArcsEqual o.path) = true := by
      by_contra hnone
      exact hnew o ho (by simp [Bool.eq_false_of_not_eq_true hnone])
    obtain ⟨p, hp, hroute⟩ := List.mem_map.mp (any_hopsArcsEqual_iff.mp hstored)
    rw [← Scan.eq_of_key_eq_of_nodup hodnd (hstay p hp).2 ho hroute]
    exact hp
  refine ⟨fun c => ?_, fun p hp => (hstay p hp).1, fun hsorted => ?_⟩
  · rw [hcore]
    constructor
    · rintro hc
      obtain ⟨o, ho, rfl⟩ := List.mem_map.mp hc
      exact List.mem_map_of_mem ((hsame o).mp ho)
    · rintro hc
      obtain ⟨o, ho, rfl⟩ := List.mem_map.mp hc
      exact List.mem_map_of_mem ((hsame o).mpr ho)
  · have hmd : (mergeKnown s.config.nodesInsideTolerance aChanged (s.storedAt d) qd).od =
        s.storedAt d := by
      rw [mergeKnown_od hnd]
      conv_rhs => rw [← List.map_id (s.storedAt d)]
      exact List.map_congr_left fun p hp => mergedWith_of_not_reported (hstay p hp).1
    have hsub := admitted_sublist hod
    rw [hmd] at hsub
    rw [hcore, Scan.eq_of_selected (K := fun k => knowsHops s k.1) hnd hsorted ?_ hsub hsame]
    intro p hp c hc hroute
    refine hundercut p hp (hstay p hp).1 c ?_
    have hc' : c ∈ ofRoute p.path.route
        (mergeKnown s.config.nodesInsideTolerance aChanged (s.storedAt d) qd).rest :=
      List.mem_filter.mpr ⟨hc, decide_eq_true hroute⟩
    rwa [ofRoute_mergeKnown_rest _ hnd, if_pos
      (List.mem_map_of_mem (f := fun p : NodePath => p.path.route) hp)] at hc'

end Turns

end Netsukuku
