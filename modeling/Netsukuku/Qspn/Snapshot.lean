import Mathlib
import Netsukuku.Qspn.Shown
import Netsukuku.Qspn.Handlers
import Netsukuku.Qspn.Debounce

/-!
# The published snapshot

The kernel routes on the last snapshot sent on a watch channel.  Every handler publishes by a gate
of its own: a removal if it removed a path, a map update if it reports a path or the clusters
change.  A change of an arc's cost publishes nothing; it changes the costs of all the paths of the
arc at once, and the gather it asks for brings them up to date.

* `Current` — what is published is what is shown, but for the destinations of a set of owed arcs.
* `Current.removeArc`, `Current.updateMap` — the two operations on the map.
* `gather_current` — the replies of a gather, and what they cover.
* `Watched` — the actor with the channel and its pending gathers.
* `published_current` — in a run that loses no owed arc, what is published is current at rest.
* `not_published_current` — an owed arc that is overwritten leaves an old cost in the channel.
-/

namespace Netsukuku

variable {F : Type}

/-! ## The channel and the gathers -/

/-- What an effect sends on the channel. -/
def Effect.published : Effect → Option RouteSnapshot
  | .publish snapshot => some snapshot
  | _ => none

/-- The value of the channel after some effects. -/
def lastPublished (pub : RouteSnapshot) (effects : List Effect) : RouteSnapshot :=
  effects.foldl (fun pub e => e.published.getD pub) pub

/-- A gather on its way: its changed arc, the withdrawals it carries and the arcs it asks. -/
structure PendingGather where
  aChanged : Option ArcId
  extraDeadPaths : List EtpPath
  arcs : List ArcId

/-- The gather an effect spawns. -/
def Effect.gather? : Effect → Option PendingGather
  | .gather aChanged extraDeadPaths arcs => some ⟨aChanged, extraDeadPaths, arcs⟩
  | _ => none

/-- Every gather asks each arc once. -/
def Asked (effects : List Effect) : Prop :=
  ∀ e ∈ effects, ∀ g, e.gather? = some g → g.arcs.Nodup

/-- An effect that neither publishes nor gathers. -/
def Effect.IsPlain (e : Effect) : Prop := e.published = none ∧ e.gather? = none

lemma lastPublished_append (pub : RouteSnapshot) (l l' : List Effect) :
    lastPublished pub (l ++ l') = lastPublished (lastPublished pub l) l' :=
  List.foldl_append

lemma lastPublished_of_none {l : List Effect} (h : ∀ e ∈ l, e.published = none)
    (pub : RouteSnapshot) : lastPublished pub l = pub := by
  induction l generalizing pub with
  | nil => rfl
  | cons e l ih =>
      rw [lastPublished, List.foldl_cons, h e List.mem_cons_self, Option.getD_none]
      exact ih (fun e' he' => h e' (List.mem_cons_of_mem _ he')) pub

lemma lastPublished_of_plain {l : List Effect} (h : ∀ e ∈ l, e.IsPlain) (pub : RouteSnapshot) :
    lastPublished pub l = pub :=
  lastPublished_of_none (fun e he => (h e he).1) pub

lemma Asked.append {l l' : List Effect} (h : Asked l) (h' : Asked l') : Asked (l ++ l') :=
  fun e he => (List.mem_append.mp he).elim (h e) (h' e)

lemma asked_of_plain {l : List Effect} (h : ∀ e ∈ l, e.IsPlain) : Asked l := by
  intro e he g hg
  rw [(h e he).2] at hg
  cases hg

lemma asked_spawnGather (s : QspnState F) (aChanged : Option ArcId) (extra : List EtpPath) :
    Asked [spawnGather s aChanged extra] := by
  intro e he g hg
  rw [List.mem_singleton.mp he] at hg
  cases hg
  exact s.arcs.nodup

lemma asked_publishIf {changed : Bool} {s : QspnState F} {effects : List Effect}
    (h : publishIf changed s = .ok effects) : Asked effects := by
  unfold publishIf at h
  split_ifs at h
  · obtain ⟨⟨_, snapshot⟩, _, h⟩ := Outcome.bind_eq_ok.mp h
    cases h
    intro e he g hg
    obtain ⟨_, _, rfl⟩ := List.mem_map.mp he
    cases hg
  · cases h
    intro e he
    cases he

lemma plain_emit (events : List QspnEvent) : ∀ e ∈ events.map Effect.emit, e.IsPlain := by
  intro e he
  obtain ⟨event, -, rfl⟩ := List.mem_map.mp he
  exact ⟨rfl, rfl⟩

lemma plain_mapEffects (out : UpdateMapOutcome) (events : List QspnEvent) :
    ∀ e ∈ mapEffects out events, e.IsPlain := by
  intro e he
  simp only [mapEffects, List.mem_append] at he
  rcases he with ((he | he) | he) | he
  · exact plain_emit _ e he
  · split_ifs at he
    · cases he
    · rw [List.mem_singleton.mp he]
      exact ⟨rfl, rfl⟩
  · rw [List.mem_singleton.mp he]
    exact ⟨rfl, rfl⟩
  · exact plain_emit _ e he

lemma plain_spawnBroadcast (arcs : List ArcId) (msg : EtpMessage) (isFull : Bool) :
    ∀ e ∈ spawnBroadcast arcs msg isFull, e.IsPlain := by
  intro e he
  unfold spawnBroadcast at he
  split_ifs at he
  · cases he
  · rw [List.mem_singleton.mp he]
    exact ⟨rfl, rfl⟩

lemma plain_singleton {e : Effect} (h : e.IsPlain) : ∀ e' ∈ [e], e'.IsPlain := by
  intro e' he'
  rwa [List.mem_singleton.mp he']

/-! ## Current -/

/-- A state whose stored paths are sorted by total cost, but for those of the arcs in `D`. -/
structure SortedBut (D : Set ArcId) (s : QspnState F) : Prop where
  rep : RepInv s
  complete : s.bootstrap = .complete
  sorted : ∀ d, (s.storedAt d).Pairwise fun a b => a.arc ∉ D → b.arc ∉ D →
    a.totalCost (s.arcCost a.arc) ≤ b.totalCost (s.arcCost b.arc)

/-- What is published is what is shown, but for the destinations that have paths of the arcs in
`D`. -/
structure Current (D : Set ArcId) (pub : RouteSnapshot) (s : QspnState F) : Prop
    extends SortedBut D s where
  shown : ∀ d, (∀ np ∈ s.storedAt d, np.arc ∉ D) → shown s d = routesTo pub d

section States

variable {D D' : Set ArcId} {pub : RouteSnapshot} {s s' : QspnState F} {arc : ArcId}

/-- Only the arcs that have stored paths matter. -/
lemma SortedBut.congr (h : SortedBut D s)
    (hD : ∀ d, ∀ np ∈ s.storedAt d, np.arc ∈ D → np.arc ∈ D') : SortedBut D' s :=
  ⟨h.rep, h.complete, fun d => (h.sorted d).imp_of_mem fun ha hb hle ha' hb' =>
    hle (fun hD' => ha' (hD d _ ha hD')) fun hD' => hb' (hD d _ hb hD')⟩

lemma Current.congr (h : Current D pub s)
    (hD : ∀ d, ∀ np ∈ s.storedAt d, np.arc ∈ D → np.arc ∈ D') : Current D' pub s :=
  ⟨h.toSortedBut.congr hD, fun d hd => h.shown d fun np hnp hin => hd np hnp (hD d np hnp hin)⟩

/-- A snapshot that is sent is current. -/
lemma SortedBut.publishIf (h : SortedBut D s) {changed : Bool} {effects : List Effect}
    (hrun : publishIf changed s = .ok effects) (hquiet : changed = false → Current D pub s) :
    Current D (lastPublished pub effects) s := by
  unfold Netsukuku.publishIf at hrun
  split_ifs at hrun with hchanged
  · obtain ⟨snap, hsnap⟩ := h.rep.snapshot_ok
    rw [publishSnapshot, hsnap] at hrun
    cases hrun
    exact ⟨h, fun d _ => (routesTo_snapshot h.rep.toMapInv h.complete hsnap d).symm⟩
  · cases hrun
    exact hquiet (Bool.eq_false_of_not_eq_true hchanged)

/-- An operation that neither touches the map nor the cost of an arc with stored paths. -/
lemma SortedBut.sameMap (h : SortedBut D s) (hs' : RepInv s') (hboot : s'.bootstrap = s.bootstrap)
    (hstored : ∀ d, s'.storedAt d = s.storedAt d)
    (hcost : ∀ d, ∀ np ∈ s.storedAt d, s.arcCost np.arc = s'.arcCost np.arc) : SortedBut D s' := by
  refine ⟨hs', hboot.trans h.complete, fun d => ?_⟩
  rw [hstored]
  refine (h.sorted d).imp_of_mem fun ha hb hle ha' hb' => ?_
  rw [← hcost d _ ha, ← hcost d _ hb]
  exact hle ha' hb'

lemma Current.sameMap (h : Current D pub s) (hs' : RepInv s') (hboot : s'.bootstrap = s.bootstrap)
    (hstored : ∀ d, s'.storedAt d = s.storedAt d)
    (hcost : ∀ d, ∀ np ∈ s.storedAt d, s.arcCost np.arc = s'.arcCost np.arc) :
    Current D pub s' := by
  refine ⟨h.toSortedBut.sameMap hs' hboot hstored hcost, fun d hd => ?_⟩
  rw [hstored] at hd
  rw [shown_congr h.rep.toMapInv hs'.toMapInv (by rw [hstored]) (hcost d), h.shown d hd]

/-- The clusters are climbed without touching the map. -/
lemma updateClusters_frame (h : RepInv s) :
    s.updateClusters.1.bootstrap = s.bootstrap ∧ s.updateClusters.1.arcs = s.arcs ∧
      ∀ d, s.updateClusters.1.storedAt d = s.storedAt d := by
  obtain ⟨s₁, events, hrun, hs₁, hsame⟩ := h.updateClusters_ok
  rw [hrun]
  refine ⟨hsame.bootstrap, hsame.arcs, fun d => ?_⟩
  rw [QspnState.storedAt, QspnState.destination, hsame.destinations]
  rfl

lemma arcCost_congr (h : s'.arcs = s.arcs) (arc : ArcId) : s.arcCost arc = s'.arcCost arc := by
  rw [QspnState.arcCost, QspnState.arcCost, h]

lemma SortedBut.updateClusters (h : SortedBut D s) : SortedBut D s.updateClusters.1 := by
  obtain ⟨hboot, harcs, hstored⟩ := updateClusters_frame h.rep
  exact h.sameMap h.rep.updateClusters hboot hstored fun _ np _ => arcCost_congr harcs np.arc

lemma Current.updateClusters (h : Current D pub s) : Current D pub s.updateClusters.1 := by
  obtain ⟨hboot, harcs, hstored⟩ := updateClusters_frame h.rep
  exact h.sameMap h.rep.updateClusters hboot hstored fun _ np _ => arcCost_congr harcs np.arc

/-! ## The arcs -/

lemma arcCost_insertArc {id arc : ArcId} {e : ArcEntry} (hne : arc ≠ id) :
    ({ s with arcs := s.arcs.insertOrdered id e } : QspnState F).arcCost arc = s.arcCost arc := by
  simp only [QspnState.arcCost, KeyedMap.get?_insertOrdered, KeyedMap.get?_insert_of_ne _ _ hne]

/-- A new arc has no paths. -/
lemma Current.addArc (h : Current D pub s) {id : ArcId} (hid : s.containsArc id = false)
    (cost : Cost) : Current D pub (s.addArc id cost) := by
  refine h.sameMap (h.rep.addArc id cost) rfl (fun _ => rfl) fun d np hnp => ?_
  have hne : np.arc ≠ id := by
    rintro rfl
    rw [h.rep.arc_current d np hnp] at hid
    cases hid
  exact (arcCost_insertArc hne).symm

/-- A new cost makes the paths of its arc owed. -/
lemma Current.setArcCost (h : Current D pub s) (arc : ArcId) (cost : Cost) :
    Current (insert arc D) pub (s.setArcCost arc cost) := by
  have hrep := h.rep.setArcCost arc cost
  unfold QspnState.setArcCost at hrep ⊢
  cases he : s.arcs.get? arc with
  | none => exact h.congr fun _ _ _ => Set.mem_insert_of_mem arc
  | some e =>
      rw [he] at hrep
      have hcost : ∀ np : NodePath, np.arc ∉ insert arc D →
          ({ s with arcs := s.arcs.insertOrdered arc { e with cost } } : QspnState F).arcCost
            np.arc = s.arcCost np.arc := fun np hnp =>
        arcCost_insertArc fun heq => hnp (heq ▸ Set.mem_insert arc D)
      refine ⟨⟨hrep, h.complete, fun d => (h.sorted d).imp fun hle ha hb => ?_⟩, fun d hd => ?_⟩
      · rw [hcost _ ha, hcost _ hb]
        exact hle (fun hD => ha (Set.mem_insert_of_mem arc hD))
          fun hD => hb (Set.mem_insert_of_mem arc hD)
      · have hd' : ∀ np ∈ s.storedAt d, np.arc ∉ insert arc D := hd
        rw [← h.shown d fun np hnp hD => hd' np hnp (Set.mem_insert_of_mem arc hD)]
        exact shown_congr h.rep.toMapInv hrep.toMapInv rfl fun np hnp =>
          (hcost np (hd' np hnp)).symm

lemma Current.recordPeerNaddr (h : Current D pub s) (arc : ArcId) {n : Naddr}
    (hn : n.topology = s.myNaddr.topology) : Current D pub (s.recordPeerNaddr arc n).1 := by
  have hrep := h.rep.recordPeerNaddr arc hn
  unfold QspnState.recordPeerNaddr at hrep ⊢
  cases he : s.arcs.get? arc with
  | none => exact h
  | some e =>
      rw [he] at hrep
      refine h.sameMap hrep rfl (fun _ => rfl) fun d np _ => ?_
      by_cases hne : np.arc = arc
      · simp only [QspnState.arcCost, KeyedMap.get?_insertOrdered, hne, KeyedMap.get?_insert_self,
          he]
      · exact (arcCost_insertArc hne).symm

lemma arcCost_removeArc {arc arc' : ArcId} (hne : arc' ≠ arc) :
    (s.removeArc arc).1.arcCost arc' = s.arcCost arc' := by
  unfold QspnState.removeArc
  split_ifs
  · simp only [QspnState.arcCost, KeyedMap.get?_erase_of_ne _ hne]
  · rfl

/-- A removal without events found no path of the arc. -/
lemma removeArc_silent (hc : s.containsArc arc = true) (h : (s.removeArc arc).2.events = [])
    {d : HCoord} {np : NodePath} (hnp : np ∈ s.storedAt d) : np.arc ≠ arc := by
  rintro rfl
  rw [QspnState.removeArc, if_pos hc] at h
  obtain ⟨dest, hdest, hnp⟩ := QspnState.mem_storedAt.mp hnp
  obtain ⟨m, hm, hget⟩ := Option.bind_eq_some_iff.mp hdest
  have hevent : QspnEvent.pathRemoved (toRoutePath np .dead) ∈
      s.destinations.flatMap (QspnState.removalEvents np.arc) := by
    refine List.mem_flatMap.mpr ⟨m, List.mem_of_getElem? hm, List.mem_append_left _ ?_⟩
    refine List.mem_flatMap.mpr ⟨dest, KeyedMap.mem_values_of_get? hget, ?_⟩
    exact List.mem_map.mpr ⟨np, List.mem_filter.mpr ⟨hnp, decide_eq_true rfl⟩, rfl⟩
  exact List.ne_nil_of_mem hevent h

lemma SortedBut.removeArc (h : SortedBut D s) (arc : ArcId) :
    SortedBut D (s.removeArc arc).1 := by
  refine ⟨h.rep.removeArc arc, ?_, fun d => ?_⟩
  · unfold QspnState.removeArc
    split_ifs
    · exact h.complete
    · exact h.complete
  by_cases hc : s.containsArc arc = true
  · rw [QspnState.storedAt_removeArc s hc]
    refine ((h.sorted d).sublist List.filter_sublist).imp_of_mem fun ha hb hle ha' hb' => ?_
    rw [arcCost_removeArc (of_decide_eq_true (List.mem_filter.mp ha).2),
      arcCost_removeArc (of_decide_eq_true (List.mem_filter.mp hb).2)]
    exact hle ha' hb'
  · rw [QspnState.removeArc_of_not_contains hc]
    exact h.sorted d

/-- **A removal that publishes on events is current.** -/
lemma Current.removeArc (h : Current D pub s) (arc : ArcId) {effects : List Effect}
    (hrun : publishIf (decide ((s.removeArc arc).2.events ≠ [])) (s.removeArc arc).1 =
      .ok effects) : Current D (lastPublished pub effects) (s.removeArc arc).1 := by
  refine (h.toSortedBut.removeArc arc).publishIf hrun fun hevents => ?_
  have hevents : (s.removeArc arc).2.events = [] := by simpa using hevents
  by_cases hc : s.containsArc arc = true
  · have hgone : ∀ d, ∀ np ∈ s.storedAt d, np.arc ≠ arc := fun d np hnp =>
      removeArc_silent hc hevents hnp
    refine h.sameMap (h.rep.removeArc arc) ?_ (fun d => ?_) fun d np hnp =>
      (arcCost_removeArc (hgone d np hnp)).symm
    · rw [QspnState.removeArc, if_pos hc]
    · rw [QspnState.storedAt_removeArc s hc]
      exact List.filter_eq_self.mpr fun np hnp => decide_eq_true (hgone d np hnp)
  · rw [QspnState.removeArc_of_not_contains hc]
    exact h

end States

/-! ## A map update -/

section Updates

variable [Float64 F] {D D' : Set ArcId} {pub : RouteSnapshot} {s s' : QspnState F}
  {q : List NodePath} {aChanged : Option ArcId} {order : MapOrder} {out : UpdateMapOutcome}

/-- The candidates reach every destination of the arcs that are owed no longer, and those arcs
are the one that changed. -/
def Covers (D D' : Set ArcId) (aChanged : Option ArcId) (s : QspnState F) (q : List NodePath) :
    Prop :=
  ∀ d, ∀ np ∈ s.storedAt d, np.arc ∈ D → np.arc ∉ D' →
    aChanged = some np.arc ∧ ∃ c ∈ q, c.path.hops.getLast? = some d

/-- An update sorts what it touches. -/
lemma SortedBut.updateMap (h : SortedBut D s) (hs' : RepInv s') (hcover : Covers D D' aChanged s q)
    (hrun : updateMap order s q aChanged = (s', .ok out)) : SortedBut D' s' := by
  obtain ⟨zSet, keys, _, _, hkeys, _, hother, hturns⟩ := updateMap_turns hrun
  obtain ⟨hframe, _⟩ := updateMap_storedFrom order s q aChanged
  rw [hrun] at hframe
  have hcost : s'.arcCost = s.arcCost := funext fun arc => (arcCost_congr hframe.arcs arc).symm
  refine ⟨hs', hframe.bootstrap.trans h.complete, fun d => ?_⟩
  rw [hcost]
  by_cases hd : d ∈ keys
  · obtain ⟨t, ht, rfl⟩ := exists_turn order aChanged zSet s.arcCost q s hd
    obtain ⟨_, _, plan, hplan, hafter⟩ := hturns t ht
    rw [hafter]
    exact (pairwise_turn hplan).imp fun hle _ _ => hle
  · -- an arc owed no longer has no path here, or the call would have touched it
    have hout : ∀ np ∈ s.storedAt d, np.arc ∉ D' → np.arc ∉ D := fun np hnp hD' hD =>
      hd ((hkeys d).mpr (hcover d np hnp hD hD').2)
    rw [hother d hd]
    exact (h.sorted d).imp_of_mem fun ha hb hle ha' hb' => hle (hout _ ha ha') (hout _ hb hb')

/-- **An update that reports nothing changes nothing that is shown.** -/
lemma Current.updateMap (h : Current D pub s) (hs' : RepInv s') (hcover : Covers D D' aChanged s q)
    (hundercut : NotUndercut aChanged s q)
    (hrun : updateMap order s q aChanged = (s', .ok out)) (hquiet : out.allPathsSet = []) :
    Current D' pub s' := by
  have hsorted := h.toSortedBut.updateMap hs' hcover hrun
  obtain ⟨zSet, keys, _, _, hkeys, hpaths, hother, hturns⟩ := updateMap_turns hrun
  obtain ⟨hframe, _⟩ := updateMap_storedFrom order s q aChanged
  rw [hrun] at hframe
  rw [hquiet, eq_comm, List.flatMap_eq_nil_iff] at hpaths
  have hcost : s'.arcCost = s.arcCost := funext fun arc => (arcCost_congr hframe.arcs arc).symm
  refine ⟨hsorted, fun d hd => ?_⟩
  suffices hsame : (s'.storedAt d).map NodePath.core = (s.storedAt d).map NodePath.core ∧
      ∀ np ∈ s.storedAt d, np.arc ∉ D by
    rw [← h.shown d hsame.2]
    exact shown_congr h.rep.toMapInv hs'.toMapInv hsame.1 fun _ _ => by rw [hcost]
  by_cases hkey : d ∈ keys
  · obtain ⟨t, ht, rfl⟩ := exists_turn order aChanged zSet s.arcCost q s hkey
    obtain ⟨hturn, hbefore, plan, hplan, hafter⟩ := hturns t ht
    have hreports : plan.allPathsSet = [] := by
      have := hpaths t ht
      rwa [turnReports, hplan] at this
    obtain ⟨hmem, hstay, hlist⟩ := quiet_turn (by rw [hbefore]; exact h.rep.routes_nodup t.2)
      hplan hreports (by rw [hbefore, hturn.config]; exact hundercut t.2)
    rw [hbefore] at hmem hstay hlist
    rw [hafter] at hd ⊢
    have hout : ∀ np ∈ s.storedAt t.2, np.arc ∉ D := by
      intro np hnp hD
      obtain ⟨np', hnp', hcore⟩ :=
        List.mem_map.mp ((hmem np.core).mpr (List.mem_map_of_mem hnp))
      have hD' : np.arc ∉ D' := NodePath.arc_eq_of_core hcore ▸ hd np' hnp'
      have hreport := hstay np hnp
      rw [reported, (hcover t.2 np hnp hD hD').1, decide_eq_true rfl, Bool.true_or] at hreport
      cases hreport
    refine ⟨hlist ?_, hout⟩
    exact (h.sorted t.2).imp_of_mem fun ha hb hle => hle (hout _ ha) (hout _ hb)
  · rw [hother d hkey] at hd ⊢
    exact ⟨rfl, fun np hnp hD => hkey ((hkeys d).mpr (hcover d np hnp hD (hd np hnp)).2)⟩

end Updates

/-! ## Removals and gathers -/

/-- What a handler makes of a current state: a current state, and no new arc. -/
structure Publishes (D : Set ArcId) (pub : RouteSnapshot) (s : QspnState F)
    (r : QspnState F × List Effect) : Prop where
  current : Current D (lastPublished pub r.2) r.1
  arcs : ∀ arc, r.1.containsArc arc = true → s.containsArc arc = true
  asked : Asked r.2

lemma Current.publishes {D : Set ArcId} {pub : RouteSnapshot} {s : QspnState F}
    (h : Current D pub s) : Publishes D pub s (s, []) :=
  ⟨h, fun _ ha => ha, fun e he => by cases he⟩

section Gathers

variable {D : Set ArcId} {pub : RouteSnapshot} {s s' : QspnState F}

lemma containsArc_removeArc {arc a : ArcId} (h : (s.removeArc arc).1.containsArc a = true) :
    s.containsArc a = true ∧ a ≠ arc := by
  by_cases hc : s.containsArc arc = true
  · rw [QspnState.removeArc, if_pos hc] at h
    exact (KeyedMap.contains_erase.mp h).symm
  · rw [QspnState.removeArc_of_not_contains hc] at h
    exact ⟨h, fun ha => hc (ha ▸ h)⟩

lemma doRemoveArc_eq_ok {arc : ArcId} {badLink : Bool} {r : QspnState F × List Effect}
    (hrun : doRemoveArc s arc badLink = .ok r) :
    ∃ published, publishIf (decide ((s.removeArc arc).2.events ≠ [])) (s.removeArc arc).1 =
        .ok published ∧
      r = ((s.removeArc arc).1, (s.removeArc arc).2.events.map .emit ++
        [.emit (.arcRemoved arc badLink)] ++ published ++
        if (s.removeArc arc).2.deadPaths = [] then []
        else [spawnGather (s.removeArc arc).1 none (s.removeArc arc).2.deadPaths]) := by
  obtain ⟨published, hpub, hrun⟩ := Outcome.bind_eq_ok.mp hrun
  exact ⟨published, hpub, (Except.ok.inj hrun).symm⟩

lemma doRemoveArc_publishes (h : Current D pub s) {arc : ArcId} {badLink : Bool}
    {r : QspnState F × List Effect} (hrun : doRemoveArc s arc badLink = .ok r) :
    r.1 = (s.removeArc arc).1 ∧ Publishes D pub s r := by
  obtain ⟨published, hpub, rfl⟩ := doRemoveArc_eq_ok hrun
  have hemit : ∀ e ∈ (s.removeArc arc).2.events.map .emit ++ [.emit (.arcRemoved arc badLink)],
      Effect.IsPlain e := fun e he => (List.mem_append.mp he).elim (plain_emit _ e)
    (plain_singleton ⟨rfl, rfl⟩ e)
  refine ⟨rfl, ?_, fun a ha => (containsArc_removeArc ha).1,
    ((asked_of_plain hemit).append (asked_publishIf hpub)).append ?_⟩
  · have hlast : ∀ e ∈ (if (s.removeArc arc).2.deadPaths = [] then []
        else [spawnGather (s.removeArc arc).1 none (s.removeArc arc).2.deadPaths]),
        e.published = none := by
      intro e he
      split_ifs at he
      · cases he
      · rw [List.mem_singleton.mp he]
        rfl
    rw [lastPublished_append, lastPublished_of_none hlast, lastPublished_append,
      lastPublished_of_plain hemit]
    exact h.removeArc arc hpub
  · split_ifs
    · exact fun e he => by cases he
    · exact asked_spawnGather _ _ _

lemma handleRemoveArc_publishes (h : Current D pub s) {arc : ArcId} {r : QspnState F × List Effect}
    (hrun : handleRemoveArc s arc = .ok r) : Publishes D pub s r := by
  unfold handleRemoveArc at hrun
  split_ifs at hrun
  · obtain ⟨published, hpub, hrun⟩ := Outcome.bind_eq_ok.mp hrun
    obtain rfl := Except.ok.inj hrun
    refine ⟨?_, fun a ha => (containsArc_removeArc ha).1, ((asked_of_plain (plain_emit _)).append
      (asked_publishIf hpub)).append (asked_spawnGather _ _ _)⟩
    rw [lastPublished_append, lastPublished_of_none (by simp [spawnGather, Effect.published]),
      lastPublished_append, lastPublished_of_plain (plain_emit _)]
    exact h.removeArc arc hpub
  · cases hrun
    exact h.publishes

lemma forwardIngested_current (h : SortedBut D s) {arc : ArcId} {i : Ingested}
    (hquiet : i.changed = false → Current D pub s) {effects : List Effect}
    (hrun : forwardIngested s arc i = .ok effects) :
    Current D (lastPublished pub effects) s ∧ Asked effects := by
  obtain ⟨published, hpub, hrun⟩ := Outcome.bind_eq_ok.mp hrun
  have hcur := h.publishIf hpub hquiet
  split_ifs at hrun
  · obtain ⟨wire, -, hrun⟩ := Outcome.bind_eq_ok.mp hrun
    obtain ⟨m, -, hrun⟩ := Outcome.bind_eq_ok.mp hrun
    cases hrun
    refine ⟨?_, (asked_publishIf hpub).append (asked_of_plain (plain_spawnBroadcast _ _ _))⟩
    rw [lastPublished_append, lastPublished_of_plain (plain_spawnBroadcast _ _ _)]
    exact hcur
  · cases hrun
    exact ⟨hcur, asked_publishIf hpub⟩

/-- The revision takes the message: it has a size for every level, and its trail does not come
back to the receiver. -/
def Heard (me : Naddr) (m : EtpMessage) : Prop :=
  m.nodesInside.length = me.topology.levels + 1 ∧
    ∀ v, me.hcoord m.nodeAddress = .ok (some v) →
      ∀ g ∈ groupHops v m.hops, me.pos g.level ≠ some g.pos

lemma Heard.revise {me : Naddr} {m : EtpMessage} (h : Heard me m)
    (hin : checkIncomingMessage m me = true) (arc : ArcId) (oldPeer : Option Naddr) (isFull : Bool)
    (existing : List NodePath) : ∃ r, reviseEtp me m arc oldPeer isFull existing = .ok r := by
  obtain ⟨htop, hne, hw⟩ := checkIncomingMessage_iff.mp hin
  obtain ⟨v, hv⟩ := Naddr.exists_hcoord_of_ne htop.symm hne.symm
  have hlev := (Naddr.hcoord_eq_some.mp hv).2.1
  have hf : v.level < m.fingerprints.length := by
    rw [hw.length_fingerprints]
    omega
  have hn : v.level < m.nodesInside.length := by
    rw [h.1]
    omega
  have hfp := List.getElem?_eq_getElem hf
  obtain ⟨moved, hmoved, _⟩ : ∃ moved, movedAway me m arc oldPeer v = .ok moved ∧ _ :=
    movedAway_ok hw.length_fingerprints h.1
  exact ⟨_, (reviseEtp_eq_ok fun p hp => (hw.paths_ok p hp).length_arcs).mpr
    ⟨hw.length_fingerprints, h.1, v, _, _, moved, hv, h.2 v hv, hfp,
      hw.fingerprint_level _ _ hfp, List.getElem?_eq_getElem hn, hmoved, rfl⟩⟩

/-- The candidates reach every destination the arc has a path to. -/
def Reaches (arc : ArcId) (s : QspnState F) (q : List NodePath) : Prop :=
  ∀ d, ∀ np ∈ s.storedAt d, np.arc = arc → ∃ c ∈ q, c.path.hops.getLast? = some d

/-- A full reply reaches all its arc has. -/
lemma reaches_reviseOver (hs : RepInv s) {arc : ArcId} {m : EtpMessage}
    (hin : checkIncomingMessage m s.myNaddr = true) {r : RevisedEtp}
    (hrev : (s.reviseOver arc m true).2 = .ok r) :
    Reaches arc (s.reviseOver arc m true).1 r.paths := by
  intro d np hnp harc
  rw [QspnState.reviseOver_fst, QspnState.recordPeerNaddr_storedAt] at hnp
  rw [QspnState.reviseOver_snd, if_pos rfl] at hrev
  have hinv := hs.pathInv hnp
  obtain ⟨c, hc, hroute⟩ := exists_candidate_of_existing (checkIncomingMessage_iff.mp hin).2.2 hrev
    (QspnState.mem_pathsViaArc0_of_storedAt hnp (hinv.head_arc.trans (congrArg some harc)))
  exact ⟨c, hc, by rw [show c.path.hops = np.path.hops from congrArg Prod.fst hroute, hinv.last]⟩

/-- The gather so far, with the arcs whose replies are still to come. -/
structure Gathering (D : Set ArcId) (pub : RouteSnapshot) (rest : List ArcId)
    (acc : QspnState F × List Effect × List NodePath) : Prop where
  current : Current D (lastPublished pub acc.2.1) acc.1
  candidates : CandidatesOk acc.1.levels acc.2.2
  arcs : ∀ np ∈ acc.2.2, acc.1.containsArc np.arc = true ∧ np.arc ∉ rest
  asked : Asked acc.2.1

/-- What the replies never undo. -/
structure GatherFrame (acc acc' : QspnState F × List Effect × List NodePath) : Prop where
  myNaddr : acc'.1.myNaddr = acc.1.myNaddr
  arcs : ∀ arc, acc'.1.containsArc arc = true → acc.1.containsArc arc = true
  stored : ∀ d, ∀ np ∈ acc'.1.storedAt d, np ∈ acc.1.storedAt d
  candidates : ∀ c ∈ acc.2.2, c ∈ acc'.2.2

lemma GatherFrame.refl (acc : QspnState F × List Effect × List NodePath) : GatherFrame acc acc :=
  ⟨rfl, fun _ h => h, fun _ _ h => h, fun _ h => h⟩

lemma GatherFrame.trans {a b c : QspnState F × List Effect × List NodePath}
    (h : GatherFrame a b) (h' : GatherFrame b c) : GatherFrame a c :=
  ⟨h'.myNaddr.trans h.myNaddr, fun arc ha => h.arcs arc (h'.arcs arc ha),
    fun d np hnp => h.stored d np (h'.stored d np hnp),
    fun x hx => h'.candidates x (h.candidates x hx)⟩

lemma GatherFrame.reaches {acc acc' : QspnState F × List Effect × List NodePath}
    (h : GatherFrame acc acc') {arc : ArcId} (hr : Reaches arc acc.1 acc.2.2) :
    Reaches arc acc'.1 acc'.2.2 := by
  intro d np hnp harc
  obtain ⟨c, hc, hlast⟩ := hr d np (h.stored d np hnp) harc
  exact ⟨c, h.candidates c hc, hlast⟩

lemma myNaddr_removeArc (s : QspnState F) (arc : ArcId) :
    (s.removeArc arc).1.myNaddr = s.myNaddr := by
  unfold QspnState.removeArc
  split_ifs <;> rfl

/-- An arc that is gone has no paths to reach. -/
lemma reaches_of_not_contains (hs : RepInv s) {arc : ArcId} (harc : ¬ s.containsArc arc = true)
    (q : List NodePath) : Reaches arc s q :=
  fun d np hnp hnparc => absurd (hnparc ▸ hs.arc_current d np hnp) harc

/-- **One reply of a gather.** -/
lemma gatherStep_current {reply : ArcId × Option EtpMessage} {rest : List ArcId}
    {acc acc' : QspnState F × List Effect × List NodePath}
    (h : Gathering D pub (reply.1 :: rest) acc) (hnd : reply.1 ∉ rest)
    (hrun : gatherStep acc reply = .ok acc') :
    Gathering D pub rest acc' ∧ GatherFrame acc acc' ∧
      ((∀ m, reply.2 = some m → checkIncomingMessage m acc.1.myNaddr = true →
        Heard acc.1.myNaddr m) → Reaches reply.1 acc'.1 acc'.2.2) := by
  obtain ⟨s, effects, q⟩ := acc
  obtain ⟨hcur, hq, harcs, hasked⟩ := h
  simp only at hcur hq harcs hasked
  have hcur₀ := hcur.rep
  rcases gatherStep_cases hrun with ⟨hgone, rfl⟩ | ⟨hc, badLink, s₁, removed, hremove, rfl⟩ |
    ⟨hc, m, hreply, hin, hcase⟩
  · exact ⟨⟨hcur, hq, fun np hnp => ⟨(harcs np hnp).1, fun hr =>
      (harcs np hnp).2 (List.mem_cons_of_mem _ hr)⟩, hasked⟩, GatherFrame.refl _,
      fun _ => reaches_of_not_contains hcur₀ hgone q⟩
  · obtain ⟨rfl, hcur₁, hmono, hremoved⟩ := doRemoveArc_publishes hcur hremove
    rw [← lastPublished_append] at hcur₁
    have haddr := myNaddr_removeArc s reply.1
    refine ⟨⟨hcur₁, ?_, fun np hnp => ⟨?_, fun hr => (harcs np hnp).2
      (List.mem_cons_of_mem _ hr)⟩, hasked.append hremoved⟩, ⟨haddr, hmono, fun d np =>
        NodeInv.storedAt_removeArc_subset s reply.1 d, fun _ h => h⟩, fun _ => ?_⟩
    · rwa [QspnState.levels, haddr]
    · -- the candidates so far came in over other arcs
      obtain ⟨hnparc, hne⟩ := harcs np hnp
      rw [List.mem_cons, not_or] at hne
      rw [QspnState.removeArc, if_pos hc]
      exact KeyedMap.contains_erase.mpr ⟨hne.1, hnparc⟩
    · exact reaches_of_not_contains hcur₁.rep (fun h => (containsArc_removeArc h).2 rfl) q
  · have htop := (checkIncomingMessage_iff.mp hin).1
    have hcur₁ : Current D (lastPublished pub effects) (s.reviseOver reply.1 m true).1 :=
      hcur.recordPeerNaddr reply.1 htop
    have hframe : ∀ q', (∀ c ∈ q, c ∈ q') →
        GatherFrame (s, effects, q) ((s.reviseOver reply.1 m true).1, effects, q') := by
      intro q' hq'
      refine ⟨QspnState.recordPeerNaddr_myNaddr s reply.1 m.nodeAddress, fun arc ha => ?_,
        fun d np hnp => ?_, hq'⟩
      · rwa [QspnState.reviseOver_fst, QspnState.recordPeerNaddr_containsArc] at ha
      · rwa [QspnState.reviseOver_fst, QspnState.recordPeerNaddr_storedAt] at hnp
    have hcand : ∀ np ∈ q, (s.reviseOver reply.1 m true).1.containsArc np.arc = true ∧
        np.arc ∉ rest := by
      intro np hnp
      rw [QspnState.reviseOver_fst, QspnState.recordPeerNaddr_containsArc]
      exact ⟨(harcs np hnp).1, fun hr => (harcs np hnp).2 (List.mem_cons_of_mem _ hr)⟩
    have hlevels : (s.reviseOver reply.1 m true).1.levels = s.levels := by
      simp [QspnState.reviseOver_fst, QspnState.levels]
    rcases hcase with ⟨r, hr, rfl⟩ | ⟨hrefused, rfl⟩
    · obtain ⟨_, hqr, _⟩ := (Revised.nil.revised hc hin hr).repInv hcur₀
      rw [List.nil_append] at hqr
      have hover : ∀ np ∈ r.paths, np.arc = reply.1 := by
        intro np hnp
        rw [QspnState.reviseOver_snd, if_pos rfl] at hr
        refine (reviseEtp_candidates hin hr (fun np₀ hnp₀ => ?_) np hnp).1
        obtain ⟨harc, d, hd⟩ := QspnState.mem_pathsViaArc0 hnp₀
        exact ⟨harc, d, hcur₀.pathInv hd⟩
      refine ⟨⟨hcur₁, fun np hnp => ?_, fun np hnp => ?_, hasked⟩,
        hframe _ fun c hc => List.mem_append_left _ hc, fun _ => ?_⟩
      · rcases List.mem_append.mp hnp with hnp | hnp
        · exact hlevels ▸ hq np hnp
        · exact hqr np hnp
      · rcases List.mem_append.mp hnp with hnp | hnp
        · exact hcand np hnp
        · rw [hover np hnp]
          refine ⟨?_, hnd⟩
          simp only [QspnState.reviseOver_fst, QspnState.recordPeerNaddr_containsArc]
          exact hc
      · intro d np hnp harc
        obtain ⟨c, hc, hlast⟩ := reaches_reviseOver hcur₀ hin hr d np hnp harc
        exact ⟨c, List.mem_append_right _ hc, hlast⟩
    · refine ⟨⟨hcur₁, hlevels ▸ hq, hcand, hasked⟩, hframe q fun _ h => h, fun hheard => ?_⟩
      refine absurd ?_ hrefused
      rw [QspnState.reviseOver_snd]
      exact (hheard m hreply hin).revise hin _ _ _ _

/-- **A whole gather**: the state stays current, and the replies that are heard reach all their
arcs have. -/
lemma gather_current {results : List (ArcId × Option EtpMessage)}
    {acc acc' : QspnState F × List Effect × List NodePath}
    (h : Gathering D pub (results.map Prod.fst) acc) (hnd : (results.map Prod.fst).Nodup)
    (hrun : results.foldlM gatherStep acc = .ok acc') :
    Gathering D pub [] acc' ∧ GatherFrame acc acc' ∧
      ∀ reply ∈ results, (∀ m, reply.2 = some m →
        checkIncomingMessage m acc.1.myNaddr = true → Heard acc.1.myNaddr m) →
        Reaches reply.1 acc'.1 acc'.2.2 := by
  induction results generalizing acc with
  | nil =>
      cases hrun
      exact ⟨h, GatherFrame.refl _, by simp⟩
  | cons reply results ih =>
      obtain ⟨hnd₁, hnd⟩ := List.nodup_cons.mp hnd
      obtain ⟨acc₁, hstep, hrun⟩ := Outcome.bind_eq_ok.mp hrun
      obtain ⟨h₁, hframe₁, hreach₁⟩ := gatherStep_current h hnd₁ hstep
      obtain ⟨h', hframe, hreach⟩ := ih h₁ hnd hrun
      refine ⟨h', hframe₁.trans hframe, fun reply' hreply' hheard => ?_⟩
      rcases List.mem_cons.mp hreply' with rfl | hreply'
      · exact hframe.reaches (hreach₁ hheard)
      · exact hreach reply' hreply' (by rwa [hframe₁.myNaddr])

end Gathers

/-! ## The handlers -/

section Handlers

variable [Float64 F] {D : Set ArcId} {pub : RouteSnapshot} {s : QspnState F} {order : MapOrder}

/-- The map update that a message over an arc leads to: the state it finds, its candidates and
the arc it is told has changed. -/
def mergeOf (s : QspnState F) (arc : ArcId) (m : EtpMessage) (isFull : Bool) :
    Option (QspnState F × List NodePath × Option ArcId) :=
  if s.containsArc arc ∧ checkIncomingMessage m s.myNaddr then
    match s.reviseOver arc m isFull with
    | (s', .ok r) => some (s', r.paths, none)
    | (_, .error _) => none
  else none

/-- The map update that a command leads to, if any. -/
def Command.merge (s : QspnState F) : Command →
    Option (QspnState F × List NodePath × Option ArcId)
  | .arcAddFetched arc (some m) => mergeOf s arc m true
  | .sendEtp arc m isFull => mergeOf s arc m isFull
  | .gatherComplete aChanged _ results =>
      match results.foldlM gatherStep (s, [], []) with
      | .ok (s', _, q) => some (s', q, aChanged)
      | .error _ => none
  | _ => none

/-- The arcs still owed after a gather for the changed arc that has its reply. -/
def stillOwed (D : Set ArcId) (aChanged : Option ArcId)
    (results : List (ArcId × Option EtpMessage)) : Set ArcId :=
  {arc | arc ∈ D ∧ ¬ (aChanged = some arc ∧ arc ∈ results.map Prod.fst)}

/-- **Merging and climbing**: sorted, and current unless something is reported. -/
lemma merge_current {D' : Set ArcId} (order : MapOrder) (h : Current D pub s) {q : List NodePath}
    (hq : CandidatesOk s.levels q) (harcs : ∀ np ∈ q, s.containsArc np.arc = true)
    {aChanged : Option ArcId} (hcover : Covers D D' aChanged s q)
    (hundercut : NotUndercut aChanged s q) :
    ∃ s' out, updateMap order s q aChanged = (s', .ok out) ∧ SortedBut D' s'.updateClusters.1 ∧
      (out.allPathsSet = [] → Current D' pub s'.updateClusters.1) ∧
      s'.updateClusters.1.arcs = s.arcs := by
  obtain ⟨s', out, hrun, hs'⟩ := h.rep.updateMap order hq harcs aChanged
  obtain ⟨hframe, _⟩ := updateMap_storedFrom order s q aChanged
  rw [hrun] at hframe
  refine ⟨s', out, hrun, (h.toSortedBut.updateMap hs' hcover hrun).updateClusters,
    fun hquiet => (h.updateMap hs' hcover hundercut hrun hquiet).updateClusters, ?_⟩
  exact (updateClusters_frame hs').2.1.trans hframe.arcs

lemma ingestCheckedEtp_current (h : Current D pub s) {arc : ArcId} {m : EtpMessage} {isFull : Bool}
    (hc : s.containsArc arc = true) (hin : checkIncomingMessage m s.myNaddr = true)
    (hundercut : ∀ s₁ q aChanged, mergeOf s arc m isFull = some (s₁, q, aChanged) →
      NotUndercut aChanged s₁ q) {s' : QspnState F} {effects : List Effect} {o : Option Ingested}
    (hrun : ingestCheckedEtp order s arc m isFull = .ok (s', effects, o)) :
    (∀ e ∈ effects, e.IsPlain) ∧ SortedBut D s' ∧
      ((∀ i ∈ o, i.changed = false) → Current D pub s') ∧
      ∀ a, s'.containsArc a = true → s.containsArc a = true := by
  obtain ⟨⟨s₁, revised⟩, hattempt, hrun⟩ := Outcome.bind_eq_ok.mp hrun
  obtain ⟨rfl, hrev⟩ := Outcome.attempt_eq_ok.mp hattempt
  clear hattempt
  have h₁ : Current D pub (s.reviseOver arc m isFull).1 :=
    h.recordPeerNaddr arc (checkIncomingMessage_iff.mp hin).1
  have harcs₁ : ∀ a, (s.reviseOver arc m isFull).1.containsArc a = s.containsArc a :=
    QspnState.recordPeerNaddr_containsArc s arc m.nodeAddress
  rcases hrev with ⟨r, hr, rfl⟩ | ⟨_, rfl⟩
  · obtain ⟨_, hq, hqarcs⟩ := (Revised.nil.revised hc hin hr).repInv h.rep
    rw [List.nil_append] at hq hqarcs
    have hmerge : mergeOf s arc m isFull =
        some ((s.reviseOver arc m isFull).1, r.paths, none) := by
      rw [mergeOf, if_pos ⟨hc, hin⟩, show s.reviseOver arc m isFull =
        ((s.reviseOver arc m isFull).1, .ok r) from Prod.ext rfl hr]
    obtain ⟨s₂, out, hmap, hsorted, hcur, harcs⟩ := merge_current order h₁ hq hqarcs
      (fun _ _ _ hD hD' => absurd hD hD') (hundercut _ _ _ hmerge)
    obtain ⟨⟨s₂', outcome⟩, hmap', hrun⟩ := Outcome.bind_eq_ok.mp hrun
    rw [hmap] at hmap'
    cases hmap'
    obtain ⟨⟨s₃, climbed⟩, hclimb, hrun⟩ := Outcome.bind_eq_ok.mp hrun
    obtain ⟨rfl, _⟩ := Outcome.attempt_eq_ok.mp hclimb
    cases hrun
    refine ⟨plain_mapEffects _ _, hsorted, fun hquiet => hcur ?_, fun a ha => ?_⟩
    · simpa using (Bool.or_eq_false_iff.mp (hquiet _ rfl)).1
    · rw [← harcs₁]
      rwa [QspnState.containsArc, harcs] at ha
  · cases hrun
    exact ⟨by simp, h₁.toSortedBut, fun _ => h₁, fun a ha => by rwa [← harcs₁]⟩

/-- Ingesting and forwarding. -/
lemma ingest_forward_publishes (h : Current D pub s) {arc : ArcId} {m : EtpMessage} {isFull : Bool}
    (hc : s.containsArc arc = true) (hin : checkIncomingMessage m s.myNaddr = true)
    (hundercut : ∀ s₁ q aChanged, mergeOf s arc m isFull = some (s₁, q, aChanged) →
      NotUndercut aChanged s₁ q) {s' : QspnState F} {effects : List Effect} {o : Option Ingested}
    (hrun : ingestCheckedEtp order s arc m isFull = .ok (s', effects, o)) :
    (o = none → Publishes D pub s (s', effects)) ∧
      ∀ i forwarded, o = some i → forwardIngested s' arc i = .ok forwarded →
        Publishes D pub s (s', effects ++ forwarded) := by
  obtain ⟨hplain, hsorted, hquiet, harcs⟩ := ingestCheckedEtp_current h hc hin hundercut hrun
  refine ⟨fun ho => ⟨?_, harcs, asked_of_plain hplain⟩, fun i forwarded ho hfwd => ?_⟩
  · rw [lastPublished_of_plain hplain]
    exact hquiet (by simp [ho])
  · obtain ⟨hcur, hasked⟩ :=
      forwardIngested_current hsorted (fun hi => hquiet (by simp [ho, hi])) hfwd
    refine ⟨?_, harcs, (asked_of_plain hplain).append hasked⟩
    rw [lastPublished_append, lastPublished_of_plain hplain]
    exact hcur

lemma handleArcAddFetched_publishes (h : Current D pub s) {arc : ArcId} {result : Option EtpMessage}
    (hundercut : ∀ m ∈ result, ∀ s₁ q aChanged, mergeOf s arc m true = some (s₁, q, aChanged) →
      NotUndercut aChanged s₁ q) {r : QspnState F × List Effect}
    (hrun : handleArcAddFetched order s arc result = .ok r) : Publishes D pub s r := by
  unfold handleArcAddFetched at hrun
  split_ifs at hrun with hc
  · cases hrun
    exact h.publishes
  have hc : s.containsArc arc = true := by simpa using hc
  cases result with
  | none => exact (doRemoveArc_publishes h hrun).2
  | some m =>
      obtain ⟨⟨s₁, effects, o⟩, hingest, hrun⟩ := Outcome.bind_eq_ok.mp hrun
      unfold ingestIncomingEtp at hingest
      split_ifs at hingest with hin
      · obtain ⟨hrefused, htaken⟩ := ingest_forward_publishes h hc hin (hundercut m rfl) hingest
        cases o with
        | none =>
            cases hrun
            exact hrefused rfl
        | some i =>
            obtain ⟨forwarded, hfwd, hrun⟩ := Outcome.bind_eq_ok.mp hrun
            obtain ⟨full, -, hrun⟩ := Outcome.bind_eq_ok.mp hrun
            cases hrun
            obtain ⟨hcur, harcs, hasked⟩ := htaken i forwarded rfl hfwd
            have hplain := plain_singleton (e := .unicast arc full true) ⟨rfl, rfl⟩
            refine ⟨?_, harcs, hasked.append (asked_of_plain hplain)⟩
            rw [lastPublished_append, lastPublished_of_plain hplain]
            exact hcur
      · obtain ⟨r', hremove, hingest⟩ := Outcome.bind_eq_ok.mp hingest
        cases hingest
        cases hrun
        exact (doRemoveArc_publishes h hremove).2

lemma handleInboundSendEtp_publishes (h : Current D pub s) {arc : ArcId} {m : EtpMessage}
    {isFull : Bool} (hundercut : ∀ s₁ q aChanged, mergeOf s arc m isFull = some (s₁, q, aChanged) →
      NotUndercut aChanged s₁ q) {r : QspnState F × List Effect}
    (hrun : handleInboundSendEtp order s arc m isFull = .ok r) : Publishes D pub s r := by
  unfold handleInboundSendEtp at hrun
  split_ifs at hrun with hc hin
  · cases hrun
    exact h.publishes
  · exact (doRemoveArc_publishes h hrun).2
  have hc : s.containsArc arc = true := by simpa using hc
  have hin : checkIncomingMessage m s.myNaddr = true := by simpa using hin
  simp only [h.complete] at hrun
  obtain ⟨⟨s₁, effects, o⟩, hingest, hrun⟩ := Outcome.bind_eq_ok.mp hrun
  obtain ⟨hrefused, htaken⟩ := ingest_forward_publishes h hc hin hundercut hingest
  cases o with
  | none =>
      cases hrun
      exact hrefused rfl
  | some i =>
      obtain ⟨forwarded, hfwd, hrun⟩ := Outcome.bind_eq_ok.mp hrun
      cases hrun
      exact htaken i forwarded rfl hfwd

/-- **A gather that completes** serves its arc, if the reply of that arc is heard. -/
lemma handleGatherComplete_publishes (h : Current D pub s) {aChanged : Option ArcId}
    {extra : List EtpPath} {results : List (ArcId × Option EtpMessage)}
    (hnd : (results.map Prod.fst).Nodup)
    (hheard : ∀ arc, aChanged = some arc → s.containsArc arc = true → ∀ m,
      (arc, some m) ∈ results → checkIncomingMessage m s.myNaddr = true → Heard s.myNaddr m)
    (hundercut : ∀ s₁ q a, (Command.gatherComplete aChanged extra results).merge s =
      some (s₁, q, a) → NotUndercut a s₁ q) {r : QspnState F × List Effect}
    (hrun : handleGatherComplete order s aChanged extra results = .ok r) :
    Publishes (stillOwed D aChanged results) pub s r := by
  obtain ⟨⟨s₁, effects, q⟩, hfold, hrun⟩ := Outcome.bind_eq_ok.mp hrun
  have h₀ : Gathering D pub (results.map Prod.fst) (s, [], []) :=
    ⟨h, by simp [CandidatesOk], by simp, fun e he => by cases he⟩
  obtain ⟨⟨h₁, hq, hqarcs, hasked⟩, hframe, hreach⟩ := gather_current h₀ hnd hfold
  have hmerge : (Command.gatherComplete aChanged extra results).merge s =
      some (s₁, q, aChanged) := by
    simp only [Command.merge, hfold]
  have hcover : Covers D (stillOwed D aChanged results) aChanged s₁ q := by
    intro d np hnp hD hD'
    obtain ⟨ha, hres⟩ : aChanged = some np.arc ∧ np.arc ∈ results.map Prod.fst := by
      by_contra hnot
      exact hD' ⟨hD, hnot⟩
    obtain ⟨⟨arc, reply⟩, hreply, harc⟩ := List.mem_map.mp hres
    obtain rfl : arc = np.arc := harc
    have hc : s.containsArc np.arc = true := hframe.arcs _ (h₁.rep.arc_current d np hnp)
    refine ⟨ha, hreach _ hreply (fun m hm hin => hheard _ ha hc m ?_ hin) d np hnp rfl⟩
    rwa [show reply = some m from hm] at hreply
  obtain ⟨s₂, out, hmap, hsorted, hcur, harcs⟩ := merge_current order h₁ hq
    (fun np hnp => (hqarcs np hnp).1) hcover (hundercut _ _ _ hmerge)
  obtain ⟨⟨s₂', outcome⟩, hmap', hrun⟩ := Outcome.bind_eq_ok.mp hrun
  rw [hmap] at hmap'
  cases hmap'
  obtain ⟨⟨s₃, climbed⟩, hclimb, hrun⟩ := Outcome.bind_eq_ok.mp hrun
  obtain ⟨rfl, _⟩ := Outcome.attempt_eq_ok.mp hclimb
  obtain ⟨published, hpub, hrun⟩ := Outcome.bind_eq_ok.mp hrun
  have hmono : ∀ a, s₂.updateClusters.1.containsArc a = true → s.containsArc a = true := by
    intro a ha
    rw [QspnState.containsArc, harcs] at ha
    exact hframe.arcs a ha
  have hpublished : Current (stillOwed D aChanged results)
      (lastPublished (lastPublished pub effects) published) s₂.updateClusters.1 := by
    refine hsorted.publishIf hpub fun hquiet => hcur ?_
    have hnil := (Bool.or_eq_false_iff.mp hquiet).1
    simp only [decide_eq_false_iff_not, not_not, List.append_eq_nil_iff] at hnil
    exact hnil.1
  have hlast : lastPublished pub (effects ++ mapEffects out (climbed.getD []) ++ published) =
      lastPublished (lastPublished pub effects) published := by
    rw [lastPublished_append, lastPublished_append, lastPublished_of_plain (plain_mapEffects _ _)]
  have hasked' : Asked (effects ++ mapEffects out (climbed.getD []) ++ published) :=
    (hasked.append (asked_of_plain (plain_mapEffects _ _))).append (asked_publishIf hpub)
  split_ifs at hrun
  · obtain ⟨wire, -, hrun⟩ := Outcome.bind_eq_ok.mp hrun
    obtain ⟨m, -, hrun⟩ := Outcome.bind_eq_ok.mp hrun
    obtain rfl := Except.ok.inj hrun
    have hplain := plain_spawnBroadcast (arcIds s₂.updateClusters.1) m false
    refine ⟨?_, hmono, hasked'.append (asked_of_plain hplain)⟩
    rw [lastPublished_append, lastPublished_of_plain hplain, hlast]
    exact hpublished
  · obtain rfl := Except.ok.inj hrun
    refine ⟨?_, hmono, hasked'⟩
    rw [hlast]
    exact hpublished

end Handlers

/-! ## The actor and its channel -/

/-- An actor, the last value of its snapshot channel, and its gathers that have not completed. -/
structure Watched (F : Type) where
  actor : Actor F
  published : RouteSnapshot
  pending : List PendingGather

/-- The commands of a node that has created its network, but for the completion of gathers. -/
def Command.IsRouting : Command → Prop
  | .addArc _ _ => True
  | .arcAddFetched _ _ => True
  | .arcChanged _ _ => True
  | .removeArc _ => True
  | .sendEtp _ _ _ => True
  | .gotDestroy _ => True
  | .resendFailed _ => True
  | .arcGatherWindowElapsed => True
  | _ => False

section Runs

variable [Float64 F]

/-- What the actor, its channel and its pending gathers are after a handler ran. -/
def Watched.after (n : Watched F) (pending : List PendingGather) (a : Actor F)
    (effects : List Effect) : Watched F :=
  ⟨a, lastPublished n.published effects, pending ++ effects.filterMap Effect.gather?⟩

/-- The actor handles a command that `ok` allows.  A gather completes with one reply for each of
the arcs it asked. -/
inductive Watched.Step (ok : Actor F → Command → Prop) : Watched F → Watched F → Prop where
  | handle {n : Watched F} (order : MapOrder) {c : Command} {a : Actor F} {effects : List Effect}
      (hc : c.IsRouting) (hok : ok n.actor c)
      (hrun : n.actor.handle order c = .ok (a, effects)) :
      Step ok n (n.after n.pending a effects)
  | complete {n : Watched F} (order : MapOrder) {before after : List PendingGather}
      {g : PendingGather} {results : List (ArcId × Option EtpMessage)} {a : Actor F}
      {effects : List Effect} (hpending : n.pending = before ++ g :: after)
      (harcs : results.map Prod.fst = g.arcs)
      (hok : ok n.actor (.gatherComplete g.aChanged g.extraDeadPaths results))
      (hrun : n.actor.handle order (.gatherComplete g.aChanged g.extraDeadPaths results) =
        .ok (a, effects)) :
      Step ok n (n.after (before ++ after) a effects)

/-- No gather is pending, and the window owes none. -/
def Watched.AtRest (n : Watched F) : Prop := n.pending = [] ∧ n.actor.AtRest

/-- What a command must not do: overwrite an arc the window owes a gather, complete the gather of
a changed arc with a reply of that arc that the revision refuses, or undercut a stored path. -/
structure Careful (a : Actor F) (c : Command) : Prop where
  keepsOwed : KeepsOwed a c
  heard : ∀ arc extra results, c = .gatherComplete (some arc) extra results →
    a.state.containsArc arc = true → ∀ m, (arc, some m) ∈ results →
    checkIncomingMessage m a.state.myNaddr = true → Heard a.state.myNaddr m
  notUndercut : ∀ s q aChanged, c.merge a.state = some (s, q, aChanged) → NotUndercut aChanged s q

/-- The invariant: the channel is current but for the owed arcs, each of which has a gather
pending that asks it, or the window owes it one. -/
structure Watched.Owing (D : Set ArcId) (n : Watched F) : Prop where
  current : Current D n.published n.actor.state
  owed : ∀ arc ∈ D, n.actor.state.containsArc arc = true →
    (∃ g ∈ n.pending, g.aChanged = some arc ∧ arc ∈ g.arcs) ∨
      n.actor.arcGatherWindow = some ⟨arc, true⟩
  asked : ∀ g ∈ n.pending, g.arcs.Nodup

end Runs

/-! ## What a step does to the owed arcs -/

section Owing

variable {D D' : Set ArcId} {n n' : Watched F} {a : Actor F} {effects : List Effect}

/-- The handler sees to the arc itself: it spawns a gather for it, or leaves it to the window. -/
def SeesTo (a : Actor F) (effects : List Effect) (arc : ArcId) : Prop :=
  (∃ e ∈ effects, ∃ g, e.gather? = some g ∧ g.aChanged = some arc ∧ arc ∈ g.arcs) ∨
    a.arcGatherWindow = some ⟨arc, true⟩

/-- **One step**: an arc that is still owed was owed before, and keeps what it waits for, or the
handler sees to it. -/
lemma Watched.Owing.after (h : n.Owing D) {pending : List PendingGather}
    (hcur : Current D' (lastPublished n.published effects) a.state) (hasked : Asked effects)
    (hsub : ∀ g ∈ pending, g ∈ n.pending)
    (howed : ∀ arc ∈ D', a.state.containsArc arc = true → SeesTo a effects arc ∨
      (arc ∈ D ∧ n.actor.state.containsArc arc = true ∧
        (∀ g ∈ n.pending, g.aChanged = some arc → arc ∈ g.arcs → g ∈ pending) ∧
        (n.actor.arcGatherWindow = some ⟨arc, true⟩ → SeesTo a effects arc))) :
    (n.after pending a effects).Owing D' := by
  have hmem : ∀ g, g ∈ (n.after pending a effects).pending ↔
      g ∈ pending ∨ ∃ e ∈ effects, e.gather? = some g := fun g => by
    simp only [Watched.after, List.mem_append, List.mem_filterMap]
  have hsees : ∀ arc, SeesTo a effects arc →
      (∃ g ∈ (n.after pending a effects).pending, g.aChanged = some arc ∧ arc ∈ g.arcs) ∨
        a.arcGatherWindow = some ⟨arc, true⟩ := by
    rintro arc (⟨e, he, g, hg, hga⟩ | hw)
    · exact Or.inl ⟨g, (hmem g).mpr (Or.inr ⟨e, he, hg⟩), hga⟩
    · exact Or.inr hw
  refine ⟨hcur, fun arc harc hc => ?_, fun g hg => ?_⟩
  · rcases howed arc harc hc with hsee | ⟨hD, hc, hkept, hwindow⟩
    · exact hsees arc hsee
    · rcases h.owed arc hD hc with ⟨g, hg, ha, hga⟩ | hw
      · exact Or.inl ⟨g, (hmem g).mpr (Or.inl (hkept g hg ha hga)), ha, hga⟩
      · exact hsees arc (hwindow hw)
  · rcases (hmem g).mp hg with hg | ⟨e, he, hg⟩
    · exact h.asked g (hsub g hg)
    · exact hasked e he g hg

/-- A handler of the state alone leaves the window as it was. -/
lemma Watched.Owing.lift (h : n.Owing D) {pending : List PendingGather}
    {x : Outcome Empty (QspnState F × List Effect)} (hrun : n.actor.lift x = .ok (a, effects))
    (hx : ∀ r, x = .ok r → Publishes D' n.published n.actor.state r) (hD : D' ⊆ D)
    (hkept : ∀ arc ∈ D', ∀ g ∈ n.pending, g.aChanged = some arc → arc ∈ g.arcs → g ∈ pending)
    (hsub : ∀ g ∈ pending, g ∈ n.pending) : (n.after pending a effects).Owing D' := by
  obtain ⟨⟨s, es⟩, hs, hrun⟩ := Outcome.bind_eq_ok.mp hrun
  cases hrun
  obtain ⟨hcur, harcs, hasked⟩ := hx _ hs
  exact h.after hcur hasked hsub fun arc harc hc =>
    Or.inr ⟨hD harc, harcs arc hc, hkept arc harc, Or.inr⟩

/-- A handler of the state alone that completes no gather. -/
lemma Watched.Owing.lift_self (h : n.Owing D) {x : Outcome Empty (QspnState F × List Effect)}
    (hrun : n.actor.lift x = .ok (a, effects))
    (hx : ∀ r, x = .ok r → Publishes D n.published n.actor.state r) :
    ∃ D', (n.after n.pending a effects).Owing D' :=
  ⟨D, h.lift hrun hx subset_rfl (fun _ _ _ hg _ _ => hg) fun _ hg => hg⟩

lemma Watched.Owing.addArc (h : n.Owing D) {drawn : List ArcId} {cost : Cost}
    (hrun : n.actor.lift (.ok (handleAddArc n.actor.state drawn cost)) = .ok (a, effects)) :
    ∃ D', (n.after n.pending a effects).Owing D' := by
  cases hid : drawn.find? fun id => !n.actor.state.containsArc id with
  | none =>
      refine h.lift_self hrun ?_
      rintro r ⟨⟩
      rw [handleAddArc, hid]
      exact h.current.publishes
  | some id =>
      have hnew : n.actor.state.containsArc id = false := by
        simpa using List.find?_some (p := fun id => !n.actor.state.containsArc id) hid
      -- an arc of the same name that was owed is gone, and its paths with it
      have hcur : Current (D \ {id}) n.published n.actor.state := by
        refine h.current.congr fun d np hnp hD => ⟨hD, ?_⟩
        rintro rfl
        rw [h.current.rep.arc_current d np hnp] at hnew
        cases hnew
      have hplain : ∀ e ∈ [if n.actor.state.isBootstrapComplete = true then Effect.fetch id
          else .bootstrapFetch id], e.IsPlain := by
        refine plain_singleton ?_
        split_ifs
        · exact ⟨rfl, rfl⟩
        · exact ⟨rfl, rfl⟩
      rw [handleAddArc, hid] at hrun
      cases hrun
      refine ⟨D \ {id}, h.after ?_ (asked_of_plain hplain) (fun _ hg => hg) fun arc harc hc => ?_⟩
      · rw [lastPublished_of_plain hplain]
        exact hcur.addArc hnew cost
      · exact Or.inr ⟨harc.1, (KeyedMap.contains_insertOrdered.mp hc).resolve_left harc.2,
          fun _ hg _ _ => hg, Or.inr⟩

lemma containsArc_setArcCost {s : QspnState F} {arc : ArcId} {cost : Cost} {b : ArcId}
    (hc : s.containsArc arc = true) (hb : (s.setArcCost arc cost).containsArc b = true) :
    s.containsArc b = true := by
  obtain ⟨e, he⟩ := KeyedMap.contains_iff.mp hc
  unfold QspnState.setArcCost at hb
  rw [he] at hb
  rcases KeyedMap.contains_insertOrdered.mp hb with rfl | hb
  · exact hc
  · exact hb

lemma mem_arcIds {s : QspnState F} {arc : ArcId} (hc : s.containsArc arc = true) :
    arc ∈ arcIds s := by
  obtain ⟨e, he⟩ := KeyedMap.contains_iff.mp hc
  exact List.mem_map.mpr ⟨_, KeyedMap.mem_entries_iff.mpr he, rfl⟩

lemma asked_gather_window (s : QspnState F) (arc : ArcId) :
    Asked [spawnGather s (some arc) [], .arcGatherWindow] :=
  (asked_spawnGather s (some arc) []).append (asked_of_plain (plain_singleton ⟨rfl, rfl⟩))

/-- **A change of cost** makes its arc owed, and asks for the gather that serves it. -/
lemma Watched.Owing.arcChanged (h : n.Owing D) {arc : ArcId} {cost : Cost}
    (hkeep : KeepsOwed n.actor (.arcChanged arc cost))
    (hrun : handleArcChanged n.actor arc cost = (a, effects)) :
    ∃ D', (n.after n.pending a effects).Owing D' := by
  unfold handleArcChanged at hrun
  have hboot : n.actor.state.isBootstrapComplete = true := decide_eq_true h.current.complete
  by_cases hc : n.actor.state.containsArc arc = true
  · simp only [hc, if_true, isBootstrapComplete_setArcCost, hboot] at hrun
    have hcur := h.current.setArcCost arc cost
    refine ⟨insert arc D, ?_⟩
    unfold requestArcGather at hrun
    cases hw : n.actor.arcGatherWindow with
    | none =>
        simp only [hw] at hrun
        cases hrun
        refine h.after ?_ (asked_gather_window _ arc) (fun _ hg => hg) fun b hb hbc => ?_
        · rw [lastPublished_of_none (by simp [spawnGather, Effect.published])]
          exact hcur
        · rcases hb with rfl | hb
          · exact Or.inl (Or.inl ⟨_, List.mem_cons_self, _, rfl, rfl, mem_arcIds hbc⟩)
          · refine Or.inr ⟨hb, containsArc_setArcCost hc hbc, fun _ hg _ _ => hg, fun hbw => ?_⟩
            rw [hw] at hbw
            cases hbw
    | some pending =>
        simp only [hw] at hrun
        cases hrun
        refine h.after hcur (fun e he => by cases he) (fun _ hg => hg) fun b hb hbc => ?_
        rcases hb with rfl | hb
        · exact Or.inl (Or.inr rfl)
        · refine Or.inr ⟨hb, containsArc_setArcCost hc hbc, fun _ hg _ _ => hg, fun hbw => ?_⟩
          -- the window owed `b`, so the change noted now is of `b` as well
          have hb : arc = b := hkeep b hbw arc (by simp [Actor.changes, hc, hboot])
          exact Or.inr (by rw [← hb])
  · simp only [hc] at hrun
    cases hrun
    exact ⟨D, h.after h.current (fun e he => by cases he) (fun _ hg => hg)
      fun b hb hbc => Or.inr ⟨hb, hbc, fun _ hg _ _ => hg, Or.inr⟩⟩

/-- A window that elapses hands the arc it owes over to a gather. -/
lemma Watched.Owing.windowElapsed (h : n.Owing D)
    (hrun : handleArcGatherWindowElapsed n.actor = (a, effects)) :
    ∃ D', (n.after n.pending a effects).Owing D' := by
  refine ⟨D, ?_⟩
  unfold handleArcGatherWindowElapsed at hrun
  rcases hw : n.actor.arcGatherWindow with _ | ⟨arc, _ | _⟩
  · simp only [hw] at hrun
    cases hrun
    exact h.after h.current (fun e he => by cases he) (fun _ hg => hg)
      fun b hb hbc => Or.inr ⟨hb, hbc, fun _ hg _ _ => hg, Or.inr⟩
  · simp only [hw] at hrun
    cases hrun
    refine h.after h.current (fun e he => by cases he) (fun _ hg => hg)
      fun b hb hbc => Or.inr ⟨hb, hbc, fun _ hg _ _ => hg, fun hbw => ?_⟩
    rw [hw] at hbw
    cases hbw
  · simp only [hw] at hrun
    cases hrun
    refine h.after ?_ (asked_gather_window _ arc) (fun _ hg => hg)
      fun b hb hbc => Or.inr ⟨hb, hbc, fun _ hg _ _ => hg, fun hbw => ?_⟩
    · rw [lastPublished_of_none (by simp [spawnGather, Effect.published])]
      exact h.current
    · rw [hw] at hbw
      cases hbw
      exact Or.inl ⟨_, List.mem_cons_self, _, rfl, rfl, mem_arcIds hbc⟩

end Owing

/-! ## Runs -/

/-- **A careful step keeps the invariant**, for the arcs owed after it. -/
theorem Watched.Step.owing [Float64 F] {n n' : Watched F} {D : Set ArcId}
    (hstep : Watched.Step Careful n n') (h : n.Owing D) : ∃ D', n'.Owing D' := by
  cases hstep with
  | @handle order c a effects hc hok hrun =>
      have hcut := hok.notUndercut
      cases c with
      | addArc drawn cost => exact h.addArc hrun
      | arcAddFetched arc result =>
          refine h.lift_self hrun fun r hr => ?_
          refine handleArcAddFetched_publishes h.current (fun m hm => ?_) hr
          obtain rfl : result = some m := hm
          exact hcut
      | arcChanged arc cost => exact h.arcChanged hok.keepsOwed (Except.ok.inj hrun)
      | removeArc arc => exact h.lift_self hrun fun r => handleRemoveArc_publishes h.current
      | sendEtp arc m isFull =>
          exact h.lift_self hrun fun r => handleInboundSendEtp_publishes h.current hcut
      | gotDestroy arc => exact h.lift_self hrun fun r hr => (doRemoveArc_publishes h.current hr).2
      | resendFailed arc => exact h.lift_self hrun fun r hr => (doRemoveArc_publishes h.current hr).2
      | arcGatherWindowElapsed => exact h.windowElapsed (Except.ok.inj hrun)
      | _ => cases hc
  | @complete order before after g results a effects hpending harcs hok hrun =>
      have hg : g ∈ n.pending := by
        rw [hpending]
        exact List.mem_append_right _ List.mem_cons_self
      refine ⟨stillOwed D g.aChanged results, h.lift hrun (fun r hr => ?_) (fun _ hb => hb.1)
        (fun b hb g' hg' ha hbg' => ?_) fun g' hg' => ?_⟩
      · refine handleGatherComplete_publishes h.current ?_ (fun arc ha hc m hm hin => ?_)
          hok.notUndercut hr
        · rw [harcs]
          exact h.asked g hg
        · exact hok.heard arc _ results (by rw [ha]) hc m hm hin
      · -- the gather that completed is not the one `b` waits for
        rw [hpending] at hg'
        rcases List.mem_append.mp hg' with hg' | hg'
        · exact List.mem_append_left _ hg'
        · rcases List.mem_cons.mp hg' with rfl | hg'
          · exact absurd ⟨ha, harcs ▸ hbg'⟩ hb.2
          · exact List.mem_append_right _ hg'
      · rw [hpending]
        rcases List.mem_append.mp hg' with hg' | hg'
        · exact List.mem_append_left _ hg'
        · exact List.mem_append_right _ (List.mem_cons_of_mem _ hg')

/-- In a careful run the channel is current but for the arcs that are owed. -/
lemma owing_of_run [Float64 F] {n₀ n : Watched F}
    (hrun : Relation.ReflTransGen (Watched.Step Careful) n₀ n) {D : Set ArcId}
    (h₀ : n₀.Owing D) : ∃ D', n.Owing D' := by
  induction hrun with
  | refl => exact ⟨D, h₀⟩
  | tail _ hstep ih =>
      obtain ⟨D', h⟩ := ih
      exact hstep.owing h

/-- A node that has just created its network owes nothing. -/
lemma owing_new {me : Naddr} {id : List UInt8} {eldership : UInt32} {pending : List UInt32}
    {config : QspnConfig F} {s : QspnState F} {snap : RouteSnapshot}
    (hnew : QspnState.new me (Fingerprint.new id eldership pending) config = .ok s)
    (hsnap : s.snapshot = .ok snap) : Watched.Owing ∅ (⟨⟨s, none⟩, snap, []⟩ : Watched F) := by
  obtain ⟨hrep, _, hempty, _⟩ := repInv_of_new hnew
  have hcomplete : s.bootstrap = .complete := by
    obtain ⟨above, _, hnew⟩ := Outcome.bind_eq_ok.mp hnew
    cases hnew
    rfl
  refine ⟨⟨⟨hrep, hcomplete, fun d => ?_⟩, fun d _ => ?_⟩, fun arc harc => harc.elim,
    fun g hg => by cases hg⟩
  · rw [hempty d]
    exact List.Pairwise.nil
  · exact (routesTo_snapshot hrep.toMapInv hcomplete hsnap d).symm

/-- **The published snapshot is current.**  In every run of a node that has created its network, in
which no command overwrites an owed arc, no gather for a changed arc completes with a reply of it
that is refused, and no map update undercuts a stored path: whenever no gather is pending and the
window owes none, the snapshot channel has the paths and costs that the state shows, for every
destination. -/
theorem published_current [Float64 F] {me : Naddr} {id : List UInt8} {eldership : UInt32}
    {pending : List UInt32} {config : QspnConfig F} {s₀ : QspnState F} {snap₀ : RouteSnapshot}
    (hnew : QspnState.new me (Fingerprint.new id eldership pending) config = .ok s₀)
    (hsnap₀ : s₀.snapshot = .ok snap₀) {n : Watched F}
    (hrun : Relation.ReflTransGen (Watched.Step Careful) ⟨⟨s₀, none⟩, snap₀, []⟩ n)
    (hrest : n.AtRest) :
    ∃ snap, n.actor.state.snapshot = .ok snap ∧
      ∀ d, routesTo n.published d = routesTo snap d := by
  obtain ⟨D, h⟩ := owing_of_run hrun (owing_new hnew hsnap₀)
  obtain ⟨snap, hsnap⟩ := h.current.rep.snapshot_ok
  refine ⟨snap, hsnap, fun d => ?_⟩
  rw [routesTo_snapshot h.current.rep.toMapInv h.current.complete hsnap d, eq_comm]
  refine h.current.shown d fun np hnp hD => ?_
  rcases h.owed np.arc hD (h.current.rep.arc_current d np hnp) with ⟨g, hg, _⟩ | hw
  · rw [hrest.1] at hg
    cases hg
  · have hfalse := hrest.2 _ hw
    cases hfalse

/-! ## Two arcs that flap -/

/-- The node at position 0 of the one-level network, with what it publishes at the start. -/
def freshWatched : Watched ℚ := ⟨⟨freshNode 0, none⟩, [[]], []⟩

/-- The first arc, over which the node at position 1 has answered. -/
def answeredArc (cost : Cost) : KeyedMap ArcId ArcEntry :=
  ⟨[(⟨1⟩, ⟨cost, some (oneLevelNode 1)⟩)], List.nodup_singleton _⟩

/-- The same, and a second arc over which nobody has. -/
def twoArcs (cost cost' : Cost) : KeyedMap ArcId ArcEntry :=
  ⟨[(⟨1⟩, ⟨cost, some (oneLevelNode 1)⟩), (⟨2⟩, ⟨cost', none⟩)], by
    simp⟩

/-- The node at position 0 once it knows the node at position 1, with what it has published. -/
def linked (arcs : KeyedMap ArcId ArcEntry) (window : Option PendingArcGather) (published : Cost)
    (pending : List PendingGather) : Watched ℚ where
  actor := ⟨{ freshNode 0 with
    myNodesInside := [1, 2]
    arcs
    destinations := [⟨[(1, ⟨⟨0, 1⟩, [NodePath.new ⟨1⟩ (intrinsicPath 1 ⟨0, 1⟩ ⟨1⟩
      (Fingerprint.new [1] 0 [0]) 1)]⟩)], List.nodup_singleton _⟩] }, window⟩
  published := [[⟨⟨0, 1⟩, [⟨⟨1⟩, [⟨⟨1⟩, ⟨0, 1⟩⟩], published, 1⟩]⟩]]
  pending

/-- Over the first arc the node at position 1 answers; over the second nobody does. -/
def oneAnswer : List (ArcId × Option EtpMessage) := [(⟨1⟩, some (oneLevelEtp [])), (⟨2⟩, none)]

/-- The gather of a change of the second arc. -/
def secondGather : PendingGather := ⟨some ⟨2⟩, [], [⟨1⟩, ⟨2⟩]⟩

section Flapping

variable {ok : Actor ℚ → Command → Prop} {n : Watched ℚ}

/-- A step with a known result. -/
lemma Watched.Step.handle_eq {n' : Watched ℚ} (c : Command) (hc : c.IsRouting) (hok : ok n.actor c)
    (hrun : (n.actor.handle .asInserted c).map (fun r => n.after n.pending r.1 r.2) = .ok n') :
    Watched.Step ok n n' := by
  cases hr : n.actor.handle .asInserted c with
  | error e =>
      rw [hr] at hrun
      cases hrun
  | ok r =>
      rw [hr] at hrun
      cases hrun
      exact .handle .asInserted hc hok hr

/-- The first pending gather completes, with a known result. -/
lemma Watched.Step.complete_eq {n' : Watched ℚ} {g : PendingGather} {after : List PendingGather}
    (hpending : n.pending = g :: after) (results : List (ArcId × Option EtpMessage))
    (harcs : results.map Prod.fst = g.arcs)
    (hok : ok n.actor (.gatherComplete g.aChanged g.extraDeadPaths results))
    (hrun : (n.actor.handle .asInserted
      (.gatherComplete g.aChanged g.extraDeadPaths results)).map
        (fun r => n.after after r.1 r.2) = .ok n') : Watched.Step ok n n' := by
  cases hr : n.actor.handle .asInserted
      (.gatherComplete g.aChanged g.extraDeadPaths results) with
  | error e =>
      rw [hr] at hrun
      cases hrun
  | ok r =>
      rw [hr] at hrun
      cases hrun
      have hsplit : n.pending = [] ++ g :: after := hpending
      exact .complete .asInserted hsplit harcs hok hr

end Flapping

/-- The same node with its first arc, before the answer. -/
def unanswered : Watched ℚ := ⟨⟨(freshNode 0).addArc ⟨1⟩ (.finite 10), none⟩, [[]], []⟩

/-- A run up to the first answer. -/
lemma run_linked {ok : Actor ℚ → Command → Prop}
    (hadd : ok freshWatched.actor (.addArc [⟨1⟩] (.finite 10)))
    (hfetch : ok unanswered.actor (.arcAddFetched ⟨1⟩ (some (oneLevelEtp [])))) :
    Relation.ReflTransGen (Watched.Step ok) freshWatched
      (linked (answeredArc (.finite 10)) none (.finite 10) []) :=
  (Relation.ReflTransGen.refl.tail (b := freshWatched) (c := unanswered)
    (Watched.Step.handle_eq (.addArc [⟨1⟩] (.finite 10)) trivial hadd rfl)).tail
    (Watched.Step.handle_eq (.arcAddFetched ⟨1⟩ (some (oneLevelEtp []))) trivial hfetch rfl)

/-- Candidates of distinct routes undercut nothing. -/
lemma notUndercut_of_nodup [Float64 F] {aChanged : Option ArcId} {s : QspnState F}
    {q : List NodePath} (hnd : (q.map fun np => np.path.route).Nodup) :
    NotUndercut aChanged s q := by
  intro d p1 _ _ c hc
  have hqd : ((candidatesFor q d).map fun np => np.path.route).Nodup :=
    hnd.sublist (List.filter_sublist.map _)
  rw [tail_ofRoute_of_nodup hqd] at hc
  cases hc

/-- A single arc that changes is served, and its new cost is published. -/
theorem published_current_one :
    ∃ n : Watched ℚ, Relation.ReflTransGen (Watched.Step Careful) freshWatched n ∧
      n.AtRest ∧ n.published = [[⟨⟨0, 1⟩, [⟨⟨1⟩, [⟨⟨1⟩, ⟨0, 1⟩⟩], .finite 20, 1⟩]⟩]] ∧
      ∃ snap, n.actor.state.snapshot = .ok snap ∧
        ∀ d, routesTo n.published d = routesTo snap d := by
  have hrun : Relation.ReflTransGen (Watched.Step Careful) freshWatched
      (linked (answeredArc (.finite 20)) (some ⟨⟨1⟩, false⟩) (.finite 20) []) := by
    refine ((run_linked ?_ ?_).tail (b := linked (answeredArc (.finite 10)) none (.finite 10) [])
      (c := linked (answeredArc (.finite 20)) (some ⟨⟨1⟩, false⟩) (.finite 10)
        [⟨some ⟨1⟩, [], [⟨1⟩]⟩]) ?_).tail ?_
    · exact ⟨(fun owed hw => by cases hw), (fun _ _ _ hc => by cases hc),
        fun _ _ _ hm => by cases hm⟩
    · refine ⟨(fun owed hw => by cases hw), (fun _ _ _ hc => by cases hc), fun _ _ _ hm => ?_⟩
      cases hm
      exact notUndercut_of_nodup (by decide)
    · refine Watched.Step.handle_eq (.arcChanged ⟨1⟩ (.finite 20)) trivial ?_ rfl
      exact ⟨(fun owed hw => by cases hw), (fun _ _ _ hc => by cases hc),
        fun _ _ _ hm => by cases hm⟩
    · refine Watched.Step.complete_eq (g := ⟨some ⟨1⟩, [], [⟨1⟩]⟩) rfl
        [(⟨1⟩, some (oneLevelEtp []))] rfl ?_ (by with_unfolding_all rfl)
      refine ⟨(fun owed hw => by cases hw), fun arc extra results hc _ m hm _ => ?_,
        fun _ _ _ hm => ?_⟩
      · cases hc
        obtain ⟨_, hm⟩ := Prod.mk.inj (List.mem_singleton.mp hm)
        cases hm
        refine ⟨rfl, fun v hv => ?_⟩
        cases hv
        decide
      · cases hm
        exact notUndercut_of_nodup (by decide)
  have hrest : (linked (answeredArc (.finite 20)) (some ⟨⟨1⟩, false⟩) (.finite 20) []).AtRest := by
    refine ⟨rfl, ?_⟩
    rintro pending ⟨⟩
    rfl
  have hnew : QspnState.new (oneLevelNode 0) (Fingerprint.new [1] 0 [0]) .default =
      .ok (freshNode 0) := rfl
  exact ⟨_, hrun, hrest, rfl, published_current hnew rfl hrun hrest⟩

/-- **An owed arc is overwritten, and its new cost is not published.**  The second arc changes and
opens the window; the first changes and is owed a gather; the second changes again and takes its
place.  Both gathers complete, with an answer over the first arc that says nothing new, and the
channel still has the old cost of the path over it. -/
theorem not_published_current :
    QspnState.new (oneLevelNode 0) (Fingerprint.new [1] 0 [0]) .default = .ok (freshNode 0) ∧
      (freshNode 0).snapshot = .ok freshWatched.published ∧
      ∃ n : Watched ℚ, Relation.ReflTransGen (Watched.Step fun _ _ => True) freshWatched n ∧
        n.AtRest ∧ ∃ snap, n.actor.state.snapshot = .ok snap ∧
          routesTo n.published ⟨0, 1⟩ ≠ routesTo snap ⟨0, 1⟩ := by
  have hrun : Relation.ReflTransGen (Watched.Step fun _ _ => True) freshWatched
      (linked (answeredArc (.finite 20)) (some ⟨⟨2⟩, false⟩) (.finite 10) []) := by
    refine (((((((run_linked trivial trivial).tail
      (b := linked (answeredArc (.finite 10)) none (.finite 10) [])
      (c := linked (twoArcs (.finite 10) (.finite 10)) none (.finite 10) []) ?_).tail
      (c := linked (twoArcs (.finite 10) (.finite 11)) (some ⟨⟨2⟩, false⟩) (.finite 10)
        [secondGather]) ?_).tail
      (c := linked (twoArcs (.finite 20) (.finite 11)) (some ⟨⟨1⟩, true⟩) (.finite 10)
        [secondGather]) ?_).tail
      (c := linked (twoArcs (.finite 20) (.finite 12)) (some ⟨⟨2⟩, true⟩) (.finite 10)
        [secondGather]) ?_).tail
      (c := linked (twoArcs (.finite 20) (.finite 12)) (some ⟨⟨2⟩, false⟩) (.finite 10)
        [secondGather, secondGather]) ?_).tail
      (c := linked (answeredArc (.finite 20)) (some ⟨⟨2⟩, false⟩) (.finite 10)
        [secondGather]) ?_).tail ?_
    · exact Watched.Step.handle_eq (.addArc [⟨2⟩] (.finite 10)) trivial trivial rfl
    · exact Watched.Step.handle_eq (.arcChanged ⟨2⟩ (.finite 11)) trivial trivial rfl
    · exact Watched.Step.handle_eq (.arcChanged ⟨1⟩ (.finite 20)) trivial trivial rfl
    · exact Watched.Step.handle_eq (.arcChanged ⟨2⟩ (.finite 12)) trivial trivial rfl
    · exact Watched.Step.handle_eq .arcGatherWindowElapsed trivial trivial rfl
    · exact Watched.Step.complete_eq (g := secondGather) rfl oneAnswer rfl trivial
        (by with_unfolding_all rfl)
    · exact Watched.Step.complete_eq (g := secondGather) rfl oneAnswer rfl trivial
        (by with_unfolding_all rfl)
  refine ⟨rfl, rfl, _, hrun, ⟨rfl, ?_⟩, [[⟨⟨0, 1⟩, [⟨⟨1⟩, [⟨⟨1⟩, ⟨0, 1⟩⟩], .finite 20, 1⟩]⟩]], rfl,
    ?_⟩
  · rintro pending ⟨⟩
    rfl
  · intro heq
    have hmem : (⟨⟨1⟩, [⟨⟨1⟩, ⟨0, 1⟩⟩], .finite 10, 1⟩ : RoutePath) ∈
        routesTo (linked (answeredArc (.finite 20)) (some ⟨⟨2⟩, false⟩) (.finite 10) []).published
          ⟨0, 1⟩ :=
      ⟨_, List.mem_cons_self, _, List.mem_cons_self, rfl, List.mem_cons_self⟩
    rw [heq] at hmem
    obtain ⟨entries, hentries, e, he, _, hpath⟩ := hmem
    obtain rfl := List.mem_singleton.mp hentries
    obtain rfl := List.mem_singleton.mp he
    have := List.mem_singleton.mp hpath
    revert this
    decide

end Netsukuku
