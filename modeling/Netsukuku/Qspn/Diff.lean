import Mathlib
import Netsukuku.Qspn.Withdrawal

/-!
# The paths a call reports, as a diff of the map

What `update_map` reports is meant to be forwarded: a neighbour, or the published snapshot, that
applies the reported paths to the map as it was should have the map as it is.  A report is keyed
by route; a dead one deletes, any other inserts or replaces the fact.

* `RouteMap`, `applyDiff`, `view` — a map keyed by route, what reports do to it, and the map of a
  state as its neighbours are told it.
* `announceNew_paths`, `announceKnown_paths` — the reports of one turn, exactly.
* `Told` — the condition on one admitted path, read off the state its turn finds.
* `applyDiff_turn_iff`, `applyDiff_eq_view_iff` — the reports are a diff exactly when every
  admitted path is `Told`.
* `applyDiff_updateMap_of_nodup` — it is whenever no candidate repeats a route and no arc is dead.

The condition fails in two ways.  The merge consumes the first candidate of a stored route only;
if that one says nothing new and a further candidate of the same route is cheaper, the sort and
the dedup store the further one and nothing is reported.  And a path over an arc of dead cost is
stored, while its report is a dead one.
-/

namespace Netsukuku

variable {F : Type}

/-! ## Maps keyed by route -/

/-- Cost, fingerprint and size of each route. -/
abbrev RouteMap := List HCoord × List ArcId → Option (Cost × Fp × UInt32)

/-- What a path says, its route apart. -/
def EtpPath.fact (p : EtpPath) : Cost × Fp × UInt32 := (p.cost, p.fingerprint, p.nodesInside)

/-- What a report says about its route. -/
def reportedFact (p : EtpPath) : Option (Cost × Fp × UInt32) :=
  if p.cost.isDead then none else some p.fact

/-- One report: a dead one deletes its route, any other inserts or replaces it. -/
def applyReport (m : RouteMap) (p : EtpPath) : RouteMap :=
  Function.update m p.route (reportedFact p)

/-- The reports in order. -/
def applyDiff (m : RouteMap) (paths : List EtpPath) : RouteMap := paths.foldl applyReport m

/-- The first path of a route among stored ones, in wire form. -/
def wireOf (arcCost : ArcId → Cost) (k : List HCoord × List ArcId) (l : List NodePath) :
    Option (Cost × Fp × UInt32) :=
  (l.find? fun np => decide (np.path.route = k)).map fun np =>
    (prepareForSending np (arcCost np.arc)).fact

/-- The map of a state as its neighbours are told it: every stored path in wire form. -/
def view (s : QspnState F) : RouteMap := fun k =>
  k.1.getLast?.bind fun d => wireOf s.arcCost k (s.storedAt d)

/-- The reports about one route. -/
def reportsOn (k : List HCoord × List ArcId) (paths : List EtpPath) : List EtpPath :=
  paths.filter fun p => decide (p.route = k)

/-- Only the reports about a route count for it. -/
lemma applyDiff_apply (k : List HCoord × List ArcId) :
    ∀ (paths : List EtpPath) (m : RouteMap),
      applyDiff m paths k = applyDiff m (reportsOn k paths) k
  | [], _ => rfl
  | p :: paths, m => by
      by_cases hp : p.route = k
      · rw [reportsOn, List.filter_cons_of_pos (by simpa using hp)]
        exact applyDiff_apply k paths (applyReport m p)
      · have hskip : applyReport m p k = m k := Function.update_of_ne (Ne.symm hp) _ _
        have hcongr : ∀ (l : List EtpPath) (m₁ m₂ : RouteMap), m₁ k = m₂ k →
            applyDiff m₁ l k = applyDiff m₂ l k := by
          intro l
          induction l with
          | nil => exact fun _ _ h => h
          | cons x l ih =>
              intro m₁ m₂ h
              refine ih _ _ ?_
              by_cases hx : k = x.route
              · subst hx
                simp only [applyReport, Function.update_self]
              · simp only [applyReport, Function.update_of_ne hx, h]
        rw [reportsOn, List.filter_cons_of_neg (by simpa using hp)]
        rw [show applyDiff m (p :: paths) k = applyDiff (applyReport m p) paths k from rfl,
          applyDiff_apply k paths (applyReport m p)]
        exact hcongr _ _ _ hskip

/-- A route nothing is reported about keeps what the map has. -/
lemma applyDiff_of_reportsOn_nil {k : List HCoord × List ArcId} {paths : List EtpPath}
    (h : reportsOn k paths = []) (m : RouteMap) : applyDiff m paths k = m k := by
  rw [applyDiff_apply, h]
  rfl

/-- A route reported once is as reported. -/
lemma applyDiff_of_reportsOn_singleton {k : List HCoord × List ArcId} {paths : List EtpPath}
    {p : EtpPath} (h : reportsOn k paths = [p]) (m : RouteMap) :
    applyDiff m paths k = reportedFact p := by
  have hp : p ∈ reportsOn k paths := h ▸ List.mem_singleton_self p
  have hk : p.route = k := of_decide_eq_true (List.mem_filter.mp hp).2
  rw [applyDiff_apply, h, ← hk]
  exact Function.update_self _ _ _

/-- Paths that agree up to exposure are told alike. -/
lemma wireOf_congr {arcCost : ArcId → Cost} {k : List HCoord × List ArcId} :
    ∀ {l l' : List NodePath}, l'.map NodePath.core = l.map NodePath.core →
      wireOf arcCost k l' = wireOf arcCost k l
  | [], [], _ => rfl
  | [], _ :: _, h => by cases h
  | _ :: _, [], h => by cases h
  | x :: l, x' :: l', h => by
      obtain ⟨hx, hl⟩ := List.cons.inj h
      have hpath := NodePath.path_eq_of_core hx
      have harc := NodePath.arc_eq_of_core hx
      have ih : wireOf arcCost k l' = wireOf arcCost k l := wireOf_congr hl
      unfold wireOf at ih ⊢
      by_cases hk : x.path.route = k
      · have hk' : x'.path.route = k := hpath ▸ hk
        simp only [List.find?_cons, hk, decide_true, Option.map_some, prepareForSending,
          NodePath.totalCost, hpath, harc]
      · have hk' : ¬ x'.path.route = k := hpath ▸ hk
        simp only [List.find?_cons, hk, hk', decide_false]
        exact ih

/-! ## The reports of one turn -/

section Turn

variable [Float64 F]

/-- What a turn does with the admitted path `p` is told, given the stored paths `md` and the
candidates `qd` it found.  A path that was not stored, or whose merge is reported, must not leave
over an arc of dead cost; a stored path whose merge is not reported must not be undercut by a
further candidate of its route. -/
def Told (tol : F) (aChanged : Option ArcId) (arcCost : ArcId → Cost) (md qd : List NodePath)
    (p : NodePath) : Prop :=
  match md.find? fun p1 => decide (p1.path.route = p.path.route) with
  | none => arcCost p.arc ≠ .dead
  | some p1 =>
      if reported tol aChanged qd p1 then arcCost p.arc ≠ .dead
      else ∀ c ∈ (ofRoute p1.path.route qd).tail,
        p1.totalCost (arcCost p1.arc) ≤ c.totalCost (arcCost c.arc)

lemma any_hopsArcsEqual_iff {md : List NodePath} {p : EtpPath} :
    (md.any fun q => q.hopsArcsEqual p) = true ↔ p.route ∈ md.map fun q => q.path.route := by
  simp only [List.any_eq_true, NodePath.hopsArcsEqual_iff, List.mem_map]

/-- The wire form of an admitted path is dead exactly when its arc is. -/
lemma reportedFact_wire_iff {arcCost : ArcId → Cost} {p : NodePath} (hlive : p.path.cost ≠ .dead) :
    reportedFact (prepareForSending p (arcCost p.arc)) =
        some (prepareForSending p (arcCost p.arc)).fact ↔ arcCost p.arc ≠ .dead := by
  unfold reportedFact
  have hdead : (prepareForSending p (arcCost p.arc)).cost.isDead = true ↔ arcCost p.arc = .dead := by
    rw [Cost.isDead_iff]
    exact Cost.saturatingAdd_eq_dead.trans (or_iff_left hlive)
  split_ifs with h
  · exact iff_of_false (by simp) (not_not.mpr (hdead.mp h))
  · exact iff_of_true rfl fun hd => h (hdead.mpr hd)

variable {s : QspnState F} {qd : List NodePath} {d : HCoord} {aChanged : Option ArcId}
  {zSet : List (List HCoord)} {arcCost : ArcId → Cost} {plan : Plan}

/-- **The reports of a plan.**  They are those of the stored paths, and the admitted paths that
were not stored. -/
lemma planDestination_reports (h : planDestination s qd d aChanged zSet arcCost = .ok plan) :
    ∃ od, admitted s arcCost zSet d
        (mergeKnown s.config.nodesInsideTolerance aChanged (s.storedAt d) qd) = .ok od ∧
      plan.od.map NodePath.core = od.map NodePath.core ∧
      plan.allPathsSet =
        ((od.filter fun p => !(s.storedAt d).any fun q => q.hopsArcsEqual p.path).map fun p =>
          prepareForSending p (arcCost p.arc)) ++
        (s.storedAt d).flatMap (knownReport arcCost
          (mergeKnown s.config.nodesInsideTolerance aChanged (s.storedAt d) qd).vd od) := by
  obtain ⟨od, validFp, fresh, known, hod, hfresh, hknown, hplan, hpaths⟩ := planDestination_eq_ok h
  obtain ⟨hcore₁, hpaths₁⟩ := announceNew_spec hfresh
  obtain ⟨hcore₂, hpaths₂⟩ := announceKnown_spec hknown
  refine ⟨od, hod, by rw [hplan, hcore₂, hcore₁], ?_⟩
  rw [hpaths, hpaths₁, hpaths₂]
  congr 2
  funext x
  exact knownReport_congr hcore₁

/-- A stored route is reported once at most, by its stored path. -/
lemma reportsOn_stored (arcCost : ArcId → Cost) {md : List NodePath} (od vd : List NodePath)
    {p1 : NodePath} (hnd : (md.map fun p => p.path.route).Nodup) (hp1 : p1 ∈ md) :
    reportsOn p1.path.route
        (((od.filter fun p => !md.any fun q => q.hopsArcsEqual p.path).map fun p =>
          prepareForSending p (arcCost p.arc)) ++ md.flatMap (knownReport arcCost vd od)) =
      knownReport arcCost vd od p1 := by
  have hmem : p1.path.route ∈ md.map fun p => p.path.route :=
    List.mem_map_of_mem (f := fun p : NodePath => p.path.route) hp1
  have hnew : reportsOn p1.path.route
      ((od.filter fun p => !md.any fun q => q.hopsArcsEqual p.path).map fun p =>
        prepareForSending p (arcCost p.arc)) = [] := by
    rw [reportsOn, List.filter_eq_nil_iff]
    intro x hx hroute
    obtain ⟨p, hp, rfl⟩ := List.mem_map.mp hx
    have hstored : (md.any fun q => q.hopsArcsEqual p.path) = true := by
      rw [any_hopsArcsEqual_iff]
      exact (of_decide_eq_true hroute : p.path.route = _) ▸ hmem
    have := (List.mem_filter.mp hp).2
    rw [hstored] at this
    cases this
  have hown : (knownReport arcCost vd od p1).filter (fun x => decide (x.route = p1.path.route)) =
      knownReport arcCost vd od p1 :=
    List.filter_eq_self.mpr fun x hx => decide_eq_true (mem_knownReport hx).1
  rw [reportsOn, List.filter_append, ← reportsOn, hnew, List.nil_append,
    Scan.filter_flatMap_of_nodup _ hnd hp1 fun x _ y hy hroute =>
      (mem_knownReport hy).1.symm.trans (of_decide_eq_true hroute), hown]

/-- A route that was not stored is reported by the admitted path, if there is one. -/
lemma reportsOn_new {md od vd : List NodePath} {k : List HCoord × List ArcId}
    (hk : k ∉ md.map fun p => p.path.route) :
    reportsOn k
        (((od.filter fun p => !md.any fun q => q.hopsArcsEqual p.path).map fun p =>
          prepareForSending p (arcCost p.arc)) ++ md.flatMap (knownReport arcCost vd od)) =
      (ofRoute k od).map fun p => prepareForSending p (arcCost p.arc) := by
  have hknown : reportsOn k (md.flatMap (knownReport arcCost vd od)) = [] := by
    rw [reportsOn, List.filter_eq_nil_iff]
    intro x hx hroute
    obtain ⟨p, hp, hx⟩ := List.mem_flatMap.mp hx
    have hpk : p.path.route = k := (mem_knownReport hx).1.symm.trans (of_decide_eq_true hroute)
    exact hk (hpk ▸ List.mem_map_of_mem (f := fun p : NodePath => p.path.route) hp)
  have hnew : reportsOn k ((od.filter fun p => !md.any fun q => q.hopsArcsEqual p.path).map fun p =>
      prepareForSending p (arcCost p.arc)) =
      (ofRoute k od).map fun p => prepareForSending p (arcCost p.arc) := by
    rw [reportsOn, List.filter_map, List.filter_filter, ofRoute]
    congr 1
    refine List.filter_congr fun p _ => ?_
    by_cases hpk : p.path.route = k
    · have hstored : (md.any fun q => q.hopsArcsEqual p.path) = false := by
        rw [← Bool.not_eq_true, any_hopsArcsEqual_iff, hpk]
        exact hk
      simp [hpk, hstored]
    · simp [hpk]
  rw [reportsOn, List.filter_append, ← reportsOn, hnew, ← reportsOn, hknown, List.append_nil]

/-- The stored path of a route, when the stored routes are distinct. -/
lemma find?_route_of_mem {md : List NodePath} {p1 : NodePath}
    (hnd : (md.map fun p => p.path.route).Nodup) (hp1 : p1 ∈ md) :
    (md.find? fun p => decide (p.path.route = p1.path.route)) = some p1 :=
  Scan.find?_eq_some_of_nodup hnd hp1

lemma find?_hopsArcsEqual (l : List NodePath) (p : EtpPath) :
    (l.find? fun o => o.hopsArcsEqual p) = l.find? fun o => decide (o.path.route = p.route) := by
  congr 1
  funext o
  exact hopsArcsEqual_eq_decide o p

/-- A route that is not admitted is deleted if it was stored, and told nothing about if not. -/
lemma applyDiff_of_not_admitted {md od vd : List NodePath} {k : List HCoord × List ArcId}
    (hnd : (md.map fun p => p.path.route).Nodup)
    (hod : (od.find? fun p => decide (p.path.route = k)) = none) {m : RouteMap}
    (hm : m k = wireOf arcCost k md) :
    applyDiff m (((od.filter fun p => !md.any fun q => q.hopsArcsEqual p.path).map fun p =>
      prepareForSending p (arcCost p.arc)) ++ md.flatMap (knownReport arcCost vd od)) k = none := by
  by_cases hk : k ∈ md.map fun p => p.path.route
  · obtain ⟨p1, hp1, rfl⟩ := List.mem_map.mp hk
    have hreport : knownReport arcCost vd od p1 =
        [deadPath (prepareForSending p1 (arcCost p1.arc))] := by
      simp only [knownReport, find?_hopsArcsEqual, hod]
    rw [applyDiff_of_reportsOn_singleton ((reportsOn_stored arcCost _ _ hnd hp1).trans hreport)]
    rfl
  · have hnone : ofRoute k od = [] := by
      rw [ofRoute, List.filter_eq_nil_iff]
      exact List.find?_eq_none.mp hod
    have hbefore : (md.find? fun p => decide (p.path.route = k)) = none := by
      rw [List.find?_eq_none]
      intro p hp hpk
      exact hk (of_decide_eq_true hpk ▸ List.mem_map_of_mem (f := fun p : NodePath => p.path.route) hp)
    rw [applyDiff_of_reportsOn_nil (by rw [reportsOn_new hk, hnone, List.map_nil]), hm, wireOf,
      hbefore]
    rfl

/-- An admitted path that is reported is told exactly when its arc is alive. -/
lemma applyDiff_of_reported {o : NodePath} (hlive : o.path.cost ≠ .dead) {paths : List EtpPath}
    (hreport : reportsOn o.path.route paths = [prepareForSending o (arcCost o.arc)]) (m : RouteMap) :
    applyDiff m paths o.path.route = some (prepareForSending o (arcCost o.arc)).fact ↔
      arcCost o.arc ≠ .dead := by
  rw [applyDiff_of_reportsOn_singleton hreport]
  exact reportedFact_wire_iff hlive

/-- **A stored path that is not reported stays what it was exactly when nothing undercuts it.** -/
lemma fact_eq_iff_not_undercut {tol : F} {md : List NodePath} {p1 o : NodePath}
    (hnd : (md.map fun p => p.path.route).Nodup) (hp1 : p1 ∈ md)
    (hunreported : reported tol aChanged qd p1 = false)
    (ho : Scan.firstMin (fun np => np.totalCost (arcCost np.arc)) (ofRoute p1.path.route
      ((mergeKnown tol aChanged md qd).od ++ (mergeKnown tol aChanged md qd).rest)) = some o) :
    (prepareForSending p1 (arcCost p1.arc)).fact = (prepareForSending o (arcCost o.arc)).fact ↔
      ∀ c ∈ (ofRoute p1.path.route qd).tail,
        p1.totalCost (arcCost p1.arc) ≤ c.totalCost (arcCost c.arc) := by
  rw [ofRoute_merged hnd hp1, mergedWith_of_not_reported hunreported] at ho
  constructor
  · intro hfact c hc
    have htotal : p1.totalCost (arcCost p1.arc) = o.totalCost (arcCost o.arc) :=
      congrArg Prod.fst hfact
    rw [htotal]
    exact Scan.firstMin_le ho c (List.mem_cons_of_mem p1 hc)
  · intro hle
    rw [Scan.firstMin_cons_of_le hle] at ho
    rw [Option.some.inj ho]

/-- **One turn is a diff on a route exactly when what it admits of the route is told.** -/
theorem applyDiff_turn_iff (hnd : ((s.storedAt d).map fun p => p.path.route).Nodup)
    (h : planDestination s qd d aChanged zSet arcCost = .ok plan) (k : List HCoord × List ArcId)
    {m : RouteMap} (hm : m k = wireOf arcCost k (s.storedAt d)) :
    applyDiff m plan.allPathsSet k = wireOf arcCost k plan.od ↔
      ∀ od, admitted s arcCost zSet d
          (mergeKnown s.config.nodesInsideTolerance aChanged (s.storedAt d) qd) = .ok od →
        ∀ p ∈ od, p.path.route = k →
          Told s.config.nodesInsideTolerance aChanged arcCost (s.storedAt d) qd p := by
  obtain ⟨od, hod, hcore, hpaths⟩ := planDestination_reports h
  obtain ⟨_, hlive, hodnd, _⟩ := admitted_spec hod
  rw [hod, hpaths, wireOf_congr hcore]
  simp only [Except.ok.injEq, forall_eq']
  cases ho : od.find? fun p => decide (p.path.route = k) with
  | none =>
      refine iff_of_true ?_ fun p hp hpk => ?_
      · rw [applyDiff_of_not_admitted hnd ho hm, wireOf, ho]
        rfl
      · exact absurd (decide_eq_true hpk) (List.find?_eq_none.mp ho p hp)
  | some o =>
      have homem : o ∈ od := List.mem_of_find?_eq_some ho
      obtain rfl : o.path.route = k := of_decide_eq_true
        (List.find?_some (p := fun p : NodePath => decide (p.path.route = k)) ho)
      -- the admitted routes are distinct, so `o` is the one path to look at
      have honly : (∀ p ∈ od, p.path.route = o.path.route →
          Told s.config.nodesInsideTolerance aChanged arcCost (s.storedAt d) qd p) ↔
          Told s.config.nodesInsideTolerance aChanged arcCost (s.storedAt d) qd o := by
        refine ⟨fun hall => hall o homem rfl, fun hto p hp hpo => ?_⟩
        rw [Scan.eq_of_key_eq_of_nodup hodnd hp homem hpo]
        exact hto
      rw [honly, wireOf, ho, Option.map_some, Told]
      by_cases hk : o.path.route ∈ (s.storedAt d).map fun p => p.path.route
      · obtain ⟨p1, hp1, hroute⟩ := List.mem_map.mp hk
        have hfind : (s.storedAt d).find? (fun p => decide (p.path.route = o.path.route)) =
            some p1 := hroute ▸ find?_route_of_mem hnd hp1
        have hreports := reportsOn_stored arcCost od
          (mergeKnown s.config.nodesInsideTolerance aChanged (s.storedAt d) qd).vd hnd hp1
        rw [knownReport, find?_hopsArcsEqual, hroute, ho] at hreports
        simp only [any_mergeKnown_vd _ _ _ hnd hp1] at hreports
        simp only [hfind]
        split_ifs at hreports ⊢ with hrep
        · exact applyDiff_of_reported (hlive o homem) hreports m
        · rw [applyDiff_of_reportsOn_nil hreports, hm, wireOf, hfind, Option.map_some,
            Option.some.injEq]
          refine fact_eq_iff_not_undercut hnd hp1 (Bool.eq_false_of_not_eq_true hrep) ?_
          rw [hroute]
          exact firstMin_of_mem_admitted hod homem
      · have hfind : (s.storedAt d).find? (fun p => decide (p.path.route = o.path.route)) = none := by
          rw [List.find?_eq_none]
          intro p hp hpk
          exact hk (of_decide_eq_true hpk ▸
            List.mem_map_of_mem (f := fun p : NodePath => p.path.route) hp)
        simp only [hfind]
        refine applyDiff_of_reported (hlive o homem) ?_ m
        rw [reportsOn_new hk, ofRoute, Scan.filter_key_of_nodup hodnd homem]
        rfl

end Turn

/-! ## The reports of a call -/

section Call

variable [Float64 F]

/-- Every path a turn admits is told, on the state the turn finds. -/
def TurnTold (aChanged : Option ArcId) (zSet : List (List HCoord)) (arcCost : ArcId → Cost)
    (q : List NodePath) (t : QspnState F × HCoord) : Prop :=
  ∀ od, admitted t.1 arcCost zSet t.2 (mergeKnown t.1.config.nodesInsideTolerance aChanged
      (t.1.storedAt t.2) (candidatesFor q t.2)) = .ok od →
    ∀ p ∈ od, Told t.1.config.nodesInsideTolerance aChanged arcCost (t.1.storedAt t.2)
      (candidatesFor q t.2) p

variable {order : MapOrder} {aChanged : Option ArcId} {zSet : List (List HCoord)}
  {q : List NodePath} {s s' : QspnState F} {t : QspnState F × HCoord}

/-- Paths stored for, and candidates of, a turn's destination end there. -/
lemma TurnOk.getLast (hs : MapInv s) (ht : TurnOk order aChanged zSet s.arcCost q s s' t)
    {np : NodePath} (hnp : np ∈ t.1.storedAt t.2 ++ candidatesFor q t.2) :
    np.path.hops.getLast? = some t.2 := by
  rw [ht.before] at hnp
  rcases List.mem_append.mp hnp with hnp | hnp
  · exact (hs.pathInv hnp).last
  · exact of_decide_eq_true (List.mem_filter.mp hnp).2

/-- A turn reports on its own destination only. -/
lemma TurnOk.getLast_report (hs : MapInv s) (ht : TurnOk order aChanged zSet s.arcCost q s s' t)
    {p : EtpPath} (hp : p ∈ turnReports aChanged zSet s.arcCost q t) :
    p.hops.getLast? = some t.2 := by
  obtain ⟨plan, hplan, _⟩ := ht.plan
  rw [turnReports, hplan] at hp
  obtain ⟨_, _, _, _, hpaths⟩ := planDestination_spec hplan
  obtain ⟨np, hnp, hroute, _⟩ := hpaths p hp
  have hhops : p.hops = np.path.hops := congrArg Prod.fst hroute
  rw [hhops]
  exact ht.getLast hs hnp

/-- On a route to its destination, a call does what the turn does. -/
lemma TurnOk.applyDiff_iff (hs : MapInv s) {keys : List HCoord} (hnd : keys.Nodup)
    (hturns : ∀ t ∈ turns order aChanged zSet s.arcCost q s keys,
      TurnOk order aChanged zSet s.arcCost q s s' t)
    (hframe : SameFrame s s') (htm : t ∈ turns order aChanged zSet s.arcCost q s keys)
    {k : List HCoord × List ArcId} (hk : k.1.getLast? = some t.2) :
    applyDiff (view s) ((turns order aChanged zSet s.arcCost q s keys).flatMap
        (turnReports aChanged zSet s.arcCost q)) k = view s' k ↔
      ∀ od, admitted t.1 s.arcCost zSet t.2 (mergeKnown t.1.config.nodesInsideTolerance aChanged
          (t.1.storedAt t.2) (candidatesFor q t.2)) = .ok od →
        ∀ p ∈ od, p.path.route = k → Told t.1.config.nodesInsideTolerance aChanged s.arcCost
          (t.1.storedAt t.2) (candidatesFor q t.2) p := by
  have ht := hturns t htm
  obtain ⟨plan, hplan, hafter⟩ := ht.plan
  have hreports : turnReports aChanged zSet s.arcCost q t = plan.allPathsSet := by
    rw [turnReports, hplan]
  -- the other turns report on other destinations
  have hown : reportsOn k ((turns order aChanged zSet s.arcCost q s keys).flatMap
      (turnReports aChanged zSet s.arcCost q)) = reportsOn k plan.allPathsSet := by
    rw [← hreports]
    refine Scan.filter_flatMap_of_nodup Prod.snd ?_ htm fun t' ht' p hp hpk => ?_
    · rw [map_snd_turns]
      exact hnd
    · have hlast := (hturns t' ht').getLast_report hs hp
      rw [show p.hops = k.1 from congrArg Prod.fst (of_decide_eq_true hpk), hk] at hlast
      exact (Option.some.inj hlast).symm
  have hview : view s' k = wireOf s.arcCost k plan.od := by
    rw [view, hk, Option.bind_some, hframe.arcCost, hafter]
  have hbefore : view s k = wireOf s.arcCost k (t.1.storedAt t.2) := by
    rw [view, hk, Option.bind_some, ht.before]
  have hroutes : ((t.1.storedAt t.2).map fun p => p.path.route).Nodup := by
    rw [ht.before]
    exact hs.routes_nodup t.2
  rw [hview, applyDiff_apply, hown, ← applyDiff_apply]
  exact applyDiff_turn_iff hroutes hplan k hbefore

/-- A call that returned is a diff exactly when all its turns are told. -/
lemma applyDiff_eq_view_iff (hs : MapInv s) {out : UpdateMapOutcome} {keys : List HCoord}
    (hrun : updateMap order s q aChanged = (s', .ok out))
    (hkeys : updateMapKeys order s q = .ok (zSet, keys)) :
    applyDiff (view s) out.allPathsSet = view s' ↔
      ∀ t ∈ turns order aChanged zSet s.arcCost q s keys,
        TurnTold aChanged zSet s.arcCost q t := by
  obtain ⟨zSet', keys', hkeys', hnd, _, hpaths, hother, hturns⟩ := updateMap_turns hrun
  obtain ⟨rfl, rfl⟩ : zSet = zSet' ∧ keys = keys' := by
    simpa using Except.ok.inj (hkeys.symm.trans hkeys')
  have hframe : SameFrame s s' := by
    have := (updateMap_storedFrom order s q aChanged).1
    rwa [hrun] at this
  rw [hpaths, funext_iff]
  constructor
  · intro hdiff t ht od hod p hp
    have hmem := mem_mergeKnown
      ((List.mem_append.mp ((admitted_spec hod).1 p hp)).imp_right Or.inr)
    have hlast := (hturns t ht).getLast hs hmem
    exact (TurnOk.applyDiff_iff hs hnd hturns hframe ht hlast).mp (hdiff p.path.route) od
      hod p hp rfl
  · intro htold k
    by_cases hk : ∃ t ∈ turns order aChanged zSet s.arcCost q s keys, k.1.getLast? = some t.2
    · obtain ⟨t, ht, hlast⟩ := hk
      exact (TurnOk.applyDiff_iff hs hnd hturns hframe ht hlast).mpr
        fun od hod p hp _ => htold t ht od hod p hp
    · -- no turn for the route: nothing is reported on it and nothing changes
      push Not at hk
      have hnone : reportsOn k ((turns order aChanged zSet s.arcCost q s keys).flatMap
          (turnReports aChanged zSet s.arcCost q)) = [] := by
        rw [reportsOn, List.filter_eq_nil_iff]
        intro p hp hpk
        obtain ⟨t, ht, hp⟩ := List.mem_flatMap.mp hp
        have hlast := (hturns t ht).getLast_report hs hp
        rw [show p.hops = k.1 from congrArg Prod.fst (of_decide_eq_true hpk)] at hlast
        exact hk t ht hlast
      rw [applyDiff_of_reportsOn_nil hnone, view, view, hframe.arcCost]
      cases hlast : k.1.getLast? with
      | none => rfl
      | some d =>
          have hd : d ∉ keys := by
            intro hd
            rw [← map_snd_turns order aChanged zSet s.arcCost q s keys] at hd
            obtain ⟨t, ht, rfl⟩ := List.mem_map.mp hd
            exact hk t ht hlast
          rw [Option.bind_some, Option.bind_some, hother d hd]

/-- **The reports of `update_map` are a diff of the map exactly when every admitted path is told.**
For a state satisfying the invariant and candidates revised from accepted messages, `update_map`
returns, and applying what it reports to the map it found gives the map it leaves if and only if
no turn admits a path over a dead arc as new or changed, or lets a further candidate of a stored
route undercut the stored path unreported. -/
theorem applyDiff_updateMap_iff {s₀ : QspnState F} (hs₀ : RepInv s₀) (hrev : Revised s₀ s q)
    (order : MapOrder) (aChanged : Option ArcId) :
    ∃ s' out zSet keys, updateMap order s q aChanged = (s', .ok out) ∧
      updateMapKeys order s q = .ok (zSet, keys) ∧
      (applyDiff (view s) out.allPathsSet = view s' ↔
        ∀ t ∈ turns order aChanged zSet s.arcCost q s keys,
          TurnTold aChanged zSet s.arcCost q t) := by
  obtain ⟨hs, hq, harcs⟩ := hrev.repInv hs₀
  obtain ⟨s', out, hrun, _⟩ := hs.updateMap order hq harcs aChanged
  obtain ⟨zSet, keys, hkeys, _⟩ := updateMap_turns hrun
  exact ⟨s', out, zSet, keys, hrun, hkeys, applyDiff_eq_view_iff hs.toMapInv hrun hkeys⟩

/-- Where no candidate repeats a route, nothing is left to undercut a stored path. -/
lemma tail_ofRoute_of_nodup {qd : List NodePath} (hnd : (qd.map fun p => p.path.route).Nodup)
    (k : List HCoord × List ArcId) : (ofRoute k qd).tail = [] := by
  by_cases hk : ∃ p ∈ qd, p.path.route = k
  · obtain ⟨p, hp, rfl⟩ := hk
    rw [ofRoute, Scan.filter_key_of_nodup hnd hp, List.tail_cons]
  · have hnone : ofRoute k qd = [] := by
      rw [ofRoute, List.filter_eq_nil_iff]
      exact fun p hp hpk => hk ⟨p, hp, of_decide_eq_true hpk⟩
    rw [hnone, List.tail_nil]

/-- **Without repeated routes and dead arcs the reports are a diff.** -/
theorem applyDiff_updateMap_of_nodup {s₀ : QspnState F} (hs₀ : RepInv s₀) (hrev : Revised s₀ s q)
    (hnd : (q.map fun p => p.path.route).Nodup)
    (hlive : ∀ arc, s.containsArc arc = true → s.arcCost arc ≠ .dead)
    (order : MapOrder) (aChanged : Option ArcId) :
    ∃ s' out, updateMap order s q aChanged = (s', .ok out) ∧
      applyDiff (view s) out.allPathsSet = view s' := by
  obtain ⟨hs, hq, harcs⟩ := hrev.repInv hs₀
  obtain ⟨s', out, hrun, _⟩ := hs.updateMap order hq harcs aChanged
  obtain ⟨zSet, keys, hkeys, _, _, _, _, hturns⟩ := updateMap_turns hrun
  refine ⟨s', out, hrun, (applyDiff_eq_view_iff hs.toMapInv hrun hkeys).mpr
    fun t ht od hod p hp => ?_⟩
  have harc : s.arcCost p.arc ≠ .dead := by
    refine hlive p.arc ?_
    have hmem := mem_mergeKnown
      ((List.mem_append.mp ((admitted_spec hod).1 p hp)).imp_right Or.inr)
    rw [(hturns t ht).before] at hmem
    rcases List.mem_append.mp hmem with hold | hnew
    · exact hs.arc_current t.2 p hold
    · exact harcs p (List.mem_filter.mp hnew).1
  have hqd : ((candidatesFor q t.2).map fun p => p.path.route).Nodup :=
    hnd.sublist (List.filter_sublist.map _)
  unfold Told
  split
  · exact harc
  · split_ifs
    · exact harc
    · rw [tail_ofRoute_of_nodup hqd]
      exact fun c hc => absurd hc List.not_mem_nil

end Call

/-! ## A route repeated in one message -/

/-- A message of the node at position 1 that repeats the route to position 2: first at the cost
the receiver has stored, then cheaper. -/
def repeatingEtp : EtpMessage :=
  oneLevelEtp [oneLevelPath [⟨0, 2⟩] [⟨7⟩] (.finite 5), oneLevelPath [⟨0, 2⟩] [⟨7⟩] (.finite 3)]

/-- The repeated route, as the receiver stores it. -/
def relayedRoute : List HCoord × List ArcId := ([⟨0, 1⟩, ⟨0, 2⟩], [⟨1⟩, ⟨7⟩])

/-- The candidates of the repeating message at the one-level node. -/
def repeatedCandidates : List NodePath :=
  [oneLevelRelayed (.finite 5), oneLevelRelayed (.finite 3),
    NodePath.new ⟨1⟩ (intrinsicPath 1 ⟨0, 1⟩ ⟨1⟩ (Fingerprint.new [1] 0 [0]) 1)]

/-- The one-level node once the repeating message is recorded. -/
def repeatingState : QspnState ℚ :=
  ((oneLevelState (oneLevelRelayed (.finite 5))).reviseOver ⟨1⟩ repeatingEtp false).1

lemma revised_repeating :
    Revised (oneLevelState (oneLevelRelayed (.finite 5))) repeatingState repeatedCandidates :=
  Revised.nil.revised (m := repeatingEtp)
    (r := ⟨[⟨0, 1⟩], repeatedCandidates⟩) rfl (by decide) rfl

theorem applyDiff_updateMap_iff_repeating :
    ∃ s' out zSet keys, updateMap .asInserted repeatingState repeatedCandidates none =
        (s', .ok out) ∧
      updateMapKeys .asInserted repeatingState repeatedCandidates = .ok (zSet, keys) ∧
      (applyDiff (view repeatingState) out.allPathsSet = view s' ↔
        ∀ t ∈ turns .asInserted none zSet repeatingState.arcCost repeatedCandidates repeatingState
          keys, TurnTold none zSet repeatingState.arcCost repeatedCandidates t) :=
  applyDiff_updateMap_iff oneLevelRelayed_repInv revised_repeating .asInserted none

/-- **The cheaper copy is stored and nothing is said.**  The node ends up with the route at cost
13, while the reports leave it at 15. -/
theorem not_applyDiff_repeating :
    RepInv (oneLevelState (oneLevelRelayed (.finite 5))) ∧
      Revised (oneLevelState (oneLevelRelayed (.finite 5))) repeatingState repeatedCandidates ∧
      ∃ s' out, updateMap .asInserted repeatingState repeatedCandidates none = (s', .ok out) ∧
        view s' relayedRoute = some (.finite 13, Fingerprint.new [2] 0 [0], 1) ∧
        applyDiff (view repeatingState) out.allPathsSet relayedRoute =
          some (.finite 15, Fingerprint.new [2] 0 [0], 1) ∧
        applyDiff (view repeatingState) out.allPathsSet ≠ view s' := by
  refine ⟨oneLevelRelayed_repInv, revised_repeating, ?_⟩
  obtain ⟨hs, hq, harcs⟩ := revised_repeating.repInv oneLevelRelayed_repInv
  obtain ⟨s', out, hrun, _⟩ := hs.updateMap .asInserted hq harcs none
  have hafter : view (updateMap .asInserted repeatingState repeatedCandidates none).1
      relayedRoute = some (.finite 13, Fingerprint.new [2] 0 [0], 1) := by
    decide +kernel
  have hrun' : ((updateMap .asInserted repeatingState repeatedCandidates none).2.toOption.map
      fun out => applyDiff (view repeatingState) out.allPathsSet relayedRoute) =
      some (some (.finite 15, Fingerprint.new [2] 0 [0], 1)) := by
    decide +kernel
  rw [hrun] at hafter hrun'
  have htold : applyDiff (view repeatingState) out.allPathsSet relayedRoute =
      some (.finite 15, Fingerprint.new [2] 0 [0], 1) := Option.some.inj hrun'
  refine ⟨s', out, hrun, hafter, htold, fun heq => ?_⟩
  rw [heq, hafter] at htold
  exact absurd htold (by decide)

end Netsukuku
