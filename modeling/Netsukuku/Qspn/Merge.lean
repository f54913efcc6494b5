import Mathlib
import Netsukuku.Qspn.Reachable

/-!
# What the merge keeps of each route

The stored paths of a destination have distinct routes, and so have the admitted ones; the whole
of `update_map` can be followed one route at a time.  For a route, the merge keeps the stored path
or the first candidate, the sort and the dedup keep the cheapest of what there is, and admission
keeps that or nothing.

* `mergedWith`, `mergeKnown_od` — what the merge makes of one stored path.
* `ofRoute_merged` — all the candidates for storage of one route, in order.
* `firstMin_of_mem_admitted` — an admitted path is the first cheapest of its route.
* `updateMap_turns` — a call is a sequence of turns, one per destination, each finding its
  destination as the call found it.
-/

namespace Netsukuku

variable {F : Type}

/-! ## The merge, route by route -/

section Merge

variable [Float64 F]

/-- What the merge makes of a stored path, given the candidates. -/
def mergedWith (tol : F) (qd : List NodePath) (p1 : NodePath) : NodePath :=
  match qd.find? fun p => p.hopsArcsEqual p1.path with
  | some p2 => if variesFrom tol p1.path p2.path then p2 else p1
  | none => p1

/-- A stored path whose merge is reported: its first candidate varies from it, or its arc is the
one that changed. -/
def reported (tol : F) (aChanged : Option ArcId) (qd : List NodePath) (p1 : NodePath) : Bool :=
  decide (aChanged = some p1.arc) ||
    match qd.find? fun p => p.hopsArcsEqual p1.path with
    | some p2 => variesFrom tol p1.path p2.path
    | none => false

/-- The candidates of one route. -/
def ofRoute (k : List HCoord × List ArcId) (l : List NodePath) : List NodePath :=
  l.filter fun np => decide (np.path.route = k)

lemma hopsArcsEqual_eq_decide (np : NodePath) (p : EtpPath) :
    np.hopsArcsEqual p = decide (np.path.route = p.route) := by
  rw [Bool.eq_iff_iff, NodePath.hopsArcsEqual_iff, decide_eq_true_eq]

lemma route_of_find? {p : EtpPath} {qd : List NodePath} {p2 : NodePath}
    (h : qd.find? (fun x => x.hopsArcsEqual p) = some p2) : p2.path.route = p.route := by
  have hp2 := List.find?_some (p := fun x : NodePath => x.hopsArcsEqual p) h
  exact NodePath.hopsArcsEqual_iff.mp hp2

lemma route_mergedWith (tol : F) (qd : List NodePath) (p1 : NodePath) :
    (mergedWith tol qd p1).path.route = p1.path.route := by
  unfold mergedWith
  cases hf : qd.find? fun p => p.hopsArcsEqual p1.path with
  | none => rfl
  | some p2 =>
      simp only
      split_ifs
      · exact route_of_find? hf
      · rfl

lemma ofRoute_append (k : List HCoord × List ArcId) (l l' : List NodePath) :
    ofRoute k (l ++ l') = ofRoute k l ++ ofRoute k l' := List.filter_append _ _

/-- Taking a candidate of another route away does not change what is found. -/
lemma find?_eraseP_of_ne {p q : EtpPath} (h : p.route ≠ q.route) (qd : List NodePath) :
    (qd.eraseP fun x => x.hopsArcsEqual p).find? (fun x => x.hopsArcsEqual q) =
      qd.find? fun x => x.hopsArcsEqual q := by
  induction qd with
  | nil => rfl
  | cons x qd ih =>
      by_cases hx : x.hopsArcsEqual p = true
      · have hq : x.hopsArcsEqual q = false := by
          rw [hopsArcsEqual_eq_decide, NodePath.hopsArcsEqual_iff.mp hx, decide_eq_false h]
        simp only [List.eraseP_cons, hx, cond_true, List.find?_cons, hq]
      · rw [List.eraseP_cons, Bool.eq_false_of_not_eq_true hx, cond_false, List.find?_cons, List.find?_cons, ih]

lemma ofRoute_eraseP_of_ne {p : EtpPath} {k : List HCoord × List ArcId} (h : p.route ≠ k)
    (qd : List NodePath) : ofRoute k (qd.eraseP fun x => x.hopsArcsEqual p) = ofRoute k qd := by
  induction qd with
  | nil => rfl
  | cons x qd ih =>
      by_cases hx : x.hopsArcsEqual p = true
      · have hk : ¬ x.path.route = k := fun hk => h ((NodePath.hopsArcsEqual_iff.mp hx).symm.trans hk)
        rw [List.eraseP_cons, hx, cond_true]
        simp only [ofRoute, List.filter_cons, hk, decide_false, Bool.false_eq_true, if_false]
      · rw [List.eraseP_cons, Bool.eq_false_of_not_eq_true hx, cond_false]
        simp only [ofRoute, List.filter_cons] at ih ⊢
        rw [ih]

lemma ofRoute_eraseP_self (p : EtpPath) (qd : List NodePath) :
    ofRoute p.route (qd.eraseP fun x => x.hopsArcsEqual p) = (ofRoute p.route qd).tail := by
  induction qd with
  | nil => rfl
  | cons x qd ih =>
      by_cases hx : x.hopsArcsEqual p = true
      · have hk := NodePath.hopsArcsEqual_iff.mp hx
        rw [List.eraseP_cons, hx, cond_true]
        simp only [ofRoute, List.filter_cons, hk, decide_true, if_true, List.tail_cons]
      · have hk : ¬ x.path.route = p.route := fun hk => hx (NodePath.hopsArcsEqual_iff.mpr hk)
        rw [List.eraseP_cons, Bool.eq_false_of_not_eq_true hx, cond_false]
        simp only [ofRoute, List.filter_cons, hk, decide_false, Bool.false_eq_true, if_false] at ih ⊢
        exact ih

/-- Removing one route's first candidate leaves the merge of the other routes. -/
lemma mergedWith_eraseP {tol : F} {p p1 : NodePath} (h : p.path.route ≠ p1.path.route)
    (qd : List NodePath) :
    mergedWith tol (qd.eraseP fun x => x.hopsArcsEqual p.path) p1 = mergedWith tol qd p1 := by
  rw [mergedWith, find?_eraseP_of_ne h, mergedWith]

lemma reported_eraseP {tol : F} {aChanged : Option ArcId} {p p1 : NodePath}
    (h : p.path.route ≠ p1.path.route) (qd : List NodePath) :
    reported tol aChanged (qd.eraseP fun x => x.hopsArcsEqual p.path) p1 =
      reported tol aChanged qd p1 := by
  rw [reported, find?_eraseP_of_ne h, reported]

/-- **The merge of stored paths with distinct routes** treats each on its own. -/
theorem mergeKnown_od {tol : F} {aChanged : Option ArcId} :
    ∀ {md qd : List NodePath}, (md.map fun p => p.path.route).Nodup →
      (mergeKnown tol aChanged md qd).od = md.map (mergedWith tol qd)
  | [], qd, _ => rfl
  | p1 :: md, qd, hnd => by
      rw [List.map_cons, List.nodup_cons] at hnd
      have hne : ∀ p ∈ md, p1.path.route ≠ p.path.route := fun p hp he =>
        hnd.1 (he ▸ List.mem_map_of_mem (f := fun p : NodePath => p.path.route) hp)
      rw [mergeKnown, List.map_cons]
      cases hf : qd.find? fun p => p.hopsArcsEqual p1.path with
      | none =>
          simp only [mergedWith, hf]
          exact congrArg _ (mergeKnown_od hnd.2)
      | some p2 =>
          have hrest : (mergeKnown tol aChanged md
              (qd.eraseP fun p => p.hopsArcsEqual p1.path)).od = md.map (mergedWith tol qd) := by
            rw [mergeKnown_od hnd.2]
            exact List.map_congr_left fun p hp => mergedWith_eraseP (hne p hp) qd
          simp only [mergedWith, hf]
          split_ifs
          all_goals exact congrArg _ hrest

/-- The candidates of a route that the merge leaves over. -/
theorem ofRoute_mergeKnown_rest {tol : F} {aChanged : Option ArcId}
    (k : List HCoord × List ArcId) :
    ∀ {md qd : List NodePath}, (md.map fun p => p.path.route).Nodup →
      ofRoute k (mergeKnown tol aChanged md qd).rest =
        if k ∈ md.map (fun p => p.path.route) then (ofRoute k qd).tail else ofRoute k qd
  | [], qd, _ => by simp [mergeKnown]
  | p1 :: md, qd, hnd => by
      rw [List.map_cons, List.nodup_cons] at hnd
      rw [mergeKnown, List.map_cons]
      cases hf : qd.find? fun p => p.hopsArcsEqual p1.path with
      | none =>
          simp only
          rw [ofRoute_mergeKnown_rest k hnd.2]
          by_cases hk : k = p1.path.route
          · have hnil : ofRoute k qd = [] := by
              rw [ofRoute, List.filter_eq_nil_iff, hk]
              intro x hx
              rw [← hopsArcsEqual_eq_decide]
              exact List.find?_eq_none.mp hf x hx
            rw [hnil]
            simp
          · simp only [List.mem_cons, hk, false_or]
      | some p2 =>
          have hrest : ofRoute k (mergeKnown tol aChanged md
              (qd.eraseP fun p => p.hopsArcsEqual p1.path)).rest =
              if k ∈ p1.path.route :: md.map (fun p => p.path.route) then (ofRoute k qd).tail
              else ofRoute k qd := by
            rw [ofRoute_mergeKnown_rest k hnd.2]
            by_cases hk : p1.path.route = k
            · subst hk
              rw [ofRoute_eraseP_self]
              simp [hnd.1]
            · rw [ofRoute_eraseP_of_ne hk]
              simp only [List.mem_cons, Ne.symm hk, false_or]
          simp only
          split_ifs <;> simp_all

/-- What the merge marks as changed has the route of a stored path. -/
lemma route_of_mem_vd {tol : F} {aChanged : Option ArcId} :
    ∀ {md qd : List NodePath} {v : NodePath}, v ∈ (mergeKnown tol aChanged md qd).vd →
      v.path.route ∈ md.map fun p => p.path.route
  | [], qd, v, h => by cases h
  | p1 :: md, qd, v, h => by
      rw [List.map_cons, List.mem_cons]
      rw [mergeKnown] at h
      cases hf : qd.find? fun p => p.hopsArcsEqual p1.path with
      | none =>
          simp only [hf, List.mem_append, List.mem_ite_nil_right, List.mem_singleton] at h
          rcases h with ⟨_, rfl⟩ | h
          · exact Or.inl rfl
          · exact Or.inr (route_of_mem_vd h)
      | some p2 =>
          have hp2 : p2.path.route = p1.path.route :=
            route_of_find? hf
          simp only [hf] at h
          split_ifs at h
          · rcases List.mem_cons.mp h with rfl | h
            · exact Or.inl hp2
            · exact Or.inr (route_of_mem_vd h)
          · rcases List.mem_append.mp h with h | h
            · rw [List.mem_singleton.mp h]
              exact Or.inl rfl
            · exact Or.inr (route_of_mem_vd h)
          · exact Or.inr (route_of_mem_vd h)

/-- **A stored route is marked as changed exactly when its merge is reported.** -/
theorem any_mergeKnown_vd (tol : F) (aChanged : Option ArcId) :
    ∀ {md : List NodePath} (qd : List NodePath) {p : NodePath}, (md.map fun p => p.path.route).Nodup → p ∈ md →
      ((mergeKnown tol aChanged md qd).vd.any fun v => v.hopsArcsEqual p.path) =
        reported tol aChanged qd p
  | [], _, _, _, h => by cases h
  | p1 :: md, qd, p, hnd, hp => by
      rw [List.map_cons, List.nodup_cons] at hnd
      rw [mergeKnown]
      rcases List.mem_cons.mp hp with rfl | hp
      · -- none of the paths after the head has its route
        have hnone : ∀ qd', ((mergeKnown tol aChanged md qd').vd.any fun v =>
            v.hopsArcsEqual p.path) = false := by
          intro qd'
          rw [List.any_eq_false]
          intro v hv hvp
          exact hnd.1 (NodePath.hopsArcsEqual_iff.mp hvp ▸ route_of_mem_vd hv)
        have hself : p.hopsArcsEqual p.path = true := NodePath.hopsArcsEqual_iff.mpr rfl
        rw [reported]
        cases hf : qd.find? fun x => x.hopsArcsEqual p.path with
        | none =>
            simp only [List.any_append, hnone, Bool.or_false]
            split_ifs with ha <;> simp [ha, hself]
        | some p2 =>
            have hp2 : p2.hopsArcsEqual p.path = true :=
              NodePath.hopsArcsEqual_iff.mpr (route_of_find? hf)
            by_cases hv : variesFrom tol p.path p2.path = true
            · simp [hv, hp2]
            · simp only [hv, Bool.false_eq_true, if_false, List.any_append, hnone, Bool.or_false]
              split_ifs with ha <;> simp [ha, hself]
      · -- the head has another route, and takes no candidate of this one
        have hne : p1.path.route ≠ p.path.route := fun he =>
          hnd.1 (he ▸ List.mem_map_of_mem (f := fun p : NodePath => p.path.route) hp)
        have hp1 : p1.hopsArcsEqual p.path = false := by
          rw [hopsArcsEqual_eq_decide, decide_eq_false hne]
        cases hf : qd.find? fun x => x.hopsArcsEqual p1.path with
        | none =>
            simp only [List.any_append, any_mergeKnown_vd tol aChanged _ hnd.2 hp]
            split_ifs <;> simp [hp1]
        | some p2 =>
            have hp2 : p2.hopsArcsEqual p.path = false := by
              have hroute : p2.path.route = p1.path.route :=
                route_of_find? hf
              rw [hopsArcsEqual_eq_decide, hroute, decide_eq_false hne]
            have hrest := any_mergeKnown_vd tol aChanged
              (qd.eraseP fun x => x.hopsArcsEqual p1.path) hnd.2 hp
            rw [reported_eraseP hne] at hrest
            simp only
            split_ifs <;> simp [hp1, hp2, hrest]

/-- Unreported, a stored path is what the merge makes of it. -/
lemma mergedWith_of_not_reported {tol : F} {aChanged : Option ArcId} {qd : List NodePath}
    {p1 : NodePath} (h : reported tol aChanged qd p1 = false) : mergedWith tol qd p1 = p1 := by
  unfold reported at h
  unfold mergedWith
  cases hf : qd.find? fun p => p.hopsArcsEqual p1.path with
  | none => rfl
  | some p2 =>
      rw [hf] at h
      simp only [Bool.or_eq_false_iff] at h
      simp [h.2]

/-- **The candidates for storage of one route, in order**: what the merge made of the stored path,
then the candidates it left over. -/
theorem ofRoute_merged {tol : F} {aChanged : Option ArcId} {md qd : List NodePath} {p : NodePath}
    (hnd : (md.map fun p => p.path.route).Nodup) (hp : p ∈ md) :
    ofRoute p.path.route
        ((mergeKnown tol aChanged md qd).od ++ (mergeKnown tol aChanged md qd).rest) =
      mergedWith tol qd p :: (ofRoute p.path.route qd).tail := by
  have hod : ofRoute p.path.route (md.map (mergedWith tol qd)) = [mergedWith tol qd p] := by
    rw [ofRoute, List.filter_map]
    have hself : md.filter ((fun np : NodePath => decide (np.path.route = p.path.route)) ∘
        mergedWith tol qd) = [p] := by
      have hcomp : (fun np : NodePath => decide (np.path.route = p.path.route)) ∘
          mergedWith tol qd = fun np => decide (np.path.route = p.path.route) := by
        funext np
        simp only [Function.comp_apply, route_mergedWith]
      rw [hcomp]
      exact Scan.filter_key_of_nodup hnd hp
    rw [hself]
    rfl
  have hmem : p.path.route ∈ md.map fun p => p.path.route :=
    List.mem_map_of_mem (f := fun p : NodePath => p.path.route) hp
  rw [ofRoute_append, mergeKnown_od hnd, hod, ofRoute_mergeKnown_rest _ hnd, if_pos hmem]
  rfl

/-- A route that is not stored keeps all its candidates. -/
theorem ofRoute_merged_of_notMem {tol : F} {aChanged : Option ArcId} {md qd : List NodePath}
    {k : List HCoord × List ArcId} (hnd : (md.map fun p => p.path.route).Nodup)
    (hk : k ∉ md.map fun p => p.path.route) :
    ofRoute k ((mergeKnown tol aChanged md qd).od ++ (mergeKnown tol aChanged md qd).rest) =
      ofRoute k qd := by
  have hod : ofRoute k (md.map (mergedWith tol qd)) = [] := by
    rw [ofRoute, List.filter_eq_nil_iff]
    intro x hx hxk
    obtain ⟨p, hp, rfl⟩ := List.mem_map.mp hx
    rw [route_mergedWith, decide_eq_true_eq] at hxk
    exact hk (hxk ▸ List.mem_map_of_mem (f := fun p : NodePath => p.path.route) hp)
  rw [ofRoute_append, mergeKnown_od hnd, hod, ofRoute_mergeKnown_rest _ hnd, if_neg hk,
    List.nil_append]

end Merge

/-! ## Pruning and admission, route by route -/

/-- The map knows every g-node the hops pass through on their way. -/
def knowsHops (s : QspnState F) (hops : List HCoord) : Bool :=
  hops.dropLast.all fun h => (s.destination h.level h.pos).isSome

lemma scanHops_fst {s : QspnState F} :
    ∀ {hops : List HCoord} {nn nn' : KeyedMap HCoord UInt32} {known : Bool},
      scanHops s hops nn = .ok (known, nn') →
      known = hops.all fun h => (s.destination h.level h.pos).isSome
  | [], nn, nn', known, h => by
      cases h
      rfl
  | g :: hops, nn, nn', known, h => by
      rw [scanHops, Outcome.bind_eq_ok] at h
      obtain ⟨m, hm, h⟩ := h
      have hdest : s.destination g.level g.pos = m.get? g.pos := by
        rw [QspnState.destination, Outcome.index_eq_ok.mp hm, Option.bind_some]
      rw [List.all_cons, hdest]
      cases hg : m.get? g.pos with
      | none =>
          rw [hg] at h
          cases h
          rfl
      | some dest =>
          rw [hg] at h
          obtain ⟨⟨_, n, _⟩, _, h⟩ := Outcome.bind_eq_ok.mp h
          rw [scanHops_fst h]
          rfl

/-- Pruning keeps a candidate by its hops alone. -/
lemma pruneUnknown_eq_filter {s : QspnState F} :
    ∀ {od od' : List NodePath} {nn nn' : KeyedMap HCoord UInt32},
      pruneUnknown s od nn = .ok (od', nn') → od' = od.filter fun p => knowsHops s p.path.hops
  | [], od', nn, nn', h => by
      cases h
      rfl
  | p :: od, od', nn, nn', h => by
      rw [pruneUnknown, Outcome.bind_eq_ok] at h
      obtain ⟨⟨known, nn₁⟩, hscan, h⟩ := h
      obtain ⟨⟨od₁, nn₂⟩, hrest, h⟩ := Outcome.bind_eq_ok.mp h
      have hknown : known = knowsHops s p.path.hops := scanHops_fst hscan
      have ih := pruneUnknown_eq_filter hrest
      cases h
      simp only [List.filter_cons, hknown, ih]

section Admitted

variable [Float64 F] {s : QspnState F} {arcCost : ArcId → Cost} {zSet : List (List HCoord)}
  {d : HCoord}

/-- **An admitted path is the first cheapest of its route.** -/
theorem firstMin_of_mem_admitted {merged : Merged} {od : List NodePath} {p : NodePath}
    (h : admitted s arcCost zSet d merged = .ok od) (hp : p ∈ od) :
    Scan.firstMin (fun np => np.totalCost (arcCost np.arc))
      (ofRoute p.path.route (merged.od ++ merged.rest)) = some p := by
  obtain ⟨⟨known, nn⟩, hprune, h⟩ := Outcome.bind_eq_ok.mp h
  obtain ⟨vnd, _, h⟩ := Outcome.bind_eq_ok.mp h
  obtain ⟨mch, _, h⟩ := Outcome.bind_eq_ok.mp h
  obtain ⟨a, hadmit, h⟩ := Outcome.bind_eq_ok.mp h
  cases h
  obtain ⟨⟨kept, hkept, hsub, _⟩, _⟩ := admitCandidates_rd hadmit (Nat.zero_le _)
  rw [List.nil_append] at hkept
  have hded : p ∈ Scan.dedupOn (fun np => np.path.route) [] known := hsub.subset (hkept ▸ hp)
  have hfind := Scan.find?_eq_some_of_nodup (Scan.nodup_dedupOn _ _ _) hded
  rw [Scan.find?_dedupOn _ _ _ _ (by simp), pruneUnknown_eq_filter hprune, List.find?_filter] at hfind
  -- the candidates of one route are all pruned or all kept
  have hg : knowsHops s p.path.hops = true := by
    have := (Scan.dedupOn_sublist _ _ _).subset hded
    rw [pruneUnknown_eq_filter hprune] at this
    exact (List.mem_filter.mp this).2
  have hpred : (fun a : NodePath => decide (knowsHops s a.path.hops = true ∧
      decide (a.path.route = p.path.route) = true)) =
      fun a => decide (a.path.route = p.path.route) := by
    funext a
    by_cases ha : a.path.route = p.path.route
    · have hhops : a.path.hops = p.path.hops := congrArg Prod.fst ha
      simp [ha, hhops, hg]
    · simp [ha]
  rw [hpred, Scan.find?_insertionSort] at hfind
  exact hfind

end Admitted

/-! ## A call as a sequence of turns -/

section Turns

variable [Float64 F] (order : MapOrder) (aChanged : Option ArcId) (zSet : List (List HCoord))
  (arcCost : ArcId → Cost) (q : List NodePath)

/-- The turns of a call: each destination with the state its turn finds. -/
def turns : QspnState F → List HCoord → List (QspnState F × HCoord)
  | _, [] => []
  | s, d :: keys => (s, d) :: turns (updateMapBody order aChanged zSet arcCost q s d).1 keys

/-- The plan of one turn. -/
def turnPlan (t : QspnState F × HCoord) : Outcome QspnError Plan :=
  planDestination t.1 (candidatesFor q t.2) t.2 aChanged zSet arcCost

/-- What one turn reports. -/
def turnReports (t : QspnState F × HCoord) : List EtpPath :=
  match turnPlan aChanged zSet arcCost q t with
  | .ok plan => plan.allPathsSet
  | .error _ => []

lemma map_snd_turns (s : QspnState F) (keys : List HCoord) :
    (turns order aChanged zSet arcCost q s keys).map Prod.snd = keys := by
  induction keys generalizing s with
  | nil => rfl
  | cons d keys ih => rw [turns, List.map_cons, ih]

/-- Every destination has its turn. -/
lemma exists_turn (s : QspnState F) {keys : List HCoord} {d : HCoord} (hd : d ∈ keys) :
    ∃ t ∈ turns order aChanged zSet arcCost q s keys, t.2 = d := by
  rw [← map_snd_turns order aChanged zSet arcCost q s keys] at hd
  exact List.mem_map.mp hd

variable {order aChanged zSet arcCost q}

/-- What holds of a turn of the call that took `s` to `s'`: it finds the paths of its destination
as the call found them, succeeds, and what it decides is what is stored in the end. -/
structure TurnOk (order : MapOrder) (aChanged : Option ArcId) (zSet : List (List HCoord))
    (arcCost : ArcId → Cost) (q : List NodePath) (s s' : QspnState F)
    (t : QspnState F × HCoord) : Prop where
  frame : SameFrame s t.1
  before : t.1.storedAt t.2 = s.storedAt t.2
  plan : ∃ plan, turnPlan aChanged zSet arcCost q t = .ok plan ∧ s'.storedAt t.2 = plan.od

lemma loop_turns {keys : List HCoord} :
    ∀ {s s' : QspnState F} {outs : List (HCoord × OneDestOutcome)}, keys.Nodup →
      Outcome.loop (updateMapBody order aChanged zSet arcCost q) s keys = (s', .ok outs) →
      (outs.flatMap fun o => o.2.allPathsSet) =
          (turns order aChanged zSet arcCost q s keys).flatMap
            (turnReports aChanged zSet arcCost q) ∧
        (∀ d, d ∉ keys → s'.storedAt d = s.storedAt d) ∧
        ∀ t ∈ turns order aChanged zSet arcCost q s keys,
          TurnOk order aChanged zSet arcCost q s s' t := by
  induction keys with
  | nil =>
      intro s s' outs _ h
      cases h
      exact ⟨rfl, fun _ _ => rfl, fun t ht => by cases ht⟩
  | cons d keys ih =>
      intro s s' outs hnd h
      obtain ⟨hd, hnd⟩ := List.nodup_cons.mp hnd
      obtain ⟨s₁, b, bs, hbody, hrest, rfl⟩ := Outcome.loop_cons_eq_ok h
      rcases updateMapBody_cases order aChanged zSet arcCost q s d with
        ⟨_, e, he⟩ | ⟨plan, hplan, hs₁, hout⟩
      · rw [hbody] at he
        cases he
      · rw [hbody] at hs₁ hout
        obtain rfl : s₁ = commit order s d plan.od := hs₁
        obtain ⟨_, hset⟩ := hout b rfl
        obtain ⟨hlt, _⟩ := planDestination_spec hplan
        obtain ⟨hpaths, hother, hturns⟩ := ih hnd hrest
        have hreport : turnReports aChanged zSet arcCost q (s, d) = plan.allPathsSet := by
          simp only [turnReports, turnPlan, hplan]
        refine ⟨?_, ?_, ?_⟩
        · rw [turns, hbody, List.flatMap_cons, List.flatMap_cons, hset, hreport, hpaths]
        · intro d' hd'
          rw [List.mem_cons, not_or] at hd'
          rw [hother d' hd'.2, storedAt_commit_of_ne hd'.1]
        · intro t ht
          rw [turns, hbody] at ht
          rcases List.mem_cons.mp ht with rfl | ht
          · exact ⟨SameFrame.refl s, rfl, plan, hplan,
              (hother d hd).trans (storedAt_commit_self hlt)⟩
          · have hkey : t.2 ∈ keys := by
              rw [← map_snd_turns order aChanged zSet arcCost q (commit order s d plan.od) keys]
              exact List.mem_map_of_mem ht
            have hne : t.2 ≠ d := fun he => hd (he ▸ hkey)
            obtain ⟨hframe, hbefore, hok⟩ := hturns t ht
            exact ⟨(SameFrame.commit order s d plan.od).trans hframe,
              hbefore.trans (storedAt_commit_of_ne hne), hok⟩

/-- **A call is a sequence of turns**, one per destination of its candidates: what it reports is
what the turns report, what has no turn is unchanged, and each turn is as `TurnOk` says. -/
theorem updateMap_turns {s s' : QspnState F} {out : UpdateMapOutcome}
    (h : updateMap order s q aChanged = (s', .ok out)) :
    ∃ zSet keys, updateMapKeys order s q = .ok (zSet, keys) ∧ keys.Nodup ∧
      (∀ d, d ∈ keys ↔ ∃ np ∈ q, np.path.hops.getLast? = some d) ∧
      out.allPathsSet = (turns order aChanged zSet s.arcCost q s keys).flatMap
        (turnReports aChanged zSet s.arcCost q) ∧
      (∀ d, d ∉ keys → s'.storedAt d = s.storedAt d) ∧
      ∀ t ∈ turns order aChanged zSet s.arcCost q s keys,
        TurnOk order aChanged zSet s.arcCost q s s' t := by
  rcases updateMap_eq order s q aChanged with ⟨e, he⟩ | ⟨zSet, keys, hkeys, he⟩
  · rw [he] at h
    cases h
  · rw [he] at h
    rcases hl : Outcome.loop (updateMapBody order aChanged zSet s.arcCost q) s keys with
      ⟨s₁, e | outs⟩
    · rw [hl] at h
      cases h
    · rw [hl] at h
      cases h
      obtain ⟨_, _, hk⟩ := Outcome.bind_eq_ok.mp hkeys
      obtain ⟨_, hsorted, hk⟩ := Outcome.bind_eq_ok.mp hk
      cases hk
      obtain ⟨hnd, hmem⟩ := MapInv.mem_sortedKeys hsorted
      obtain ⟨hpaths, hother, hturns⟩ := loop_turns hnd hl
      exact ⟨zSet, keys, hkeys, hnd, hmem, hpaths, hother, hturns⟩

end Turns

/-! ## What a plan stores -/

section Plans

variable [Float64 F] {s : QspnState F} {qd : List NodePath} {d : HCoord}
  {aChanged : Option ArcId} {zSet : List (List HCoord)} {arcCost : ArcId → Cost} {plan : Plan}

/-- The parts of a plan, over the paths stored for its destination. -/
lemma planDestination_eq_ok (h : planDestination s qd d aChanged zSet arcCost = .ok plan) :
    ∃ od validFp fresh known,
      admitted s arcCost zSet d
        (mergeKnown s.config.nodesInsideTolerance aChanged (s.storedAt d) qd) = .ok od ∧
      announceNew arcCost d (s.storedAt d) validFp (validNodesInside validFp od) od = .ok fresh ∧
      announceKnown arcCost d
        (mergeKnown s.config.nodesInsideTolerance aChanged (s.storedAt d) qd).vd validFp
        (validNodesInside validFp od) (s.storedAt d) fresh.od = .ok known ∧
      plan.od = known.od ∧ plan.allPathsSet = fresh.paths ++ known.paths := by
  obtain ⟨m, hm, h⟩ := Outcome.bind_eq_ok.mp h
  rw [Outcome.index_eq_ok] at hm
  have hmd : ((m.get? d.pos).map Destination.paths).getD [] = s.storedAt d := by
    rw [QspnState.storedAt, QspnState.destination, hm, Option.bind_some]
  rw [hmd] at h
  obtain ⟨od, hod, h⟩ := Outcome.bind_eq_ok.mp h
  obtain ⟨validFp, _, h⟩ := Outcome.bind_eq_ok.mp h
  obtain ⟨fresh, hfresh, h⟩ := Outcome.bind_eq_ok.mp h
  obtain ⟨known, hknown, h⟩ := Outcome.bind_eq_ok.mp h
  cases h
  exact ⟨od, validFp, fresh, known, hod, hfresh, hknown, rfl, rfl⟩

/-- **What a plan stores was admitted**, up to exposure. -/
lemma planDestination_core (h : planDestination s qd d aChanged zSet arcCost = .ok plan) :
    ∃ od, admitted s arcCost zSet d
        (mergeKnown s.config.nodesInsideTolerance aChanged (s.storedAt d) qd) = .ok od ∧
      plan.od.map NodePath.core = od.map NodePath.core := by
  obtain ⟨od, validFp, fresh, known, hod, hfresh, hknown, hplan, _⟩ := planDestination_eq_ok h
  refine ⟨od, hod, ?_⟩
  rw [hplan]
  exact (announceKnown_spec hknown).1.trans (announceNew_spec hfresh).1

end Plans

end Netsukuku
