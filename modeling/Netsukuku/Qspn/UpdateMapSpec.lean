import Mathlib
import Netsukuku.Qspn.UpdateMap

/-!
# What `update_map` stores and reports

The steps of `update_map` only ever select: whatever ends up in the map was stored there before or
was among the candidates, up to the `exposed` flag.  This module proves that once, for every step,
together with the frame (everything but the touched destinations is unchanged) and the shape of
what is stored.

* `NodePath.core` — a path without its exposure flag.
* `planDestination_eq_ok` — what one destination's plan is made of.
* `Provenance` — every stored path of the new map, and every reported one, is accounted for.
-/

namespace Netsukuku

variable {F : Type}

/-- A path without its exposure flag. -/
def NodePath.core (np : NodePath) : ArcId × EtpPath := (np.arc, np.path)

lemma NodePath.path_eq_of_core {a b : NodePath} (h : a.core = b.core) : a.path = b.path :=
  congrArg Prod.snd h

lemma NodePath.arc_eq_of_core {a b : NodePath} (h : a.core = b.core) : a.arc = b.arc :=
  congrArg Prod.fst h

/-- Two lists agree up to exposure flags: what holds of one's elements holds of the other's. -/
lemma exists_mem_of_map_core {l l' : List NodePath}
    (h : l'.map NodePath.core = l.map NodePath.core) {np : NodePath} (hnp : np ∈ l') :
    ∃ np₀ ∈ l, np₀.core = np.core := by
  have : np.core ∈ l.map NodePath.core := h ▸ List.mem_map_of_mem hnp
  simpa using this

/-! ## Pruning -/

lemma pruneUnknown_sublist {s : QspnState F} :
    ∀ {od od' : List NodePath} {nn nn' : KeyedMap HCoord UInt32},
      pruneUnknown s od nn = .ok (od', nn') → od'.Sublist od
  | [], od', nn, nn', h => by
      cases h
      exact List.Sublist.refl _
  | p :: od, od', nn, nn', h => by
      rw [pruneUnknown, Outcome.bind_eq_ok] at h
      obtain ⟨⟨known, nn₁⟩, _, h⟩ := h
      obtain ⟨⟨od₁, nn₂⟩, hrest, h⟩ := Outcome.bind_eq_ok.mp h
      have ih := pruneUnknown_sublist hrest
      cases h
      cases known with
      | true => exact ih.cons_cons p
      | false => exact ih.cons p

section Steps

variable [Float64 F]

/-! ## Merging -/

lemma mem_mergeKnown {tol : F} {aChanged : Option ArcId} :
    ∀ {md qd : List NodePath} {np : NodePath},
      np ∈ (mergeKnown tol aChanged md qd).od ∨ np ∈ (mergeKnown tol aChanged md qd).vd ∨
        np ∈ (mergeKnown tol aChanged md qd).rest → np ∈ md ++ qd
  | [], qd, np, h => by simpa [mergeKnown] using h
  | p1 :: md, qd, np, h => by
      rw [mergeKnown] at h
      cases hf : qd.find? fun p => p.hopsArcsEqual p1.path with
      | none =>
          simp only [hf, List.mem_cons, List.mem_append, List.mem_ite_nil_right] at h
          have ih := @mem_mergeKnown tol aChanged md qd np
          simp only [List.cons_append, List.mem_cons] at ih ⊢
          tauto
      | some p2 =>
          have hp2 : p2 ∈ qd := List.mem_of_find?_eq_some hf
          have ih := @mem_mergeKnown tol aChanged md (qd.eraseP fun p => p.hopsArcsEqual p1.path) np
          have hsub : np ∈ md ++ qd.eraseP (fun p => p.hopsArcsEqual p1.path) → np ∈ md ++ qd := by
            simp only [List.mem_append]
            exact Or.imp_right List.mem_of_mem_eraseP
          simp only [hf] at h
          split_ifs at h
          all_goals
            simp only [List.mem_cons, List.mem_append, List.not_mem_nil, false_or] at h hsub ih ⊢
            by_cases hnp : np = p2
            · exact Or.inr (hnp ▸ hp2)
            · tauto

lemma mem_mergeKnown_rest {tol : F} {aChanged : Option ArcId} :
    ∀ {md qd : List NodePath} {np : NodePath},
      np ∈ (mergeKnown tol aChanged md qd).rest → np ∈ qd
  | [], _, _, h => h
  | p1 :: md, qd, np, h => by
      rw [mergeKnown] at h
      cases hf : qd.find? fun p => p.hopsArcsEqual p1.path with
      | none =>
          simp only [hf] at h
          exact mem_mergeKnown_rest h
      | some p2 =>
          have hrest : np ∈ (mergeKnown tol aChanged md
              (qd.eraseP fun p => p.hopsArcsEqual p1.path)).rest := by
            simp only [hf] at h
            split_ifs at h <;> exact h
          exact List.mem_of_mem_eraseP (mem_mergeKnown_rest hrest)

/-! ## Admission -/

/-- One admission step appends the candidate or leaves the admitted paths, within the bound. -/
lemma admitStep_rd {s : QspnState F} {d : HCoord} {nn : KeyedMap HCoord UInt32} {mch : F}
    {a a' : Admission} {p : NodePath} (h : admitStep s d nn mch a p = .ok a')
    (hlen : a.rd.length ≤ mandatoryPathFactor * s.config.maxPaths) :
    (a'.rd = a.rd ∨ a'.rd = a.rd ++ [p]) ∧
      a'.rd.length ≤ mandatoryPathFactor * s.config.maxPaths := by
  have hrd : (a.cover p).2.rd = a.rd := rfl
  unfold admitStep at h
  rcases hc : a.cover p with ⟨mandatory, a₁⟩
  rw [hc] at h hrd
  simp only at h hrd
  split_ifs at h with hmand hbound hfull
  · cases h
    refine ⟨Or.inr (by rw [hrd]), ?_⟩
    have := Nat.mul_comm s.config.maxPaths mandatoryPathFactor
    simp only [List.length_append, List.length_singleton]
    omega
  · cases h
    exact ⟨Or.inl hrd, hrd ▸ hlen⟩
  · cases h
    exact ⟨Or.inl hrd, hrd ▸ hlen⟩
  · obtain ⟨overlap, _, h⟩ := Outcome.bind_eq_ok.mp h
    cases h
    cases overlap with
    | true => exact ⟨Or.inl hrd, by simpa [hrd] using hlen⟩
    | false =>
        refine ⟨Or.inr (by simp [hrd]), ?_⟩
        simp only [Bool.false_eq_true, if_false, List.length_append, List.length_singleton]
        unfold mandatoryPathFactor
        omega

/-- **Admission selects.**  The admitted paths are a sublist of the candidates, none of them is
withdrawn, and they respect the hard bound. -/
lemma admitCandidates_rd {s : QspnState F} {d : HCoord} {nn : KeyedMap HCoord UInt32} {mch : F} :
    ∀ {od : List NodePath} {a a' : Admission}, admitCandidates s d nn mch a od = .ok a' →
      a.rd.length ≤ mandatoryPathFactor * s.config.maxPaths →
      (∃ kept, a'.rd = a.rd ++ kept ∧ kept.Sublist od ∧ ∀ p ∈ kept, p.path.cost ≠ .dead) ∧
        a'.rd.length ≤ mandatoryPathFactor * s.config.maxPaths
  | [], a, a', h, hlen => by
      cases h
      exact ⟨⟨[], by simp⟩, hlen⟩
  | p :: od, a, a', h, hlen => by
      rw [admitCandidates] at h
      split_ifs at h with hdead
      · cases h
        exact ⟨⟨[], by simp⟩, hlen⟩
      · obtain ⟨a₁, h₁, h⟩ := Outcome.bind_eq_ok.mp h
        obtain ⟨hrd, hlen₁⟩ := admitStep_rd h₁ hlen
        obtain ⟨⟨kept, hkept, hsub, hcost⟩, hlen'⟩ := admitCandidates_rd h hlen₁
        refine ⟨?_, hlen'⟩
        rcases hrd with hrd | hrd
        · exact ⟨kept, hrd ▸ hkept, hsub.cons p, hcost⟩
        · refine ⟨p :: kept, by rw [hkept, hrd]; simp, hsub.cons_cons p, ?_⟩
          rintro x (_ | ⟨_, hx⟩)
          · exact fun hc => hdead (Cost.isDead_iff.mpr hc)
          · exact hcost x hx

/-- What is admitted comes from the merge, has pairwise distinct routes and is not withdrawn. -/
lemma admitted_spec {s : QspnState F} {arcCost : ArcId → Cost} {zSet : List (List HCoord)}
    {d : HCoord} {merged : Merged} {od : List NodePath}
    (h : admitted s arcCost zSet d merged = .ok od) :
    (∀ p ∈ od, p ∈ merged.od ++ merged.rest) ∧ (∀ p ∈ od, p.path.cost ≠ .dead) ∧
      (od.map fun p => p.path.route).Nodup ∧
      od.length ≤ mandatoryPathFactor * s.config.maxPaths := by
  obtain ⟨⟨known, nn⟩, hprune, h⟩ := Outcome.bind_eq_ok.mp h
  obtain ⟨vnd, _, h⟩ := Outcome.bind_eq_ok.mp h
  obtain ⟨mch, _, h⟩ := Outcome.bind_eq_ok.mp h
  obtain ⟨a, hadmit, h⟩ := Outcome.bind_eq_ok.mp h
  cases h
  obtain ⟨⟨kept, hkept, hsub, hcost⟩, hlen⟩ := admitCandidates_rd hadmit (Nat.zero_le _)
  rw [List.nil_append] at hkept
  rw [hkept] at hlen ⊢
  refine ⟨fun p hp => ?_, hcost, ?_, hlen⟩
  · have hp₁ := (pruneUnknown_sublist hprune).subset
      ((Scan.dedupOn_sublist _ _ _).subset (hsub.subset hp))
    exact (List.mem_insertionSort _).mp hp₁
  · exact (Scan.nodup_dedupOn _ _ _).sublist (hsub.map _)

/-! ## Announcing -/

/-- The wire form of a stored or candidate path: the route and the fact, whatever its cost. -/
def Wires (np : NodePath) (p : EtpPath) : Prop :=
  p.route = np.path.route ∧ p.fingerprint = np.path.fingerprint ∧
    p.nodesInside = np.path.nodesInside

/-- **New paths keep what they say**, and exactly the admitted paths that were not stored before
are reported. -/
lemma announceNew_spec {arcCost : ArcId → Cost} {d : HCoord} {md : List NodePath}
    {validFp : Option Fp} {validNn : UInt32} :
    ∀ {od : List NodePath} {r : Announced}, announceNew arcCost d md validFp validNn od = .ok r →
      r.od.map NodePath.core = od.map NodePath.core ∧
        r.paths = (od.filter fun p => !md.any fun q => q.hopsArcsEqual p.path).map fun p =>
          prepareForSending p (arcCost p.arc)
  | [], r, h => by
      cases h
      exact ⟨rfl, rfl⟩
  | p :: od, r, h => by
      rw [announceNew] at h
      split_ifs at h with hknown hlevel
      · obtain ⟨r₁, h₁, h⟩ := Outcome.bind_eq_ok.mp h
        obtain ⟨hcore, hpaths⟩ := announceNew_spec h₁
        cases h
        refine ⟨by simp [hcore], ?_⟩
        simp only [List.filter_cons, hknown, Bool.not_true, Bool.false_eq_true, if_false, hpaths]
      · obtain ⟨r₁, h₁, h⟩ := Outcome.bind_eq_ok.mp h
        obtain ⟨hcore, hpaths⟩ := announceNew_spec h₁
        cases h
        refine ⟨by simp [hcore], ?_⟩
        simp only [List.filter_cons, hknown, Bool.not_false, if_true, List.map_cons, hpaths]
      · obtain ⟨valid, _, h⟩ := Outcome.bind_eq_ok.mp h
        split_ifs at h
        all_goals
          obtain ⟨r₁, h₁, h⟩ := Outcome.bind_eq_ok.mp h
          obtain ⟨hcore, hpaths⟩ := announceNew_spec h₁
          cases h
          refine ⟨by simp [hcore, NodePath.core], ?_⟩
          simp only [List.filter_cons, hknown, Bool.not_false, if_true, List.map_cons, hpaths]

lemma map_core_set {od : List NodePath} {q : NodePath → Bool} {o : NodePath}
    (h : od.find? q = some o) :
    (od.set (od.findIdx q) { o with exposed := true }).map NodePath.core = od.map NodePath.core := by
  have hlt : od.findIdx q < od.length := List.findIdx_lt_length.mpr
    ⟨o, List.mem_of_find?_eq_some h, List.find?_some h⟩
  have hget : od[od.findIdx q] = o := by
    rw [List.find?_eq_some_iff_getElem] at h
    obtain ⟨hq, i, hi, hio, hbefore⟩ := h
    have hidx : od.findIdx q = i := by
      rw [List.findIdx_eq hi]
      exact ⟨hio ▸ hq, fun j hj => by simpa using hbefore j hj⟩
    simp only [hidx, hio]
  rw [List.map_set]
  refine List.ext_getElem? fun j => ?_
  rw [List.getElem?_set]
  split_ifs with hj hj'
  · subst hj
    rw [List.getElem?_map, List.getElem?_eq_getElem hlt, hget]
    rfl
  · subst hj
    simp only [List.length_map] at hj'
    exact absurd hlt hj'
  · rfl

/-- The report about a path that was stored before: its withdrawal, what it became, or nothing. -/
def knownReport (arcCost : ArcId → Cost) (vd od : List NodePath) (p : NodePath) : List EtpPath :=
  match od.find? fun o => o.hopsArcsEqual p.path with
  | none => [deadPath (prepareForSending p (arcCost p.arc))]
  | some o =>
      if vd.any fun v => v.hopsArcsEqual p.path then [prepareForSending o (arcCost o.arc)] else []

lemma mem_knownReport {arcCost : ArcId → Cost} {vd od : List NodePath} {p : NodePath}
    {x : EtpPath} (h : x ∈ knownReport arcCost vd od p) :
    x.route = p.path.route ∧ ∃ np ∈ p :: od, Wires np x := by
  unfold knownReport at h
  cases hf : od.find? fun o => o.hopsArcsEqual p.path with
  | none =>
      simp only [hf] at h
      rw [List.mem_singleton.mp h]
      exact ⟨rfl, p, List.mem_cons_self, rfl, rfl, rfl⟩
  | some o =>
      have ho := List.find?_some (p := fun o : NodePath => o.hopsArcsEqual p.path) hf
      simp only [hf, List.mem_ite_nil_right, List.mem_singleton] at h
      rw [h.2]
      exact ⟨NodePath.hopsArcsEqual_iff.mp ho, o,
        List.mem_cons_of_mem p (List.mem_of_find?_eq_some hf), rfl, rfl, rfl⟩

/-- What is reported about a stored path does not depend on exposure. -/
lemma knownReport_congr {arcCost : ArcId → Cost} {vd : List NodePath} {p : NodePath} :
    ∀ {od od' : List NodePath}, od'.map NodePath.core = od.map NodePath.core →
      knownReport arcCost vd od' p = knownReport arcCost vd od p
  | [], [], _ => rfl
  | [], _ :: _, h => by cases h
  | _ :: _, [], h => by cases h
  | x :: od, x' :: od', h => by
      obtain ⟨hx, hl⟩ := List.cons.inj h
      have hpath := NodePath.path_eq_of_core hx
      have harc := NodePath.arc_eq_of_core hx
      have ih : knownReport arcCost vd od' p = knownReport arcCost vd od p := knownReport_congr hl
      have heq : x'.hopsArcsEqual p.path = x.hopsArcsEqual p.path := by
        rw [NodePath.hopsArcsEqual, hpath, NodePath.hopsArcsEqual]
      unfold knownReport at ih ⊢
      simp only [List.find?_cons, heq]
      cases x.hopsArcsEqual p.path with
      | true => simp only [prepareForSending, NodePath.totalCost, hpath, harc]
      | false => exact ih

lemma announceKnownStep_spec {arcCost : ArcId → Cost} {d : HCoord} {vd : List NodePath}
    {validFp : Option Fp} {validNn : UInt32} {od : List NodePath} {p : NodePath} {r : Announced}
    (h : announceKnownStep arcCost d vd validFp validNn od p = .ok r) :
    r.od.map NodePath.core = od.map NodePath.core ∧ r.paths = knownReport arcCost vd od p := by
  unfold announceKnownStep at h
  unfold knownReport
  cases hf : od.find? fun o => o.hopsArcsEqual p.path with
  | none =>
      simp only [hf] at h
      cases h
      exact ⟨rfl, rfl⟩
  | some o =>
      simp only [hf] at h ⊢
      by_cases hvd : (vd.any fun v => v.hopsArcsEqual p.path) = true
      · rw [if_pos hvd] at h ⊢
        by_cases hlevel : d.level = 0
        · rw [if_pos hlevel] at h
          cases h
          exact ⟨rfl, rfl⟩
        · rw [if_neg hlevel] at h
          obtain ⟨valid, _, h⟩ := Outcome.bind_eq_ok.mp h
          by_cases hb : p.path.fingerprint.sameBranch valid p.path.nodesInside validNn = true
          · rw [if_pos hb] at h
            cases h
            exact ⟨map_core_set hf, rfl⟩
          · rw [if_neg hb] at h
            cases h
            exact ⟨rfl, rfl⟩
      · rw [if_neg hvd] at h ⊢
        cases h
        exact ⟨rfl, rfl⟩

/-- **Stored paths are reported one by one**, against the paths admitted. -/
lemma announceKnown_spec {arcCost : ArcId → Cost} {d : HCoord} {vd : List NodePath}
    {validFp : Option Fp} {validNn : UInt32} :
    ∀ {md od : List NodePath} {r : Announced},
      announceKnown arcCost d vd validFp validNn md od = .ok r →
      r.od.map NodePath.core = od.map NodePath.core ∧
        r.paths = md.flatMap (knownReport arcCost vd od)
  | [], od, r, h => by
      cases h
      exact ⟨rfl, rfl⟩
  | p :: md, od, r, h => by
      rw [announceKnown, Outcome.bind_eq_ok] at h
      obtain ⟨a, ha, h⟩ := h
      obtain ⟨r₁, h₁, h⟩ := Outcome.bind_eq_ok.mp h
      obtain ⟨hcore, hpaths⟩ := announceKnownStep_spec ha
      obtain ⟨hcore₁, hpaths₁⟩ := announceKnown_spec h₁
      have hcongr : knownReport arcCost vd a.od = knownReport arcCost vd od := by
        funext x
        exact knownReport_congr hcore
      cases h
      refine ⟨hcore₁.trans hcore, ?_⟩
      rw [List.flatMap_cons, hpaths, hpaths₁, hcongr]

/-! ## One destination -/

/-- **What a plan is made of.**  Everything it stores is a stored path or a candidate up to
exposure, is not withdrawn, and has a route of its own; everything it reports is one of these in
wire form. -/
theorem planDestination_spec {s : QspnState F} {qd : List NodePath} {d : HCoord}
    {aChanged : Option ArcId} {zSet : List (List HCoord)} {arcCost : ArcId → Cost} {plan : Plan}
    (h : planDestination s qd d aChanged zSet arcCost = .ok plan) :
    d.level < s.destinations.length ∧
      (∀ np ∈ plan.od, np.path.cost ≠ .dead ∧ ∃ np₀ ∈ s.storedAt d ++ qd, np₀.core = np.core) ∧
      (plan.od.map fun np => np.path.route).Nodup ∧
      plan.od.length ≤ mandatoryPathFactor * s.config.maxPaths ∧
      ∀ p ∈ plan.allPathsSet, ∃ np ∈ s.storedAt d ++ qd, Wires np p := by
  obtain ⟨m, hm, h⟩ := Outcome.bind_eq_ok.mp h
  rw [Outcome.index_eq_ok] at hm
  have hmd : ((m.get? d.pos).map Destination.paths).getD [] = s.storedAt d := by
    rw [QspnState.storedAt, QspnState.destination, hm, Option.bind_some]
  rw [hmd] at h
  obtain ⟨od, hod, h⟩ := Outcome.bind_eq_ok.mp h
  obtain ⟨validFp, _, h⟩ := Outcome.bind_eq_ok.mp h
  obtain ⟨fresh, hfresh, h⟩ := Outcome.bind_eq_ok.mp h
  obtain ⟨known, hknown, h⟩ := Outcome.bind_eq_ok.mp h
  obtain ⟨hfrom, hcost, hnodup, hlen⟩ := admitted_spec hod
  obtain ⟨hcore₁, hpaths₁⟩ := announceNew_spec hfresh
  obtain ⟨hcore₂, hpaths₂⟩ := announceKnown_spec hknown
  have hcore : known.od.map NodePath.core = od.map NodePath.core := hcore₂.trans hcore₁
  have hsrc : ∀ np ∈ od, np ∈ s.storedAt d ++ qd := fun np hnp => mem_mergeKnown
    ((List.mem_append.mp (hfrom np hnp)).imp_right Or.inr)
  cases h
  refine ⟨(List.getElem?_eq_some_iff.mp hm).1, fun np hnp => ?_, ?_, ?_, fun p hp => ?_⟩
  · obtain ⟨np₀, hnp₀, hc⟩ := exists_mem_of_map_core hcore hnp
    exact ⟨NodePath.path_eq_of_core hc ▸ hcost np₀ hnp₀, np₀, hsrc np₀ hnp₀, hc⟩
  · have hroute : known.od.map (fun np => np.path.route) = od.map fun np => np.path.route := by
      have := congrArg (List.map fun c : ArcId × EtpPath => c.2.route) hcore
      simpa [List.map_map, NodePath.core, Function.comp_def] using this
    rw [hroute]
    exact hnodup
  · have := congrArg List.length hcore
    simp only [List.length_map] at this
    rw [this]
    exact hlen
  · rcases List.mem_append.mp hp with hp | hp
    · rw [hpaths₁] at hp
      obtain ⟨np, hnp, rfl⟩ := List.mem_map.mp hp
      exact ⟨np, hsrc np (List.mem_filter.mp hnp).1, rfl, rfl, rfl⟩
    · rw [hpaths₂] at hp
      obtain ⟨p1, hp1, hp⟩ := List.mem_flatMap.mp hp
      obtain ⟨_, np, hnp, hw⟩ := mem_knownReport hp
      rcases List.mem_cons.mp hnp with rfl | hnp
      · exact ⟨np, List.mem_append_left _ hp1, hw⟩
      · obtain ⟨np₀, hnp₀, hc⟩ := exists_mem_of_map_core hcore₁ hnp
        refine ⟨np₀, hsrc np₀ hnp₀, ?_⟩
        rw [Wires, NodePath.path_eq_of_core hc]
        exact hw

end Steps

section Commit

variable {order : MapOrder} {s : QspnState F} {d : HCoord} {od : List NodePath}

lemma destination_commit_self (h : d.level < s.destinations.length) :
    (commit order s d od).destination d.level d.pos = if od = [] then none else some ⟨d, od⟩ := by
  have hget : (commit order s d od).destinations[d.level]? =
      some (if od = [] then s.destinations[d.level].erase d.pos
        else (s.destinations[d.level].insert d.pos ⟨d, od⟩).rearrange order.entries) := by
    rw [commit, List.getElem?_modify, List.getElem?_eq_getElem h]
    simp
  rw [QspnState.destination, hget, Option.bind_some]
  split_ifs <;> simp

lemma destination_commit_of_ne {d' : HCoord} (h : d' ≠ d) :
    (commit order s d od).destination d'.level d'.pos = s.destination d'.level d'.pos := by
  simp only [QspnState.destination, commit, List.getElem?_modify]
  cases s.destinations[d'.level]? with
  | none => rfl
  | some m =>
      simp only [Option.map_eq_map, Option.map_some, Option.bind_some]
      split_ifs with hl hod
      · have hp : d'.pos ≠ d.pos := fun hp => h (by cases d; cases d'; simp_all)
        exact KeyedMap.get?_erase_of_ne m hp
      · have hp : d'.pos ≠ d.pos := fun hp => h (by cases d; cases d'; simp_all)
        rw [KeyedMap.get?_rearrange]
        exact KeyedMap.get?_insert_of_ne m _ hp
      · rfl

lemma storedAt_commit_self (h : d.level < s.destinations.length) :
    (commit order s d od).storedAt d = od := by
  rw [QspnState.storedAt, destination_commit_self h]
  split_ifs with hod
  · rw [hod]
    rfl
  · rfl

lemma storedAt_commit_of_ne {d' : HCoord} (h : d' ≠ d) :
    (commit order s d od).storedAt d' = s.storedAt d' := by
  rw [QspnState.storedAt, destination_commit_of_ne h, QspnState.storedAt]

end Commit

/-! ## The frame -/

/-- The two states differ in their destination maps only. -/
structure SameFrame (s s' : QspnState F) : Prop where
  myNaddr : s'.myNaddr = s.myNaddr
  myFingerprints : s'.myFingerprints = s.myFingerprints
  myNodesInside : s'.myNodesInside = s.myNodesInside
  arcs : s'.arcs = s.arcs
  config : s'.config = s.config
  bootstrap : s'.bootstrap = s.bootstrap
  length_destinations : s'.destinations.length = s.destinations.length

namespace SameFrame

variable {s s₁ s₂ : QspnState F}

lemma refl (s : QspnState F) : SameFrame s s := ⟨rfl, rfl, rfl, rfl, rfl, rfl, rfl⟩

lemma trans (h : SameFrame s s₁) (h' : SameFrame s₁ s₂) : SameFrame s s₂ :=
  ⟨h'.myNaddr.trans h.myNaddr, h'.myFingerprints.trans h.myFingerprints,
    h'.myNodesInside.trans h.myNodesInside, h'.arcs.trans h.arcs, h'.config.trans h.config,
    h'.bootstrap.trans h.bootstrap, h'.length_destinations.trans h.length_destinations⟩

lemma commit (order : MapOrder) (s : QspnState F) (d : HCoord) (od : List NodePath) :
    SameFrame s (commit order s d od) :=
  ⟨rfl, rfl, rfl, rfl, rfl, rfl, by simp [Netsukuku.commit]⟩

lemma levels (h : SameFrame s s₁) : s₁.levels = s.levels := by
  rw [QspnState.levels, h.myNaddr, QspnState.levels]

lemma arcCost (h : SameFrame s s₁) : s₁.arcCost = s.arcCost := by
  funext a
  rw [QspnState.arcCost, h.arcs, QspnState.arcCost]

end SameFrame

section Whole

variable [Float64 F]

/-- One destination either fails before anything is written, or commits its plan. -/
lemma updateMapOneDestination_cases (order : MapOrder) (aChanged : Option ArcId)
    (zSet : List (List HCoord)) (arcCost : ArcId → Cost) (s : QspnState F) (qd : List NodePath)
    (d : HCoord) :
    ((updateMapOneDestination order aChanged zSet arcCost s qd d).1 = s ∧
        ∃ e, (updateMapOneDestination order aChanged zSet arcCost s qd d).2 = .error e) ∨
      ∃ plan, planDestination s qd d aChanged zSet arcCost = .ok plan ∧
        (updateMapOneDestination order aChanged zSet arcCost s qd d).1 =
          commit order s d plan.od ∧
        ∀ out, (updateMapOneDestination order aChanged zSet arcCost s qd d).2 = .ok out →
          out.allPathsSet = plan.allPathsSet := by
  unfold updateMapOneDestination
  cases h : planDestination s qd d aChanged zSet arcCost with
  | error e => exact Or.inl ⟨rfl, e, rfl⟩
  | ok plan =>
      refine Or.inr ⟨plan, rfl, rfl, fun out hout => ?_⟩
      obtain ⟨_, _, hout⟩ := Outcome.bind_eq_ok.mp hout
      cases hout
      rfl

/-! ## All destinations -/

lemma updateMapBody_cases (order : MapOrder) (aChanged : Option ArcId)
    (zSet : List (List HCoord)) (arcCost : ArcId → Cost) (q : List NodePath) (s : QspnState F)
    (d : HCoord) :
    ((updateMapBody order aChanged zSet arcCost q s d).1 = s ∧
        ∃ e, (updateMapBody order aChanged zSet arcCost q s d).2 = .error e) ∨
      ∃ plan, planDestination s (candidatesFor q d) d aChanged zSet arcCost = .ok plan ∧
        (updateMapBody order aChanged zSet arcCost q s d).1 = commit order s d plan.od ∧
        ∀ b, (updateMapBody order aChanged zSet arcCost q s d).2 = .ok b →
          b.1 = d ∧ b.2.allPathsSet = plan.allPathsSet := by
  have hcases := updateMapOneDestination_cases order aChanged zSet arcCost s (candidatesFor q d) d
  unfold updateMapBody
  rcases h : updateMapOneDestination order aChanged zSet arcCost s (candidatesFor q d) d with
    ⟨s', e | out⟩
  · rw [h] at hcases
    rcases hcases with ⟨hs, _⟩ | ⟨plan, hplan, hs, _⟩
    · exact Or.inl ⟨hs, e, rfl⟩
    · exact Or.inr ⟨plan, hplan, hs, by simp⟩
  · rw [h] at hcases
    rcases hcases with ⟨_, e, he⟩ | ⟨plan, hplan, hs, hout⟩
    · cases he
    · refine Or.inr ⟨plan, hplan, hs, ?_⟩
      rintro b ⟨⟩
      exact ⟨rfl, hout out rfl⟩

/-- Every path stored in `s'` comes from the stored paths of `s` or from the candidates `q`. -/
def StoredFrom (s : QspnState F) (q : List NodePath) (s' : QspnState F) : Prop :=
  ∀ d, ∀ np ∈ s'.storedAt d, ∃ np₀ ∈ s.storedAt d ++ candidatesFor q d, np₀.core = np.core

lemma StoredFrom.body {s s₁ : QspnState F} {q : List NodePath} (h : StoredFrom s q s₁)
    (order : MapOrder) (aChanged : Option ArcId) (zSet : List (List HCoord))
    (arcCost : ArcId → Cost) (d : HCoord) :
    StoredFrom s q (updateMapBody order aChanged zSet arcCost q s₁ d).1 := by
  rcases updateMapBody_cases order aChanged zSet arcCost q s₁ d with ⟨hs, _⟩ | ⟨plan, hplan, hs, _⟩
  · rw [hs]
    exact h
  · rw [hs]
    obtain ⟨hlt, hsrc, _⟩ := planDestination_spec hplan
    intro d' np hnp
    by_cases hd : d' = d
    · subst hd
      rw [storedAt_commit_self hlt] at hnp
      obtain ⟨_, np₀, hnp₀, hc⟩ := hsrc np hnp
      rcases List.mem_append.mp hnp₀ with hold | hnew
      · obtain ⟨np₁, hnp₁, hc₁⟩ := h d' np₀ hold
        exact ⟨np₁, hnp₁, hc₁.trans hc⟩
      · exact ⟨np₀, List.mem_append_right _ hnew, hc⟩
    · rw [storedAt_commit_of_ne hd] at hnp
      exact h d' np hnp

lemma SameFrame.body {s s₁ : QspnState F} (h : SameFrame s s₁) (order : MapOrder)
    (aChanged : Option ArcId) (zSet : List (List HCoord)) (arcCost : ArcId → Cost)
    (q : List NodePath) (d : HCoord) :
    SameFrame s (updateMapBody order aChanged zSet arcCost q s₁ d).1 := by
  rcases updateMapBody_cases order aChanged zSet arcCost q s₁ d with ⟨hs, _⟩ | ⟨plan, _, hs, _⟩
  · rw [hs]
    exact h
  · rw [hs]
    exact h.trans (SameFrame.commit order s₁ d plan.od)

/-- `update_map` as a loop over its body. -/
lemma updateMap_eq (order : MapOrder) (s : QspnState F) (q : List NodePath)
    (aChanged : Option ArcId) :
    (∃ e, updateMap order s q aChanged = (s, .error e)) ∨
      ∃ zSet keys, updateMapKeys order s q = .ok (zSet, keys) ∧
        updateMap order s q aChanged =
          ((Outcome.loop (updateMapBody order aChanged zSet s.arcCost q) s keys).1,
            (Outcome.loop (updateMapBody order aChanged zSet s.arcCost q) s keys).2.map
              collectOutcomes) := by
  unfold updateMap
  cases h : updateMapKeys order s q with
  | error e => exact Or.inl ⟨e, rfl⟩
  | ok r => exact Or.inr ⟨r.1, r.2, rfl, rfl⟩

/-- **Frame and provenance of `update_map`**, whether it returns or fails: nothing but the
destination maps changes, and every path stored afterwards was stored under the same coordinate
before or is a candidate for it. -/
theorem updateMap_storedFrom (order : MapOrder) (s : QspnState F) (q : List NodePath)
    (aChanged : Option ArcId) :
    SameFrame s (updateMap order s q aChanged).1 ∧
      StoredFrom s q (updateMap order s q aChanged).1 := by
  have hself : StoredFrom s q s := fun d np hnp => ⟨np, List.mem_append_left _ hnp, rfl⟩
  rcases updateMap_eq order s q aChanged with ⟨e, h⟩ | ⟨zSet, keys, _, h⟩
  · rw [h]
    exact ⟨SameFrame.refl s, hself⟩
  · rw [h]
    exact ⟨Outcome.loop_preserves (SameFrame.refl s) fun s₁ d hs₁ _ => hs₁.body _ _ _ _ _ d,
      Outcome.loop_preserves hself fun s₁ d hs₁ _ => hs₁.body _ _ _ _ d⟩

/-- **Everything `update_map` reports is a path it knew or was given**, in wire form. -/
theorem updateMap_reports {order : MapOrder} {s : QspnState F} {q : List NodePath}
    {aChanged : Option ArcId} {out : UpdateMapOutcome}
    (h : (updateMap order s q aChanged).2 = .ok out) :
    ∀ p ∈ out.allPathsSet, ∃ d, ∃ np ∈ s.storedAt d ++ candidatesFor q d, Wires np p := by
  rcases updateMap_eq order s q aChanged with ⟨e, he⟩ | ⟨zSet, keys, _, he⟩
  · rw [he] at h
    cases h
  · rw [he] at h
    have hself : StoredFrom s q s := fun d np hnp => ⟨np, List.mem_append_left _ hnp, rfl⟩
    rcases hl : Outcome.loop (updateMapBody order aChanged zSet s.arcCost q) s keys with ⟨s', e | outs⟩
    · rw [hl] at h
      cases h
    · rw [hl] at h
      cases h
      have hres := Outcome.loop_results (P := StoredFrom s q)
        (Q := fun b : HCoord × OneDestOutcome => ∀ p ∈ b.2.allPathsSet,
          ∃ d, ∃ np ∈ s.storedAt d ++ candidatesFor q d, Wires np p) hself
        (fun s₁ d hs₁ _ => hs₁.body _ _ _ _ d) ?_ hl
      · intro p hp
        obtain ⟨b, hb, hp⟩ := List.mem_flatMap.mp hp
        exact hres b hb p hp
      · intro s₁ d b hs₁ _ hb p hp
        rcases updateMapBody_cases order aChanged zSet s.arcCost q s₁ d with
          ⟨_, e, he⟩ | ⟨plan, hplan, _, hout⟩
        · rw [he] at hb
          cases hb
        · obtain ⟨_, hset⟩ := hout b hb
          obtain ⟨_, _, _, _, hpaths⟩ := planDestination_spec hplan
          obtain ⟨np, hnp, hw⟩ := hpaths p (hset ▸ hp)
          rcases List.mem_append.mp hnp with hold | hnew
          · obtain ⟨np₀, hnp₀, hc⟩ := hs₁ d np hold
            refine ⟨d, np₀, hnp₀, ?_⟩
            rw [Wires, NodePath.path_eq_of_core hc]
            exact hw
          · exact ⟨d, np, List.mem_append_right _ hnew, hw⟩

end Whole

end Netsukuku
