import Mathlib
import Netsukuku.Qspn.Invariant

/-!
# `update_map` never fails on a well-formed state

Every `expect`, index, assertion and `?` of `update_map` rests on a fact about the stored paths
and the candidates.  This module discharges them step by step and concludes: on a state
satisfying `MapInv`, fed with candidates satisfying `PathInv`, `update_map` returns and leaves a
state satisfying `MapInv`.

* `CandidatesOk` — what the candidates must look like.
* `planDestination_ok`, `detectSplit_ok` — one destination.
* `updateMap_ok` — the whole.
-/

namespace Netsukuku

/-- Every candidate is a path to its own last hop. -/
def CandidatesOk (levels : ℕ) (q : List NodePath) : Prop := ∀ np ∈ q, ∃ d, PathInv levels d np

lemma CandidatesOk.pathInv {levels : ℕ} {q : List NodePath} (h : CandidatesOk levels q)
    {d : HCoord} {np : NodePath} (hnp : np ∈ candidatesFor q d) : PathInv levels d np := by
  obtain ⟨hq, hlast⟩ := List.mem_filter.mp hnp
  obtain ⟨d', hd'⟩ := h np hq
  have hd : d' = d := by
    have := hd'.last.symm.trans (of_decide_eq_true hlast)
    exact Option.some.inj this
  exact hd ▸ hd'

namespace MapInv

variable {F : Type} {s : QspnState F}

lemma exists_map (h : MapInv s) {l : ℕ} (hl : l < s.levels) :
    ∃ m, (Outcome.index s.destinations l : Outcome QspnError _) = .ok m ∧
      s.destinations[l]? = some m := by
  have hlt : l < s.destinations.length := h.length_destinations ▸ hl
  exact ⟨s.destinations[l], Outcome.index_of_lt hlt, List.getElem?_eq_getElem hlt⟩

/-- A destination looked up by coordinate evaluates. -/
lemma evaluate_get_ok (h : MapInv s) {d : HCoord} {m : KeyedMap UInt32 Destination}
    (hm : s.destinations[d.level]? = some m) {dest : Destination} (hd : m.get? d.pos = some dest)
    (arcCost : ArcId → Cost) : ∃ r, dest.evaluate arcCost = .ok r := by
  refine h.evaluate_ok (d := d) ?_ arcCost
  rw [QspnState.destination, hm, Option.bind_some, hd]

/-! ## Reading the map -/

lemma neighborAlong_ok (i : ℕ) {d : HCoord} {np : NodePath} (hnp : PathInv s.levels d np) :
    ∃ y, QspnState.neighborAlong i np = .ok y := by
  have hlen : 0 < np.path.hops.length := List.length_pos_of_ne_nil hnp.hops_ne_nil
  rw [QspnState.neighborAlong, Outcome.index_of_lt hlen, Outcome.ok_bind]
  exact ⟨_, rfl⟩

theorem myGnodeNeighbors_ok (h : MapInv s) {i : ℕ} (_hi : i < s.levels) :
    ∃ ys, s.myGnodeNeighbors i = .ok ys := by
  have hmaps : (List.range' i (s.levels - i)).mapM
      (fun l => (Outcome.index s.destinations l : Outcome QspnError _)) =
      .ok ((List.range' i (s.levels - i)).map fun l => (s.destinations[l]?).getD .empty) := by
    refine Outcome.mapM_of_forall fun l hl => ?_
    rw [List.mem_range'_1] at hl
    obtain ⟨m, hm, hm'⟩ := h.exists_map (l := l) (by omega)
    rw [hm, hm']
    rfl
  unfold QspnState.myGnodeNeighbors
  rw [hmaps, Outcome.ok_bind]
  obtain ⟨ys, hys⟩ : ∃ ys, ((((List.range' i (s.levels - i)).map fun l =>
      (s.destinations[l]?).getD .empty)).flatMap fun m => m.values.flatMap Destination.paths).mapM
      (QspnState.neighborAlong i) = .ok ys := by
    refine Outcome.mapM_ok fun np hnp => ?_
    obtain ⟨m, hm, hnp⟩ := List.mem_flatMap.mp hnp
    obtain ⟨l, _, rfl⟩ := List.mem_map.mp hm
    obtain ⟨dest, hdest, hnp⟩ := List.mem_flatMap.mp hnp
    cases hm : s.destinations[l]? with
    | none =>
        rw [hm] at hdest
        simp at hdest
    | some m =>
        rw [hm] at hdest
        obtain ⟨pos, hpos⟩ := KeyedMap.mem_values.mp hdest
        have hd := h.dest ⟨l, pos⟩ dest (h.destination_of_mem hm hpos)
        exact neighborAlong_ok i (hd.path np hnp)
  rw [hys, Outcome.ok_bind]
  exact ⟨_, rfl⟩

lemma sortedKeys_ok (order : MapOrder) (arcCost : ArcId → Cost) {levels : ℕ} {q : List NodePath}
    (hq : CandidatesOk levels q) : ∃ keys, sortedKeys order arcCost q = .ok keys := by
  obtain ⟨dests, hdests⟩ : ∃ r, q.mapM (fun np =>
      (Outcome.expect "path always has >= 1 hop" np.path.hops.getLast? : Outcome QspnError HCoord))
      = .ok r := by
    refine Outcome.mapM_ok fun np hnp => ?_
    obtain ⟨d, hd⟩ := hq np hnp
    rw [hd.last]
    exact ⟨d, rfl⟩
  rw [sortedKeys, hdests, Outcome.ok_bind]
  exact ⟨_, rfl⟩

/-! ## Pruning -/

lemma scanHops_ok (h : MapInv s) :
    ∀ {hops : List HCoord} {nn : KeyedMap HCoord UInt32}, (∀ g ∈ hops, g.level < s.levels) →
      ∃ r, scanHops s hops nn = .ok r
  | [], nn, _ => ⟨_, rfl⟩
  | g :: hops, nn, hin => by
      obtain ⟨m, hm, hm'⟩ := h.exists_map (hin g List.mem_cons_self)
      rw [scanHops, hm, Outcome.ok_bind]
      cases hg : m.get? g.pos with
      | none => exact ⟨_, rfl⟩
      | some dest =>
          obtain ⟨r, hr⟩ := h.evaluate_get_ok hm' hg s.arcCost
          simp only [hr, Outcome.mapErr_ok, Outcome.ok_bind]
          exact scanHops_ok h fun g' hg' => hin g' (List.mem_cons_of_mem g hg')

lemma pruneUnknown_ok (h : MapInv s) :
    ∀ {od : List NodePath} {nn : KeyedMap HCoord UInt32},
      (∀ np ∈ od, ∀ g ∈ np.path.hops, g.level < s.levels) → ∃ r, pruneUnknown s od nn = .ok r
  | [], nn, _ => ⟨_, rfl⟩
  | np :: od, nn, hin => by
      obtain ⟨⟨known, nn₁⟩, h₁⟩ : ∃ r, scanHops s np.path.hops.dropLast nn = .ok r :=
        h.scanHops_ok fun g hg => hin np List.mem_cons_self g (List.mem_of_mem_dropLast hg)
      obtain ⟨⟨od', nn₂⟩, h₂⟩ : ∃ r, pruneUnknown s od nn₁ = .ok r :=
        h.pruneUnknown_ok fun np' hnp' => hin np' (List.mem_cons_of_mem np hnp')
      rw [pruneUnknown, h₁, Outcome.ok_bind]
      simp only [h₂, Outcome.ok_bind]
      exact ⟨_, rfl⟩

/-! ## Admission -/

lemma directNeighbors_ok (h : MapInv s) : ∃ r, directNeighbors s = .ok r := by
  have hstep : ∀ vnd e, True → e ∈ s.arcs.values →
      ∃ vnd', noteNeighbor s vnd e = .ok vnd' ∧ True := by
    intro vnd e _ he
    unfold noteNeighbor
    cases hp : e.peerNaddr with
    | none => exact ⟨vnd, rfl, trivial⟩
    | some peer =>
        obtain ⟨arc, harc⟩ := KeyedMap.mem_values.mp he
        have ht : peer.topology = s.myNaddr.topology := by
          refine h.peer arc peer ?_
          rw [QspnState.peerNaddr, KeyedMap.mem_entries_iff.mp harc, Option.bind_some, hp]
        obtain ⟨o, ho⟩ := Naddr.exists_hcoord ht.symm
        simp only [ho, Outcome.mapErr_ok, Outcome.ok_bind]
        cases o <;> exact ⟨_, rfl, trivial⟩
  obtain ⟨r, hr, _⟩ := Outcome.foldlM_ok (P := fun _ => True) (s := []) trivial hstep
  exact ⟨r, hr⟩

variable [Float64 F]

lemma overlapTolerance_ok (h : MapInv s) {d : HCoord} (hd : d.level < s.levels) :
    ∃ r, overlapTolerance s d = .ok r := by
  obtain ⟨m, hm, hm'⟩ := h.exists_map hd
  rw [overlapTolerance, hm, Outcome.ok_bind]
  cases hg : m.get? d.pos with
  | none => exact ⟨_, rfl⟩
  | some dest =>
      obtain ⟨r, hr⟩ := h.evaluate_get_ok hm' hg s.arcCost
      obtain ⟨exposed, hexposed⟩ := h.exposedPaths_ok d
      simp only [hr, Outcome.mapErr_ok, Outcome.ok_bind, hexposed]
      exact ⟨_, rfl⟩

lemma overlapHop_ok (nn : KeyedMap HCoord UInt32) (p1 : NodePath) {d : HCoord} {p2 : NodePath}
    (hp2 : PathInv s.levels d p2) (acc : F × F) {i : ℕ}
    (hi : i ∈ List.range (p2.path.hops.length - 1)) :
    ∃ r, overlapHop s nn p1 p2 acc i = .ok r := by
  rw [List.mem_range] at hi
  have hlen := hp2.length_arcs
  have h₁ : i < p2.path.hops.length := by omega
  have h₂ : i < p2.path.arcs.length := by omega
  have h₃ : i + 1 < p2.path.arcs.length := by omega
  simp only [overlapHop, Outcome.index_of_lt h₁, Outcome.index_of_lt h₂, Outcome.index_of_lt h₃,
    Outcome.ok_bind]
  exact ⟨_, rfl⟩

lemma overlapDestination_ok (h : MapInv s) (p1 : NodePath) {d : HCoord} {p2 : NodePath}
    (hp2 : PathInv s.levels d p2) (acc : F × F) :
    ∃ r, overlapDestination s d p1 p2 acc = .ok r := by
  unfold overlapDestination
  split_ifs
  · exact ⟨_, rfl⟩
  · obtain ⟨m, hm, hm'⟩ := h.exists_map hp2.level_lt
    rw [hm, Outcome.ok_bind]
    cases hg : m.get? d.pos with
    | none => exact ⟨_, rfl⟩
    | some dest =>
        obtain ⟨r, hr⟩ := h.evaluate_get_ok hm' hg s.arcCost
        have hpos : 0 < p2.path.hops.length := List.length_pos_of_ne_nil hp2.hops_ne_nil
        have hlast : p2.path.hops.length - 1 < p2.path.arcs.length := by
          rw [← hp2.length_arcs]
          omega
        simp only [hr, Outcome.mapErr_ok, Outcome.ok_bind, Outcome.index_of_lt hlast]
        split_ifs <;> exact ⟨_, rfl⟩

lemma overlapExceeds_ok (h : MapInv s) (nn : KeyedMap HCoord UInt32) (mch : F) (p1 : NodePath)
    {d : HCoord} {p2 : NodePath} (hp2 : PathInv s.levels d p2) :
    ∃ b, overlapExceeds s d nn mch p1 p2 = .ok b := by
  obtain ⟨hops, hhops, _⟩ := Outcome.foldlM_ok (P := fun _ : F × F => True)
    (s := (Float64.ofNat 0, Float64.ofNat 0)) (f := overlapHop s nn p1 p2)
    (l := List.range (p2.path.hops.length - 1)) trivial fun acc i _ hi => by
      obtain ⟨r, hr⟩ := overlapHop_ok nn p1 hp2 acc hi
      exact ⟨r, hr, trivial⟩
  obtain ⟨r, hr⟩ := h.overlapDestination_ok p1 hp2 hops
  rw [overlapExceeds, hhops, Outcome.ok_bind, hr, Outcome.ok_bind]
  exact ⟨_, rfl⟩

lemma overlapsAny_ok (h : MapInv s) (nn : KeyedMap HCoord UInt32) (mch : F) (p1 : NodePath)
    {d : HCoord} :
    ∀ {rd : List NodePath}, (∀ p2 ∈ rd, PathInv s.levels d p2) →
      ∃ b, overlapsAny s d nn mch p1 rd = .ok b
  | [], _ => ⟨_, rfl⟩
  | p2 :: rd, hrd => by
      obtain ⟨b, hb⟩ := h.overlapExceeds_ok nn mch p1 (hrd p2 List.mem_cons_self)
      obtain ⟨b', hb'⟩ := h.overlapsAny_ok nn mch p1 fun p hp => hrd p (List.mem_cons_of_mem p2 hp)
      rw [overlapsAny, hb, Outcome.ok_bind, hb']
      split_ifs <;> exact ⟨_, rfl⟩

lemma admitStep_ok (h : MapInv s) (nn : KeyedMap HCoord UInt32) (mch : F) {d : HCoord}
    {a : Admission} (ha : ∀ p ∈ a.rd, PathInv s.levels d p) (p : NodePath) :
    ∃ a', admitStep s d nn mch a p = .ok a' := by
  obtain ⟨b, hb⟩ := h.overlapsAny_ok nn mch p ha
  have hrd : (a.cover p).2.rd = a.rd := rfl
  unfold admitStep
  rcases hc : a.cover p with ⟨mandatory, a₁⟩
  rw [hc] at hrd
  simp only at hrd ⊢
  rw [hrd, hb, Outcome.ok_bind]
  split_ifs <;> exact ⟨_, rfl⟩

lemma admitCandidates_ok (h : MapInv s) (nn : KeyedMap HCoord UInt32) (mch : F) {d : HCoord} :
    ∀ {od : List NodePath} {a : Admission}, (∀ p ∈ a.rd, PathInv s.levels d p) →
      a.rd.length ≤ mandatoryPathFactor * s.config.maxPaths →
      (∀ p ∈ od, PathInv s.levels d p) → ∃ a', admitCandidates s d nn mch a od = .ok a'
  | [], a, _, _, _ => ⟨a, rfl⟩
  | p :: od, a, ha, hlen, hod => by
      rw [admitCandidates]
      split_ifs
      · exact ⟨a, rfl⟩
      · obtain ⟨a₁, h₁⟩ := h.admitStep_ok nn mch ha p
        obtain ⟨hrd, hlen₁⟩ := admitStep_rd h₁ hlen
        have ha₁ : ∀ x ∈ a₁.rd, PathInv s.levels d x := by
          intro x hx
          rcases hrd with hrd | hrd <;> rw [hrd] at hx
          · exact ha x hx
          · rcases List.mem_append.mp hx with hx | hx
            · exact ha x hx
            · exact List.mem_singleton.mp hx ▸ hod p List.mem_cons_self
        rw [h₁, Outcome.ok_bind]
        exact h.admitCandidates_ok nn mch ha₁ hlen₁ fun x hx => hod x (List.mem_cons_of_mem p hx)

lemma admitted_ok (h : MapInv s) (arcCost : ArcId → Cost) (zSet : List (List HCoord)) {d : HCoord}
    (hd : d.level < s.levels) {merged : Merged}
    (hm : ∀ p ∈ merged.od ++ merged.rest, PathInv s.levels d p) :
    ∃ od, admitted s arcCost zSet d merged = .ok od := by
  have hsorted : ∀ p ∈ (merged.od ++ merged.rest).insertionSort (fun a b =>
      a.totalCost (arcCost a.arc) ≤ b.totalCost (arcCost b.arc)), PathInv s.levels d p :=
    fun p hp => hm p ((List.mem_insertionSort _).mp hp)
  obtain ⟨⟨known, nn⟩, hprune⟩ : ∃ r, pruneUnknown s _ .empty = .ok r :=
    h.pruneUnknown_ok fun p hp => (hsorted p hp).inLevels
  obtain ⟨vnd, hvnd⟩ := h.directNeighbors_ok
  obtain ⟨mch, hmch⟩ := h.overlapTolerance_ok hd
  have hknown : ∀ p ∈ Scan.dedupOn (fun np : NodePath => np.path.route) [] known,
      PathInv s.levels d p := fun p hp => hsorted p
    ((pruneUnknown_sublist hprune).subset ((Scan.dedupOn_sublist _ _ _).subset hp))
  obtain ⟨a, ha⟩ := h.admitCandidates_ok nn mch (a := ⟨[], vnd, (zSet.take d.level).flatten, []⟩)
    (by simp) (Nat.zero_le _) hknown
  rw [admitted, hprune, Outcome.ok_bind]
  simp only [hvnd, hmch, ha, Outcome.ok_bind]
  exact ⟨_, rfl⟩

end MapInv

/-! ## Announcing -/

lemma announceNew_ok {arcCost : ArcId → Cost} {d : HCoord} {md : List NodePath}
    {validFp : Option Fp} {validNn : UInt32} (hv : d.level ≠ 0 → validFp ≠ none) :
    ∀ {od : List NodePath}, ∃ r, announceNew arcCost d md validFp validNn od = .ok r
  | [] => ⟨_, rfl⟩
  | p :: od => by
      obtain ⟨r, hr⟩ : ∃ r, announceNew arcCost d md validFp validNn od = .ok r :=
        announceNew_ok hv
      rw [announceNew, hr]
      simp only [Outcome.ok_bind]
      split_ifs with hknown hlevel
      · exact ⟨_, rfl⟩
      · exact ⟨_, rfl⟩
      · obtain ⟨valid, hvalid⟩ := Option.ne_none_iff_exists'.mp (hv hlevel)
        rw [hvalid, Outcome.expect_some, Outcome.ok_bind]
        split_ifs <;> exact ⟨_, rfl⟩

lemma announceKnown_ok {arcCost : ArcId → Cost} {d : HCoord} {vd : List NodePath}
    {validFp : Option Fp} {validNn : UInt32} :
    ∀ {md od : List NodePath}, (d.level ≠ 0 → od ≠ [] → validFp ≠ none) →
      ∃ r, announceKnown arcCost d vd validFp validNn md od = .ok r
  | [], od, _ => ⟨_, rfl⟩
  | p :: md, od, hv => by
      have hstep : ∃ a, announceKnownStep arcCost d vd validFp validNn od p = .ok a := by
        unfold announceKnownStep
        cases hf : od.find? fun o => o.hopsArcsEqual p.path with
        | none => exact ⟨_, rfl⟩
        | some o =>
            have hne : od ≠ [] := List.ne_nil_of_mem (List.mem_of_find?_eq_some hf)
            simp only
            by_cases hvd : (vd.any fun v => v.hopsArcsEqual p.path) = true
            · rw [if_pos hvd]
              by_cases hlevel : d.level = 0
              · rw [if_pos hlevel]
                exact ⟨_, rfl⟩
              · obtain ⟨valid, hvalid⟩ := Option.ne_none_iff_exists'.mp (hv hlevel hne)
                rw [if_neg hlevel, hvalid, Outcome.expect_some, Outcome.ok_bind]
                split_ifs <;> exact ⟨_, rfl⟩
            · rw [if_neg hvd]
              exact ⟨_, rfl⟩
      obtain ⟨a, ha⟩ := hstep
      have hod : a.od.map NodePath.core = od.map NodePath.core := (announceKnownStep_spec ha).1
      obtain ⟨r, hr⟩ : ∃ r, announceKnown arcCost d vd validFp validNn md a.od = .ok r := by
        refine announceKnown_ok fun hlevel hne => hv hlevel fun hnil => hne ?_
        rw [hnil] at hod
        simpa using hod
      rw [announceKnown, ha, Outcome.ok_bind, hr, Outcome.ok_bind]
      exact ⟨_, rfl⟩

/-! ## Forks -/

lemma mem_branches {paths : List NodePath} {b : Fp × UInt32} (hb : b ∈ branches paths) :
    ∃ np ∈ paths, b = (np.path.fingerprint, np.path.nodesInside) := by
  -- the listed branches only ever come from the paths met so far
  have loop : ∀ (rest : List NodePath) (known : List (Fp × UInt32)),
      (∀ e ∈ known, ∃ np ∈ paths, e = (np.path.fingerprint, np.path.nodesInside)) →
      (∀ np ∈ rest, np ∈ paths) →
      ∀ e ∈ rest.foldl (fun known np =>
        if known.any fun e => e.1.sameBranch np.path.fingerprint e.2 np.path.nodesInside then known
        else known ++ [(np.path.fingerprint, np.path.nodesInside)]) known,
        ∃ np ∈ paths, e = (np.path.fingerprint, np.path.nodesInside) := by
    intro rest
    induction rest with
    | nil => exact fun known hk _ => hk
    | cons np rest ih =>
        intro known hk hrest
        rw [List.foldl_cons]
        refine ih _ ?_ fun x hx => hrest x (List.mem_cons_of_mem np hx)
        split_ifs
        · exact hk
        · intro e he
          rcases List.mem_append.mp he with he | he
          · exact hk e he
          · exact ⟨np, hrest np List.mem_cons_self, List.mem_singleton.mp he⟩
  exact loop paths [] (by simp) (fun _ h => h) b hb

/-- Electing the eldest among branches of one aggregated level returns one of them. -/
lemma eldestBranch_ok {level : ℕ} (h₀ : level ≠ 0) :
    ∀ {rest : List (Fp × UInt32)} {b : Fp × UInt32}, b.1.level = level →
      (∀ e ∈ rest, e.1.level = level) →
      ∃ e, rest.foldlM eldestBranch b = .ok e ∧ (e = b ∨ e ∈ rest)
  | [], b, _, _ => ⟨b, rfl, Or.inl rfl⟩
  | c :: rest, b, hb, hrest => by
      have hc := hrest c List.mem_cons_self
      have hstep : ∃ e, eldestBranch b c = .ok e ∧ (e = b ∨ e = c) := by
        unfold eldestBranch
        rcases Fingerprint.elderSeed_total (hc ▸ h₀) (hc.trans hb.symm) with ⟨x, hx⟩ | hx
        · rw [hx]
          cases x with
          | true => exact ⟨c, rfl, Or.inr rfl⟩
          | false => exact ⟨b, rfl, Or.inl rfl⟩
        · rw [hx]
          exact ⟨b, rfl, Or.inl rfl⟩
      obtain ⟨e, he, hfrom⟩ := hstep
      have helevel : e.1.level = level := by
        rcases hfrom with rfl | rfl
        · exact hb
        · exact hc
      obtain ⟨r, hr, hrfrom⟩ := eldestBranch_ok h₀ helevel fun x hx =>
        hrest x (List.mem_cons_of_mem c hx)
      refine ⟨r, by rw [List.foldlM_cons, he, Outcome.ok_bind, hr], ?_⟩
      rcases hrfrom with rfl | hmem
      · rcases hfrom with h | h
        · exact Or.inl h
        · exact Or.inr (h ▸ List.mem_cons_self)
      · exact Or.inr (List.mem_cons_of_mem c hmem)

lemma cheapestWith_ok (arcCost : ArcId → Cost) {paths : List NodePath} {b : Fp × UInt32}
    (hb : b ∈ branches paths) : ∃ np, cheapestWith arcCost paths b = .ok np := by
  obtain ⟨np, hnp, rfl⟩ := mem_branches hb
  have hne : paths.filter (fun p => p.path.fingerprint.sameBranch np.path.fingerprint
      p.path.nodesInside np.path.nodesInside) ≠ [] :=
    List.ne_nil_of_mem (List.mem_filter.mpr ⟨hnp, Fingerprint.sameBranch_self _ _ _⟩)
  obtain ⟨best, hbest⟩ := Scan.exists_firstMin
    (fun np : NodePath => np.totalCost (arcCost np.arc)) hne
  rw [cheapestWith, hbest, Outcome.expect_some]
  exact ⟨_, rfl⟩

/-- The fork check returns on paths whose fingerprints share one aggregated level. -/
lemma splitCheck_ok (arcCost : ArcId → Cost) {d : HCoord} (hd : d.level ≠ 0)
    (f1 : List (Fp × UInt32)) {paths : List NodePath}
    (hp : ∀ np ∈ paths, np.path.fingerprint.level = d.level) :
    ∃ r, splitCheck arcCost d f1 paths = .ok r := by
  have hlevel : ∀ b ∈ branches paths, b.1.level = d.level := by
    intro b hb
    obtain ⟨np, hnp, rfl⟩ := mem_branches hb
    exact hp np hnp
  have hcheap : ∀ b ∈ branches paths, ∃ np, cheapestWith arcCost paths b = .ok np :=
    fun b hb => cheapestWith_ok arcCost hb
  unfold splitCheck
  rcases hb : branches paths with _ | ⟨b, _ | ⟨b', more⟩⟩
  · exact ⟨_, rfl⟩
  · exact ⟨_, rfl⟩
  · rw [hb] at hlevel hcheap
    obtain ⟨eldest, heldest, hfrom⟩ : ∃ e, (b' :: more).foldlM eldestBranch b = .ok e ∧
        (e = b ∨ e ∈ b' :: more) := eldestBranch_ok hd (hlevel b List.mem_cons_self)
      fun e he => hlevel e (List.mem_cons_of_mem b he)
    have hmem : eldest ∈ b :: b' :: more := List.mem_cons.mpr hfrom
    obtain ⟨bp, hbp⟩ := hcheap eldest hmem
    obtain ⟨signals, hsignals⟩ : ∃ r, ((b :: b' :: more).filter fun e =>
        !e.1.sameBranch eldest.1 e.2 eldest.2).mapM (fun e => do
          let x ← cheapestWith arcCost paths e
          (.ok (⟨d, eldest.1, e.1, bp, x⟩ : SplitSignal) : Outcome QspnError SplitSignal)) = .ok r := by
      refine Outcome.mapM_ok fun e he => ?_
      obtain ⟨x, hx⟩ := hcheap e (List.mem_filter.mp he).1
      rw [hx, Outcome.ok_bind]
      exact ⟨_, rfl⟩
    simp only [heldest, hbp, hsignals, Outcome.ok_bind]
    exact ⟨_, rfl⟩

/-! ## One destination, all destinations -/

namespace MapInv

variable {F : Type} [Float64 F] {s : QspnState F}

/-- **One destination never fails before its commit.** -/
theorem planDestination_ok (h : MapInv s) {d : HCoord} (hd : d.level < s.levels)
    {qd : List NodePath} (hqd : ∀ np ∈ qd, PathInv s.levels d np) (aChanged : Option ArcId)
    (zSet : List (List HCoord)) (arcCost : ArcId → Cost) :
    ∃ plan, planDestination s qd d aChanged zSet arcCost = .ok plan := by
  obtain ⟨m, hm, hm'⟩ := h.exists_map hd
  have hmd : ((m.get? d.pos).map Destination.paths).getD [] = s.storedAt d := by
    rw [QspnState.storedAt, QspnState.destination, hm', Option.bind_some]
  have hall : ∀ np ∈ s.storedAt d ++ qd, PathInv s.levels d np := by
    intro np hnp
    rcases List.mem_append.mp hnp with hnp | hnp
    · exact h.pathInv hnp
    · exact hqd np hnp
  have hmerged : ∀ p ∈ (mergeKnown s.config.nodesInsideTolerance aChanged (s.storedAt d) qd).od ++
      (mergeKnown s.config.nodesInsideTolerance aChanged (s.storedAt d) qd).rest,
      PathInv s.levels d p := fun p hp =>
    hall p (mem_mergeKnown ((List.mem_append.mp hp).imp_right Or.inr))
  obtain ⟨od, hod⟩ := h.admitted_ok arcCost zSet hd hmerged
  have hodInv : ∀ p ∈ od, PathInv s.levels d p := fun p hp =>
    hmerged p ((admitted_spec hod).1 p hp)
  obtain ⟨validFp, hvalid, hsome⟩ : ∃ w, validFingerprint d od = .ok w ∧
      (d.level ≠ 0 → od ≠ [] → w ≠ none) := by
    unfold validFingerprint
    split_ifs with hlevel
    · exact ⟨none, rfl, fun hne => absurd hlevel hne⟩
    · obtain ⟨w, hw, hnone, _⟩ := winningFingerprint_ok hlevel fun p hp =>
        (hodInv p hp).fingerprint_level
      rw [hw]
      exact ⟨w, rfl, fun _ hne hn => hne (hnone hn)⟩
  have hfresh : ∃ r, announceNew arcCost d (s.storedAt d) validFp (validNodesInside validFp od) od
      = .ok r := by
    cases od with
    | nil => exact ⟨_, rfl⟩
    | cons p od => exact announceNew_ok fun hlevel => hsome hlevel (List.cons_ne_nil p od)
  obtain ⟨fresh, hfresh⟩ := hfresh
  have hcore := (announceNew_spec hfresh).1
  obtain ⟨known, hknown⟩ : ∃ r, announceKnown arcCost d
      (mergeKnown s.config.nodesInsideTolerance aChanged (s.storedAt d) qd).vd validFp
      (validNodesInside validFp od) (s.storedAt d) fresh.od = .ok r := by
    refine announceKnown_ok fun hlevel hne => hsome hlevel fun hnil => hne ?_
    rw [hnil] at hcore
    simpa using hcore
  simp only [planDestination, hm, Outcome.ok_bind, hmd, hod, hvalid, hfresh, hknown]
  exact ⟨_, rfl⟩

/-- The commit of a plan keeps the invariant. -/
lemma commit (h : MapInv s) (order : MapOrder) {d : HCoord} {qd : List NodePath}
    (hqd : ∀ np ∈ qd, PathInv s.levels d np) {aChanged : Option ArcId}
    {zSet : List (List HCoord)} {arcCost : ArcId → Cost} {plan : Plan}
    (hplan : planDestination s qd d aChanged zSet arcCost = .ok plan) :
    MapInv (commit order s d plan.od) := by
  have hframe := SameFrame.commit order s d plan.od
  have hlevels := hframe.levels
  obtain ⟨hlt, hsrc, hnodup, hbound, _⟩ := planDestination_spec hplan
  refine ⟨?_, fun d' dest hd' => ?_, ?_, ?_, fun arc peer hp => ?_⟩
  · rw [hframe.length_destinations, hlevels, h.length_destinations]
  · rw [hlevels, hframe.config]
    by_cases hdd : d' = d
    · subst hdd
      rw [destination_commit_self hlt] at hd'
      split_ifs at hd' with hne
      cases hd'
      refine ⟨rfl, hne, fun np hnp => ?_, fun np hnp => (hsrc np hnp).1, hnodup, hbound⟩
      obtain ⟨_, np₀, hnp₀, hc⟩ := hsrc np hnp
      rcases List.mem_append.mp hnp₀ with hnp₀ | hnp₀
      · exact (h.pathInv hnp₀).of_core hc
      · exact (hqd np₀ hnp₀).of_core hc
    · rw [destination_commit_of_ne hdd] at hd'
      exact h.dest d' dest hd'
  · rw [hlevels, hframe.myFingerprints]
    exact h.chain
  · rw [hlevels, hframe.myNodesInside]
    exact h.length_nodesInside
  · rw [hframe.myNaddr]
    rw [QspnState.peerNaddr, hframe.arcs] at hp
    exact h.peer arc peer hp

/-- One turn of `update_map`'s loop returns and keeps the invariant. -/
lemma updateMapBody_ok (h : MapInv s) (order : MapOrder) (aChanged : Option ArcId)
    (zSet : List (List HCoord)) (arcCost : ArcId → Cost) {q : List NodePath}
    (hq : CandidatesOk s.levels q) {d : HCoord} (hd : d.level < s.levels) :
    ∃ s' b, updateMapBody order aChanged zSet arcCost q s d = (s', .ok b) ∧ MapInv s' ∧
      SameFrame s s' := by
  have hqd : ∀ np ∈ candidatesFor q d, PathInv s.levels d np := fun np hnp => hq.pathInv hnp
  obtain ⟨plan, hplan⟩ := h.planDestination_ok hd hqd aChanged zSet arcCost
  have hinv := h.commit order hqd hplan
  have hsplit : ∃ r, detectSplit arcCost d (knownBranches s d)
      ((Netsukuku.commit order s d plan.od).destination d.level d.pos) = .ok r := by
    cases hdest : (Netsukuku.commit order s d plan.od).destination d.level d.pos with
    | none => exact ⟨_, rfl⟩
    | some dest =>
        rw [detectSplit]
        split_ifs with hlevel
        · exact ⟨_, rfl⟩
        · exact splitCheck_ok arcCost hlevel _ fun np hnp =>
            ((hinv.dest d dest hdest).path np hnp).fingerprint_level
  obtain ⟨r, hr⟩ := hsplit
  refine ⟨Netsukuku.commit order s d plan.od, (d, ⟨plan.allPathsSet, r.1, plan.events, r.2⟩), ?_,
    hinv, SameFrame.commit order s d plan.od⟩
  simp only [updateMapBody, updateMapOneDestination, hplan, hr, Outcome.ok_bind]

/-- The destinations of a call are the last hops of its candidates, each once. -/
lemma mem_sortedKeys {order : MapOrder} {arcCost : ArcId → Cost} {q : List NodePath}
    {keys : List HCoord} (h : sortedKeys order arcCost q = .ok keys) :
    keys.Nodup ∧ ∀ d, d ∈ keys ↔ ∃ np ∈ q, np.path.hops.getLast? = some d := by
  obtain ⟨dests, hdests, h⟩ := Outcome.bind_eq_ok.mp h
  cases h
  have hperm : (order.keys.arrange (Scan.dedupOn id [] dests)).insertionSort (fun d₀ d₁ =>
      toLex (d₀.level, hopsInLevel arcCost q d₀) ≤ toLex (d₁.level, hopsInLevel arcCost q d₁)) |>.Perm
      (Scan.dedupOn id [] dests) := (List.perm_insertionSort _ _).trans (order.keys.perm _)
  constructor
  · rw [hperm.nodup_iff]
    simpa using Scan.nodup_dedupOn id [] dests
  · intro d
    rw [hperm.mem_iff, Scan.mem_dedupOn_id, Outcome.mem_of_mapM hdests]
    refine exists_congr fun np => and_congr_right fun _ => ?_
    cases np.path.hops.getLast? <;> simp [Outcome.expect]

/-- **`update_map` never fails** on a well-formed state and well-formed candidates, whatever the
iteration orders, and leaves a well-formed state. -/
theorem updateMap_ok (h : MapInv s) (order : MapOrder) {q : List NodePath}
    (hq : CandidatesOk s.levels q) (aChanged : Option ArcId) :
    ∃ s' out, updateMap order s q aChanged = (s', .ok out) ∧ MapInv s' := by
  obtain ⟨zSet, hz⟩ : ∃ r, (List.range s.levels).mapM s.myGnodeNeighbors = .ok r :=
    Outcome.mapM_ok fun i hi => h.myGnodeNeighbors_ok (List.mem_range.mp hi)
  obtain ⟨keys, hkeys⟩ := sortedKeys_ok order s.arcCost hq
  have hlevel : ∀ d ∈ keys, d.level < s.levels := by
    intro d hd
    obtain ⟨np, hnp, hlast⟩ := ((mem_sortedKeys hkeys).2 d).mp hd
    obtain ⟨d', hd'⟩ := hq np hnp
    have hdd : d' = d := Option.some.inj (hd'.last.symm.trans hlast)
    exact hdd ▸ hd'.level_lt
  obtain ⟨s', outs, hrun, ⟨hs', _⟩, _⟩ : ∃ s' bs,
      Outcome.loop (updateMapBody order aChanged zSet s.arcCost q) s keys = (s', .ok bs) ∧
        (MapInv s' ∧ SameFrame s s') ∧ ∀ b ∈ bs, True := by
    refine Outcome.loop_ok (P := fun s' => MapInv s' ∧ SameFrame s s') ⟨h, SameFrame.refl s⟩ ?_
    rintro s₁ d ⟨h₁, hframe⟩ hd
    have hlevels := hframe.levels
    obtain ⟨s₂, b, hstep, h₂, hframe₂⟩ := h₁.updateMapBody_ok order aChanged zSet s.arcCost
      (hlevels ▸ hq) (hlevels ▸ hlevel d hd)
    exact ⟨s₂, b, hstep, ⟨h₂, hframe.trans hframe₂⟩, trivial⟩
  refine ⟨s', collectOutcomes outs, ?_, hs'⟩
  simp only [updateMap, updateMapKeys, hz, hkeys, Outcome.ok_bind, hrun]
  rfl

end MapInv

end Netsukuku
