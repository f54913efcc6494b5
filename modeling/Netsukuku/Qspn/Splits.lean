import Mathlib
import Netsukuku.Qspn.Election
import Netsukuku.Qspn.Reachable
import Netsukuku.Qspn.Merge

/-!
# Split signals name the losing branches

Where the stored paths of a g-node do not all belong to one branch, `update_map` signals a split:
the eldest branch, and every other one against it.

* `Fingerprint.sameBranch_comm` — being one branch is symmetric; it is not transitive.
* `branches_eq_representatives` — the branches listed are representatives.
* `Splits` — signals that name exactly the losing branches.
* `splitCheck_splits` — what the fork check signals about one destination.
* `updateMap_splits` — what a call signals about each destination it takes up.
-/

namespace Netsukuku

open Contest

variable {F : Type}

namespace Fingerprint

variable {Id : Type}

lemma compareSeeds_tie_comm {mine theirs : List ℤ}
    (h : compareSeeds mine theirs = Outcome.fail .indistinguishableFingerprints) :
    compareSeeds theirs mine = Outcome.fail .indistinguishableFingerprints := by
  induction mine generalizing theirs with
  | nil => cases theirs <;> rfl
  | cons m mine ih =>
      cases theirs with
      | nil => rfl
      | cons t theirs =>
          rw [compareSeeds] at h ⊢
          rcases lt_trichotomy m t with hlt | rfl | hgt
          · rw [if_pos hlt] at h
            cases h
          · simp only [lt_irrefl, if_false] at h ⊢
            exact ih h
          · rw [if_neg hgt.not_gt, if_pos hgt] at h
            cases h

lemma elderSeed_tie_comm {f g : Fingerprint Id}
    (h : f.elderSeed g = Outcome.fail .indistinguishableFingerprints) :
    g.elderSeed f = Outcome.fail .indistinguishableFingerprints := by
  rw [elderSeed] at h ⊢
  split_ifs at h with h₀ hne
  · cases h
  · cases h
  · rw [not_not] at hne
    rw [if_neg (hne ▸ h₀), if_neg (not_not.mpr hne.symm)]
    exact compareSeeds_tie_comm h

variable [DecidableEq Id]

/-- Being one branch is symmetric. -/
lemma sameBranch_comm (f g : Fingerprint Id) (m n : UInt32) :
    f.sameBranch g m n = g.sameBranch f n m := by
  have hid : f.identityEq g = g.identityEq f := by
    simp only [identityEq, eq_comm]
  have htie : (f.elderSeed g = Outcome.fail .indistinguishableFingerprints) ↔
      (g.elderSeed f = Outcome.fail .indistinguishableFingerprints) :=
    ⟨elderSeed_tie_comm, elderSeed_tie_comm⟩
  simp only [sameBranch, hid, htie]
  rw [Bool.and_comm (decide (1 < m.toNat))]

end Fingerprint

/-- What a path says of its destination: a fingerprint and a size. -/
def NodePath.claim (np : NodePath) : Fp × UInt32 := (np.path.fingerprint, np.path.nodesInside)

/-- Two claims stand for one branch. -/
def sameClaim (a b : Fp × UInt32) : Bool := a.1.sameBranch b.1 a.2 b.2

lemma sameClaim_self (a : Fp × UInt32) : sameClaim a a = true :=
  Fingerprint.sameBranch_self a.1 a.2 a.2

lemma sameClaim_comm (a b : Fp × UInt32) : sameClaim a b = sameClaim b a :=
  Fingerprint.sameBranch_comm a.1 b.1 a.2 b.2

/-- The branches listed are representatives of the claims. -/
lemma branches_eq_representatives (paths : List NodePath) :
    branches paths = Scan.representatives sameClaim (paths.map NodePath.claim) := by
  rw [Scan.representatives, List.foldl_map]
  rfl

/-! ## The fork check -/

section Check

variable {arcCost : ArcId → Cost} {d : HCoord} {paths : List NodePath} {f1 : List (Fp × UInt32)}

/-- A cheapest path of a branch. -/
structure CheapestOf (arcCost : ArcId → Cost) (paths : List NodePath) (b : Fp × UInt32)
    (np : NodePath) : Prop where
  mem : np ∈ paths
  branch : sameClaim np.claim b = true
  cheapest : ∀ q ∈ paths, sameClaim q.claim b = true →
    np.totalCost (arcCost np.arc) ≤ q.totalCost (arcCost q.arc)

/-- The signal that names the branch `b` against the branch `e`. -/
structure NamesLoser (arcCost : ArcId → Cost) (d : HCoord) (paths : List NodePath)
    (e b : Fp × UInt32) (signal : SplitSignal) : Prop where
  destination : signal.destination = d
  fpEldest : signal.fpEldest = e.1
  fp : signal.fp = b.1
  other : sameClaim b e = false
  bpEldest : CheapestOf arcCost paths e signal.bpEldest
  bp : CheapestOf arcCost paths b signal.bp

/-- **The signals name exactly the losing branches**: one branch is eldest, each of the others is
named once against it, and none is if all the paths belong to one branch. -/
structure Splits (arcCost : ArcId → Cost) (d : HCoord) (paths : List NodePath)
    (signals : List SplitSignal) : Prop where
  named : branches paths = [] ∧ signals = [] ∨ ∃ e ∈ branches paths,
    (∀ b ∈ branches paths, e.1.eldershipsSeed ≤ b.1.eldershipsSeed) ∧
      ((branches paths).erase e).Forall₂ (NamesLoser arcCost d paths e) signals
  quiet : (∀ p ∈ paths, ∀ q ∈ paths, sameClaim p.claim q.claim = true) → signals = []

lemma exists_of_named {e : Fp × UInt32} {others : List (Fp × UInt32)} {signals : List SplitSignal}
    (h : others.Forall₂ (NamesLoser arcCost d paths e) signals) {signal : SplitSignal}
    (hs : signal ∈ signals) : ∃ b ∈ others, NamesLoser arcCost d paths e b signal := by
  induction h with
  | nil => cases hs
  | @cons b x others signals hx _ ih =>
      rcases List.mem_cons.mp hs with rfl | hs
      · exact ⟨b, List.mem_cons_self, hx⟩
      · obtain ⟨b', hb', hx'⟩ := ih hs
        exact ⟨b', List.mem_cons_of_mem b hb', hx'⟩

lemma cheapestOf_of_cheapestWith {b : Fp × UInt32} {np : NodePath}
    (h : cheapestWith arcCost paths b = .ok np) : CheapestOf arcCost paths b np := by
  have hmin := Outcome.expect_eq_ok.mp h
  obtain ⟨hmem, hbranch⟩ := List.mem_filter.mp (Scan.firstMin_mem hmin)
  exact ⟨hmem, hbranch, fun q hq hqb => Scan.firstMin_le hmin q (List.mem_filter.mpr ⟨hq, hqb⟩)⟩

/-- A branch deposes a younger one. -/
def elder (x w : Fp × UInt32) : Bool := decide (x.1.eldershipsSeed < w.1.eldershipsSeed)

/-- **The eldest branch is elected by its seed.** -/
lemma eldestBranch_foldlM (hd : d.level ≠ 0) {b : Fp × UInt32} {more : List (Fp × UInt32)}
    (hb : b.1.OfLevel d.level) (hmore : ∀ e ∈ more, e.1.OfLevel d.level) :
    more.foldlM eldestBranch b = .ok (winner elder b more) := by
  induction more generalizing b with
  | nil => rfl
  | cons c more ih =>
      have hc := hmore c List.mem_cons_self
      have hstep : eldestBranch b c = .ok (if elder c b then c else b) := by
        rw [eldestBranch, hc.elderSeed_eq hd hb, elder]
        by_cases heq : c.1.eldershipsSeed = b.1.eldershipsSeed
        · simp [heq, Outcome.fail]
        · by_cases hlt : c.1.eldershipsSeed < b.1.eldershipsSeed
          · simp [heq, hlt]
          · simp [heq, hlt]
      rw [List.foldlM_cons, hstep, Outcome.ok_bind, winner_cons]
      refine ih ?_ fun e he => hmore e (List.mem_cons_of_mem c he)
      split_ifs
      · exact hc
      · exact hb

/-- **What the fork check signals names exactly the losing branches.** -/
lemma splitCheck_splits (hd : d.level ≠ 0)
    (hof : ∀ np ∈ paths, np.path.fingerprint.OfLevel d.level) {first : Bool}
    {signals : List SplitSignal} (h : splitCheck arcCost d f1 paths = .ok (first, signals)) :
    Splits arcCost d paths signals := by
  have hlevel : ∀ b ∈ branches paths, b.1.OfLevel d.level := by
    intro b hb
    obtain ⟨np, hnp, rfl⟩ := mem_branches hb
    exact hof np hnp
  have hpair : (branches paths).Pairwise fun a b => sameClaim a b = false := by
    rw [branches_eq_representatives]
    exact Scan.pairwise_representatives
  have hfew : (∀ p ∈ paths, ∀ q ∈ paths, sameClaim p.claim q.claim = true) →
      (branches paths).length ≤ 1 := by
    intro hall
    rw [branches_eq_representatives]
    refine Scan.length_representatives_le_one fun a ha b hb => ?_
    obtain ⟨p, hp, rfl⟩ := List.mem_map.mp ha
    obtain ⟨q, hq, rfl⟩ := List.mem_map.mp hb
    exact hall p hp q hq
  unfold splitCheck at h
  rcases hb : branches paths with _ | ⟨b, _ | ⟨b', more⟩⟩
  · rw [hb] at h
    cases h
    exact ⟨Or.inl ⟨hb, rfl⟩, fun _ => rfl⟩
  · rw [hb] at h
    cases h
    refine ⟨Or.inr ⟨b, by simp [hb], by simp [hb], ?_⟩, fun _ => rfl⟩
    rw [hb, List.erase_cons_head]
    exact .nil
  · rw [hb] at h hlevel hpair hfew
    dsimp only at h
    rw [eldestBranch_foldlM hd (hlevel b List.mem_cons_self)
      fun e he => hlevel e (List.mem_cons_of_mem b he), Outcome.ok_bind] at h
    obtain ⟨bpEldest, hbpEldest, h⟩ := Outcome.bind_eq_ok.mp h
    obtain ⟨named, hnamed, h⟩ := Outcome.bind_eq_ok.mp h
    cases h
    have hmem : winner elder b (b' :: more) ∈ b :: b' :: more := winner_mem
    refine ⟨Or.inr ⟨_, hb ▸ hmem, ?_, ?_⟩, fun hall => absurd (hfew hall) (by simp)⟩
    · rw [hb]
      refine @rank_winner_le _ _ _ _ _ _ (fun e : Fp × UInt32 => e.1.eldershipsSeed)
        (fun x _ v hxv => ?_) fun x _ v hxv => ?_
      · exact (of_decide_eq_true hxv).le
      · exact not_lt.mp (of_decide_eq_false hxv)
    · have herase := Scan.filter_not_same_eq_erase sameClaim_self sameClaim_comm hpair hmem
      rw [hb, ← herase]
      have hothers : ∀ c ∈ (b :: b' :: more).filter fun c =>
          !sameClaim c (winner elder b (b' :: more)),
          sameClaim c (winner elder b (b' :: more)) = false := fun c hc => by
        simpa using (List.mem_filter.mp hc).2
      refine ((List.forall₂_and_left _ _).mpr ⟨hothers, Outcome.mapM_eq_ok.mp hnamed⟩).imp ?_
      rintro c signal ⟨hother, hrun⟩
      obtain ⟨bp, hbp, hrun⟩ := Outcome.bind_eq_ok.mp hrun
      cases hrun
      exact ⟨rfl, rfl, rfl, hother, cheapestOf_of_cheapestWith hbpEldest,
        cheapestOf_of_cheapestWith hbp⟩

/-- The fork check on what is stored at a destination. -/
lemma detectSplit_splits {s : QspnState F}
    (hof : d.level ≠ 0 → ∀ np ∈ s.storedAt d, np.path.fingerprint.OfLevel d.level) {first : Bool}
    {signals : List SplitSignal}
    (h : detectSplit arcCost d f1 (s.destination d.level d.pos) = .ok (first, signals)) :
    (d.level ≠ 0 → Splits arcCost d (s.storedAt d) signals) ∧
      ∀ signal ∈ signals, signal.destination = d := by
  rw [QspnState.storedAt] at hof ⊢
  cases hdest : s.destination d.level d.pos with
  | none =>
      rw [hdest] at h
      cases h
      exact ⟨fun _ => ⟨Or.inl ⟨rfl, rfl⟩, fun _ => rfl⟩, by simp⟩
  | some dest =>
      rw [hdest, detectSplit] at h
      split_ifs at h with hd
      · cases h
        exact ⟨fun hne => absurd hd hne, by simp⟩
      · rw [hdest] at hof
        have hsplits := splitCheck_splits hd (hof hd) h
        refine ⟨fun _ => hsplits, fun signal hsignal => ?_⟩
        rcases hsplits.named with ⟨-, rfl⟩ | ⟨e, -, -, hnamed⟩
        · cases hsignal
        · obtain ⟨_, _, hname⟩ := exists_of_named hnamed hsignal
          exact hname.destination

end Check

/-! ## A call -/

section Calls

variable [Float64 F] {order : MapOrder} {aChanged : Option ArcId} {zSet : List (List HCoord)}
  {arcCost : ArcId → Cost} {q : List NodePath}

/-- Each destination is checked on what the call leaves there. -/
lemma loop_signals {keys : List HCoord} :
    ∀ {s s' : QspnState F} {outs : List (HCoord × OneDestOutcome)}, keys.Nodup →
      Outcome.loop (updateMapBody order aChanged zSet arcCost q) s keys = (s', .ok outs) →
      outs.map Prod.fst = keys ∧ (∀ d, d ∉ keys → s'.destination d.level d.pos =
          s.destination d.level d.pos) ∧
        ∀ o ∈ outs, ∃ f1 first, detectSplit arcCost o.1 f1 (s'.destination o.1.level o.1.pos) =
          .ok (first, o.2.splitSignals) := by
  induction keys with
  | nil =>
      intro s s' outs _ h
      cases h
      exact ⟨rfl, fun _ _ => rfl, fun o ho => by cases ho⟩
  | cons d keys ih =>
      intro s s' outs hnd h
      obtain ⟨hd, hnd⟩ := List.nodup_cons.mp hnd
      obtain ⟨s₁, b, bs, hbody, hrest, rfl⟩ := Outcome.loop_cons_eq_ok h
      obtain ⟨hkeys, hother, hsignals⟩ := ih hnd hrest
      rw [updateMapBody, updateMapOneDestination] at hbody
      cases hplan : planDestination s (candidatesFor q d) d aChanged zSet arcCost with
      | error e =>
          rw [hplan] at hbody
          cases hbody
      | ok plan =>
          rw [hplan] at hbody
          cases hsplit : detectSplit arcCost d (knownBranches s d)
              ((commit order s d plan.od).destination d.level d.pos) with
          | error e =>
              simp only [hsplit, Outcome.error_bind] at hbody
              cases hbody
          | ok r =>
              simp only [hsplit, Outcome.ok_bind] at hbody
              cases hbody
              refine ⟨by rw [List.map_cons, hkeys], fun d' hd' => ?_, fun o ho => ?_⟩
              · rw [List.mem_cons, not_or] at hd'
                rw [hother d' hd'.2, destination_commit_of_ne hd'.1]
              · rcases List.mem_cons.mp ho with rfl | ho
                · exact ⟨_, _, by rw [hother d hd, hsplit]⟩
                · exact hsignals o ho

/-- What a call signals about a destination. -/
def UpdateMapOutcome.signalsFor (out : UpdateMapOutcome) (d : HCoord) : List SplitSignal :=
  out.splitSignals.filter fun signal => decide (signal.destination = d)

/-- Every fingerprint stored or offered has a claim for each level below its own: the type holds no
other. -/
def SeedsValid (s : QspnState F) (q : List NodePath) : Prop :=
  ∀ np, (np ∈ q ∨ ∃ d, np ∈ s.storedAt d) →
    np.path.fingerprint.eldershipsSeed.length = np.path.fingerprint.level

/-- **Split signals name exactly the losing branches.**  A call returns, and about a destination
above level 0 it has a candidate for, it signals the eldest of the branches it leaves stored there
and every other one against it; about any other destination it signals nothing. -/
theorem updateMap_splits {s : QspnState F} (hs : RepInv s) (hq : CandidatesOk s.levels q)
    (hseeds : SeedsValid s q) (order : MapOrder) (aChanged : Option ArcId) :
    ∃ s' out, updateMap order s q aChanged = (s', .ok out) ∧ ∀ d, d.level ≠ 0 →
      ((∃ np ∈ q, np.path.hops.getLast? = some d) →
        Splits s'.arcCost d (s'.storedAt d) (out.signalsFor d)) ∧
      ((∀ np ∈ q, np.path.hops.getLast? ≠ some d) → out.signalsFor d = []) := by
  obtain ⟨s', out, hrun, hs'⟩ := hs.toMapInv.updateMap_ok order hq aChanged
  obtain ⟨hframe, hfrom⟩ := updateMap_storedFrom order s q aChanged
  rw [hrun] at hframe hfrom
  refine ⟨s', out, hrun, fun d hd => ?_⟩
  have hof : ∀ d, ∀ np ∈ s'.storedAt d, np.path.fingerprint.OfLevel d.level := by
    intro d np hnp
    obtain ⟨np₀, hnp₀, hcore⟩ := hfrom d np hnp
    have hlevel := (hs'.pathInv hnp).fingerprint_level
    have hseed := hseeds np₀ ((List.mem_append.mp hnp₀).symm.imp (fun h => (List.mem_filter.mp h).1)
      fun h => ⟨d, h⟩)
    rw [NodePath.path_eq_of_core hcore] at hseed
    exact ⟨hlevel, hseed.trans hlevel⟩
  rcases updateMap_eq order s q aChanged with ⟨e, he⟩ | ⟨zSet, keys, hkeys, he⟩
  · rw [he] at hrun
    cases hrun
  · rw [he] at hrun
    rcases hl : Outcome.loop (updateMapBody order aChanged zSet s.arcCost q) s keys with
      ⟨s₁, e | outs⟩
    · rw [hl] at hrun
      cases hrun
    · rw [hl] at hrun
      cases hrun
      obtain ⟨_, _, hk⟩ := Outcome.bind_eq_ok.mp hkeys
      obtain ⟨_, hsorted, hk⟩ := Outcome.bind_eq_ok.mp hk
      cases hk
      obtain ⟨hnd, hmem⟩ := MapInv.mem_sortedKeys hsorted
      obtain ⟨hfst, -, hsignals⟩ := loop_signals hnd hl
      have hown : ∀ o ∈ outs, (o.1.level ≠ 0 →
          Splits s.arcCost o.1 (s₁.storedAt o.1) o.2.splitSignals) ∧
          ∀ signal ∈ o.2.splitSignals, signal.destination = o.1 := fun o ho => by
        obtain ⟨f1, first, hsplit⟩ := hsignals o ho
        exact detectSplit_splits (fun _ => hof o.1) hsplit
      constructor
      · intro hcand
        have hdmem : d ∈ outs.map Prod.fst := hfst ▸ (hmem d).mpr hcand
        obtain ⟨o, ho, rfl⟩ := List.mem_map.mp hdmem
        have hfor : (collectOutcomes outs).signalsFor o.1 = o.2.splitSignals := by
          rw [UpdateMapOutcome.signalsFor, collectOutcomes,
            Scan.filter_flatMap_of_nodup Prod.fst (hfst ▸ hnd) ho fun x hx signal hsignal hd => ?_]
          · exact List.filter_eq_self.mpr fun signal hsignal =>
              decide_eq_true ((hown o ho).2 signal hsignal)
          · exact ((hown x hx).2 signal hsignal).symm.trans (of_decide_eq_true hd)
        rw [hfor, hframe.arcCost]
        exact (hown o ho).1 hd
      · intro hnone
        refine List.filter_eq_nil_iff.mpr fun signal hsignal hdest => ?_
        obtain ⟨o, ho, hsignal⟩ := List.mem_flatMap.mp hsignal
        have hdo : o.1 = d := ((hown o ho).2 signal hsignal).symm.trans (of_decide_eq_true hdest)
        have hkey : d ∈ keys := hdo ▸ hfst ▸ List.mem_map_of_mem ho
        obtain ⟨np, hnp, hlast⟩ := (hmem d).mp hkey
        exact hnone np hnp hlast

end Calls

/-! ## Two branches of one g-node -/

/-- The node with arcs to two neighbours. -/
def twoArcState : QspnState ℚ :=
  (twoLevelState.addArc ⟨1⟩ (.finite 10)).addArc ⟨2⟩ (.finite 10)

lemma twoArcState_repInv : RepInv twoArcState :=
  have hnew : QspnState.new (twoLevelNode 0) (Fingerprint.new [0] 0 [0, 0]) tolerantConfig =
      .ok twoLevelState := rfl
  ((repInv_of_new hnew).1.addArc ⟨1⟩ _).addArc ⟨2⟩ _

/-- Two paths to one g-node that disagree on its fingerprint. -/
def rivals : List NodePath :=
  [.new ⟨1⟩ ⟨[⟨1, 1⟩], [⟨1⟩], .null, ⟨[3], 1, 0, [0], [5]⟩, 1, [false, false]⟩,
    .new ⟨2⟩ ⟨[⟨1, 1⟩], [⟨2⟩], .null, ⟨[4], 1, 0, [0], [2]⟩, 1, [false, false]⟩]

lemma rivals_ok : CandidatesOk twoArcState.levels rivals := by
  simp only [CandidatesOk, rivals, List.forall_mem_cons]
  refine ⟨⟨⟨1, 1⟩, rfl, rfl, rfl, by decide, rfl⟩, ⟨⟨1, 1⟩, rfl, rfl, rfl, by decide, rfl⟩, by simp⟩

lemma rivals_seeds : SeedsValid twoArcState rivals := by
  have hnone : ∀ d, twoArcState.storedAt d = [] := by
    have hnew : QspnState.new (twoLevelNode 0) (Fingerprint.new [0] 0 [0, 0]) tolerantConfig =
        .ok twoLevelState := rfl
    exact (repInv_of_new hnew).2.2.1
  rintro np (hnp | ⟨d, hnp⟩)
  · simp only [rivals, List.mem_cons, List.not_mem_nil, or_false] at hnp
    rcases hnp with rfl | rfl <;> rfl
  · rw [hnone] at hnp
    cases hnp

theorem updateMap_splits_rivals :
    ∃ s' out, updateMap .asInserted twoArcState rivals none = (s', .ok out) ∧
      (out.signalsFor ⟨1, 1⟩).length = 1 ∧
      Splits s'.arcCost ⟨1, 1⟩ (s'.storedAt ⟨1, 1⟩) (out.signalsFor ⟨1, 1⟩) := by
  obtain ⟨s', out, hrun, hsplits⟩ :=
    updateMap_splits twoArcState_repInv rivals_ok rivals_seeds .asInserted none
  have hlength : ((updateMap .asInserted twoArcState rivals none).2.toOption.map fun out =>
      (out.signalsFor ⟨1, 1⟩).length) = some 1 := by decide +kernel
  rw [hrun] at hlength
  exact ⟨s', out, hrun, Option.some.inj hlength,
    (hsplits ⟨1, 1⟩ one_ne_zero).1 ⟨_, List.mem_cons_self, rfl⟩⟩

/-- The node once it has stored both. -/
def rivalState : QspnState ℚ := (updateMap .asInserted twoArcState rivals none).1

/-- A call that does not take up a destination signals nothing about it, forked or not. -/
theorem not_updateMap_splits : ∃ (s s' : QspnState ℚ) (out : UpdateMapOutcome),
    RepInv s ∧ SeedsValid s [] ∧ updateMap .asInserted s [] none = (s', .ok out) ∧
      ¬Splits s'.arcCost ⟨1, 1⟩ (s'.storedAt ⟨1, 1⟩) (out.signalsFor ⟨1, 1⟩) := by
  have hinv : RepInv rivalState := by
    obtain ⟨s', out, hrun, hs'⟩ := twoArcState_repInv.updateMap .asInserted rivals_ok
      (by decide +kernel) none
    rw [rivalState, hrun]
    exact hs'
  have hseeds : SeedsValid rivalState [] := by
    rintro np (hnp | ⟨d, hnp⟩)
    · cases hnp
    · obtain ⟨np₀, hnp₀, hcore⟩ :=
        (updateMap_storedFrom .asInserted twoArcState rivals none).2 d np hnp
      rw [← NodePath.path_eq_of_core hcore]
      exact rivals_seeds np₀ ((List.mem_append.mp hnp₀).symm.imp
        (fun h => (List.mem_filter.mp h).1) fun h => ⟨d, h⟩)
  obtain ⟨s', out, hrun, -⟩ := hinv.toMapInv.updateMap_ok .asInserted
    (q := []) (fun np hnp => by cases hnp) none
  have hquiet : ((updateMap .asInserted rivalState [] none).2.toOption.map fun out =>
      (out.signalsFor ⟨1, 1⟩).length) = some 0 := by decide +kernel
  have hforked : (branches ((updateMap .asInserted rivalState [] none).1.storedAt ⟨1, 1⟩)).length =
      2 := by decide +kernel
  rw [hrun] at hquiet hforked
  refine ⟨rivalState, s', out, hinv, hseeds, hrun, fun h => ?_⟩
  rw [List.length_eq_zero_iff.mp (Option.some.inj hquiet)] at h
  rcases h.named with ⟨hnil, -⟩ | ⟨e, he, -, hnamed⟩
  · rw [hnil] at hforked
    cases hforked
  · have hlen := hnamed.length_eq
    rw [List.length_erase_of_mem he, hforked] at hlen
    cases hlen

end Netsukuku
