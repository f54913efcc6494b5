import Mathlib
import Netsukuku.Hooking.Entry

/-!
# The search ends

Peers answer what they like, and differently every time they are asked; a g-node that does not
answer is forgotten and may be queued again.  The search ends all the same: no chain visits a g-node
twice, so chains are short, and a step that is visited is replaced by finitely many steps that are
farther away.

* `bfsStep_follows` — what one iteration does to the queue and to the solutions.
* `ChainOk.length_le_bound` — chains are short.
* `exists_findShortestMig` — the search ends; `findShortestMig_pairwise` — each solution is better
  than the ones before it, and no nearer.
* `search_total` — the search ends, and nothing done with its solutions panics.
-/

namespace Netsukuku.Hooking

/-! ## One iteration -/

section Iteration

variable {F : Type} [Float64 F] {view : QspnView} {router : SearchRouter} {id : Int32}
  {okHostLvl : ℕ} {current : SolutionStep}

/-- New steps wait, all of them one hop behind distance `d`; nothing else changes. -/
structure Grows (d : ℕ) (b b' : Bfs) : Prop where
  queue : ∃ new, b'.queue = b.queue ++ new ∧ ∀ s ∈ new, s.distance = d + 1
  solutions : b'.solutions = b.solutions
  maxHostLvl : b'.maxHostLvl = b.maxHostLvl

lemma Grows.refl (d : ℕ) (b : Bfs) : Grows d b b :=
  ⟨⟨[], (List.append_nil _).symm, List.forall_mem_nil _⟩, rfl, rfl⟩

lemma Grows.trans {d : ℕ} {b b' b'' : Bfs} (h : Grows d b b') (h' : Grows d b' b'') :
    Grows d b b'' := by
  obtain ⟨new, hqueue, hnew⟩ := h.queue
  obtain ⟨new', hqueue', hnew'⟩ := h'.queue
  refine ⟨⟨new ++ new', ?_, ?_⟩, h'.solutions.trans h.solutions,
    h'.maxHostLvl.trans h.maxHostLvl⟩
  · rw [hqueue', hqueue, List.append_assoc]
  · intro s hs
    rcases List.mem_append.mp hs with hs | hs
    · exact hnew s hs
    · exact hnew' s hs

lemma grows_exploreAdjacent (view : QspnView) (router : SearchRouter) (current : SolutionStep)
    (l : ℕ) (b : Bfs) (adj : PairTupleGNodeInt) :
    Grows current.distance b (exploreAdjacent view router current l b adj).1 := by
  unfold exploreAdjacent
  split_ifs
  · exact ⟨⟨[], (List.append_nil _).symm, List.forall_mem_nil _⟩, rfl, rfl⟩
  · exact Grows.refl _ b

lemma grows_expandAdjacent (step : SearchStepResult) (b : Bfs) (adj : PairTupleGNodeInt) :
    Grows current.distance b (expandAdjacent view router current step b adj) := by
  unfold expandAdjacent
  have hexplore := grows_exploreAdjacent view router current step.minHostLvl b adj
  rcases hex : exploreAdjacent view router current step.minHostLvl b adj with ⟨b', n?⟩
  rw [hex] at hexplore
  cases n? with
  | none => exact hexplore
  | some n =>
      simp only
      split_ifs
      · exact hexplore
      · exact hexplore
      · exact hexplore
      · exact hexplore
      · refine hexplore.trans ⟨⟨_, rfl, fun s hs => ?_⟩, rfl, rfl⟩
        rw [List.mem_singleton.mp hs]
        rfl

lemma grows_expand (step : SearchStepResult) (adjs : List PairTupleGNodeInt) (b : Bfs) :
    Grows current.distance b (adjs.foldl (expandAdjacent view router current step) b) := by
  induction adjs generalizing b with
  | nil => exact Grows.refl _ b
  | cons adj adjs ih => exact (grows_expandAdjacent step b adj).trans (ih _)

/-- What the visit of a step at distance `d` comes to: perhaps a solution is found, and new steps wait.  A
solution that ends the search is good enough; one that does not is better than those before it. -/
def Progress.Follows (okHostLvl d : ℕ) (b : Bfs) : Progress → Prop
  | .done solutions => solutions = b.solutions ∨ ∃ sol, solutions = b.solutions ++ [sol] ∧
      sol.distance = d ∧ sol.finalHostLvl ≤ okHostLvl
  | .more b' => ∃ mid, Grows d mid b' ∧ mid.queue = b.queue ∧
      (mid.solutions = b.solutions ∧ mid.maxHostLvl = b.maxHostLvl ∨
        ∃ sol, mid.solutions = b.solutions ++ [sol] ∧ sol.distance = d ∧
          okHostLvl < sol.finalHostLvl ∧ sol.finalHostLvl ≤ b.maxHostLvl ∧
          mid.maxHostLvl = sol.finalHostLvl - 1)

/-- The number of calls does not matter. -/
lemma Progress.Follows.congr {d : ℕ} {b b' : Bfs} {p : Progress} (h : p.Follows okHostLvl d b)
    (hqueue : b.queue = b'.queue) (hsols : b.solutions = b'.solutions)
    (hmax : b.maxHostLvl = b'.maxHostLvl) : p.Follows okHostLvl d b' := by
  cases p with
  | done solutions =>
      rw [Progress.Follows, ← hsols]
      exact h
  | more b'' =>
      rw [Progress.Follows, ← hqueue, ← hsols, ← hmax]
      exact h

lemma resolved_eq_some {step : SearchStepResult} {sol : MigrationSolution}
    (h : resolved current step = some sol) :
    sol.distance = current.distance ∧ sol.finalHostLvl = step.finalHostLvl := by
  unfold resolved at h
  split at h
  · cases h
    exact ⟨rfl, rfl⟩
  · cases h

/-- **One answer.** -/
lemma onAnswer_follows (view : QspnView) (router : SearchRouter) (okHostLvl : ℕ)
    (current : SolutionStep) (b : Bfs) {step : SearchStepResult} (hmin : step.minHostLvl ≤ b.maxHostLvl) :
    (onAnswer view router okHostLvl b current step).Follows okHostLvl current.distance b := by
  have hexpand : ∀ mid, Grows current.distance mid
      (step.setAdjacent.foldl (expandAdjacent view router current step) mid) :=
    grows_expand step step.setAdjacent
  have hrecord : ∀ {sol}, resolved current step = some sol → okHostLvl < step.finalHostLvl →
      step.finalHostLvl ≤ b.maxHostLvl → ∃ sol', (b.record sol).solutions = b.solutions ++ [sol'] ∧
        sol'.distance = current.distance ∧ okHostLvl < sol'.finalHostLvl ∧
        sol'.finalHostLvl ≤ b.maxHostLvl ∧
        (b.record sol).maxHostLvl = sol'.finalHostLvl - 1 := by
    intro sol hsol hok hmax
    obtain ⟨hd, hfinal⟩ := resolved_eq_some hsol
    exact ⟨sol, rfl, hd, hfinal ▸ hok, hfinal ▸ hmax, rfl⟩
  unfold onAnswer
  simp only
  split_ifs with hok heq hmax
  · cases hsol : resolved current step with
    | none => exact ⟨b, hexpand b, rfl, .inl ⟨rfl, rfl⟩⟩
    | some sol =>
        obtain ⟨hd, hfinal⟩ := resolved_eq_some hsol
        exact .inr ⟨sol, rfl, hd, hfinal ▸ hok⟩
  · cases hsol : resolved current step with
    | none => exact ⟨b, Grows.refl _ b, rfl, .inl ⟨rfl, rfl⟩⟩
    | some sol =>
        exact ⟨b.record sol, Grows.refl _ _, rfl, .inr (hrecord hsol (not_le.mp hok) (heq ▸ hmin))⟩
  · cases hsol : resolved current step with
    | none => exact ⟨b, hexpand b, rfl, .inl ⟨rfl, rfl⟩⟩
    | some sol =>
        exact ⟨b.record sol, hexpand _, rfl, .inr (hrecord hsol (not_le.mp hok) hmax)⟩
  · exact ⟨b, hexpand b, rfl, .inl ⟨rfl, rfl⟩⟩

/-- **One iteration.** -/
theorem bfsStep_follows (F : Type) [Float64 F] (view : QspnView) (router : SearchRouter)
    (id : Int32) (okHostLvl : ℕ) {b : Bfs} {queue : List SolutionStep}
    (h : b.queue = current :: queue) :
    (bfsStep F view router id okHostLvl b).Follows okHostLvl current.distance
        { b with queue } := by
  have hskip : ∀ visited : List TupleGNode, (Progress.more
      { b with queue, calls := b.calls + 1, visited }).Follows okHostLvl current.distance
        { b with queue } :=
    fun _ => ⟨_, Grows.refl _ _, rfl, .inl ⟨rfl, rfl⟩⟩
  unfold bfsStep
  simp only [h]
  split_ifs with hfar
  · exact .inl rfl
  · cases router.sendSearchRequest b.calls (getPathHops current) b.maxHostLvl id with
    | none => exact hskip _
    | some step =>
        simp only
        split_ifs with hbad
        · exact hskip _
        · unfold badAnswer at hbad
          rw [decide_eq_true_eq, not_or, not_or, not_lt, not_lt] at hbad
          cases current.data.visitingGnode.truncateToLevel step.minHostLvl view.levels with
          | none => exact hskip _
          | some g =>
              have hanswer := onAnswer_follows view router okHostLvl
                { current with data := { current.data with visitingGnode := g } }
                { b with queue, calls := b.calls + 1 } hbad.2.1
              exact hanswer.congr rfl rfl rfl

end Iteration

/-! ## Chains are short -/

section Depth

variable {view : QspnView} {made : ℕ → SolutionStep → ℕ → SearchStepResult → Prop}
  {root : SolutionStep}

lemma ChainOk.length_le_root {chain : List StepData} (h : ChainOk view made root chain) :
    ∀ q ∈ chain, q.visitingGnode.pos.length ≤ root.data.visitingGnode.pos.length := by
  induction h with
  | @root s hmig hconn hpos =>
      intro q hq
      obtain ⟨k, hk⟩ := hpos
      rw [List.mem_singleton.mp hq, hk, List.length_drop]
      omega
  | @hop s p ps step border h hlink ih =>
      intro q hq
      rcases List.mem_cons.mp hq with rfl | hq
      · exact ((ChainOk.hop h hlink).length_le p List.mem_cons_self).trans
          (ih p List.mem_cons_self)
      · exact ih q hq

/-- How many names of g-nodes there are. -/
noncomputable def nameBound (levels : ℕ) : ℕ :=
  (List.finite_length_le UInt32 levels).toFinset.card

/-- **Chains are short**: their names are pairwise different. -/
lemma ChainOk.length_le_bound {chain : List StepData} (h : ChainOk view made root chain)
    (hroot : root.data.visitingGnode.pos.length ≤ view.levels) :
    chain.length ≤ nameBound view.levels := by
  calc chain.length = (chain.map fun s => s.visitingGnode.pos).toFinset.card := by
        rw [List.toFinset_card_of_nodup h.nodup, List.length_map]
    _ ≤ nameBound view.levels := by
        refine Finset.card_le_card fun l hl => ?_
        rw [List.mem_toFinset] at hl
        obtain ⟨q, hq, rfl⟩ := List.mem_map.mp hl
        rw [Set.Finite.mem_toFinset]
        exact (h.length_le_root q hq).trans hroot

end Depth

lemma length_rootStep (view : QspnView) (first : ℕ) :
    (rootStep view first).data.visitingGnode.pos.length ≤ view.levels := by
  rw [rootStep, makeTupleFromLevel, List.length_map, List.length_range']
  omega

/-! ## The search ends -/

section Ends

variable {F : Type} [Float64 F] {view : QspnView} {router : SearchRouter} {id : Int32}
  {firstHostLvl okHostLvl : ℕ}

/-- How far the waiting steps are from the longest chain there can be. -/
noncomputable def ranks (view : QspnView) (b : Bfs) : Multiset ℕ :=
  Multiset.ofList (b.queue.map fun s => nameBound view.levels - s.distance)

/-- A visit replaces one step by finitely many of lower rank. -/
lemma ranks_lt {b b' : Bfs} {current : SolutionStep} {queue new : List SolutionStep}
    (hqueue : b.queue = current :: queue) (hqueue' : b'.queue = queue ++ new)
    (hnew : ∀ s ∈ new, s.distance = current.distance + 1)
    (hbound : ∀ s ∈ b'.queue, s.distance < nameBound view.levels) :
    Relation.CutExpand (· < ·) (ranks view b') (ranks view b) := by
  refine ⟨Multiset.ofList (new.map fun s => nameBound view.levels - s.distance),
    nameBound view.levels - current.distance, ?_, ?_⟩
  · intro r hr
    obtain ⟨s, hs, rfl⟩ := List.mem_map.mp (Multiset.mem_coe.mp hr)
    have hmem : s ∈ b'.queue := hqueue' ▸ List.mem_append_right _ hs
    have := hbound s hmem
    have := hnew s hs
    omega
  · rw [ranks, ranks, hqueue, hqueue', List.map_append, List.map_cons, ← Multiset.coe_add,
      ← Multiset.cons_coe, ← Multiset.singleton_add]
    abel

/-- What an iteration that does not end the search does. -/
lemma follows_more {b b' : Bfs} (h : bfsStep F view router id okHostLvl b = .more b') :
    ∃ current queue, b.queue = current :: queue ∧
      (Progress.more b').Follows okHostLvl current.distance { b with queue } := by
  cases hqueue : b.queue with
  | nil =>
      unfold bfsStep at h
      simp only [hqueue] at h
      cases h
  | cons current queue => exact ⟨current, queue, rfl, h ▸ bfsStep_follows F view router id okHostLvl hqueue⟩

/-- A step that waits is nearer than the longest chain there can be. -/
lemma Reached.distance_lt {b : Bfs} (hb : Reached F view router id firstHostLvl okHostLvl b) :
    ∀ s ∈ b.queue, s.distance < nameBound view.levels := by
  intro s hs
  have hchain : ChainOk view (Made F view router id firstHostLvl okHostLvl)
      (rootStep view firstHostLvl) s.chain := by
    rcases hb.inv with rfl | hstarted
    · rw [List.mem_singleton.mp hs]
      exact .root rfl rfl ⟨0, rfl⟩
    · exact (hstarted.queue s hs).1
  exact hchain.length_le_bound (length_rootStep view firstHostLvl)

/-- **The search ends**, from every state it reaches. -/
theorem exists_bfs (F : Type) [Float64 F] (view : QspnView) (router : SearchRouter) (id : Int32)
    (firstHostLvl okHostLvl : ℕ) : ∀ b, Reached F view router id firstHostLvl okHostLvl b →
    ∃ fuel solutions, bfs F view router id okHostLvl fuel b = some solutions := by
  intro b
  -- the ranks of the waiting steps go down in the order of multisets
  induction b using (InvImage.wf (ranks view) Nat.lt_wfRel.wf.cutExpand).induction with
  | h b ih =>
      intro hb
      cases hprogress : bfsStep F view router id okHostLvl b with
      | done solutions => exact ⟨1, solutions, by rw [bfs, hprogress]⟩
      | more b' =>
          have hb' : Reached F view router id firstHostLvl okHostLvl b' := hb.tail hprogress
          obtain ⟨current, queue, hqueue, mid, hgrows, hmid, -⟩ := follows_more hprogress
          obtain ⟨new, hqueue', hnew⟩ := hgrows.queue
          rw [hmid] at hqueue'
          obtain ⟨fuel, solutions, hrest⟩ :=
            ih b' (ranks_lt hqueue hqueue' hnew hb'.distance_lt) hb'
          exact ⟨fuel + 1, solutions, by rw [bfs, hprogress]; exact hrest⟩

/-! ## The order of the solutions -/

/-- A later solution is better, and no nearer. -/
def Improves (a b : MigrationSolution) : Prop :=
  b.finalHostLvl < a.finalHostLvl ∧ a.distance ≤ b.distance

/-- The invariant of the order: steps wait in the order of their distance, at most two distances
at a time, and the solutions so far are no farther, and too high to be found again. -/
structure Ordered (okHostLvl : ℕ) (b : Bfs) : Prop where
  queue : b.queue.Pairwise fun s s' => s.distance ≤ s'.distance ∧ s'.distance ≤ s.distance + 1
  solutions : b.solutions.Pairwise Improves
  nearer : ∀ sol ∈ b.solutions, ∀ s ∈ b.queue, sol.distance ≤ s.distance
  higher : ∀ sol ∈ b.solutions, okHostLvl < sol.finalHostLvl ∧ b.maxHostLvl < sol.finalHostLvl

lemma pairwise_concat {solutions : List MigrationSolution} (h : solutions.Pairwise Improves)
    {sol : MigrationSolution} (hsol : ∀ s ∈ solutions, Improves s sol) :
    (solutions ++ [sol]).Pairwise Improves := by
  rw [List.pairwise_append]
  refine ⟨h, List.pairwise_singleton _ _, fun s hs s' hs' => ?_⟩
  rw [List.mem_singleton.mp hs']
  exact hsol s hs

/-- **One iteration keeps the order.** -/
lemma Ordered.step {b b' : Bfs} (h : Ordered okHostLvl b)
    (hstep : bfsStep F view router id okHostLvl b = .more b') : Ordered okHostLvl b' := by
  obtain ⟨current, queue, hqueue, mid, hgrows, hmid, hsols⟩ := follows_more hstep
  obtain ⟨new, hqueue', hnew⟩ := hgrows.queue
  rw [hmid] at hqueue'
  have hsorted := h.queue
  rw [hqueue, List.pairwise_cons] at hsorted
  obtain ⟨hcurrent, hsorted⟩ := hsorted
  -- everything that waits now is at the distance of `current` or one hop farther
  have hrange : ∀ s ∈ b'.queue, current.distance ≤ s.distance := by
    intro s hs
    rw [hqueue'] at hs
    rcases List.mem_append.mp hs with hs | hs
    · exact (hcurrent s hs).1
    · have := hnew s hs
      omega
  have hqueueOk : b'.queue.Pairwise
      fun s s' => s.distance ≤ s'.distance ∧ s'.distance ≤ s.distance + 1 := by
    rw [hqueue', List.pairwise_append]
    refine ⟨hsorted, List.pairwise_of_forall_mem_list fun s hs s' hs' => ?_, fun s hs s' hs' => ?_⟩
    · have := hnew s hs
      have := hnew s' hs'
      omega
    · have := hcurrent s hs
      have := hnew s' hs'
      omega
  have hold : ∀ sol ∈ b.solutions, sol.distance ≤ current.distance := fun sol hsol =>
    h.nearer sol hsol current (hqueue ▸ List.mem_cons_self)
  rcases hsols with ⟨hsols, hmax⟩ | ⟨sol, hsols, hd, hok, hbest, hmax⟩
  · rw [← hgrows.solutions] at hsols
    rw [← hgrows.maxHostLvl] at hmax
    refine ⟨hqueueOk, hsols ▸ h.solutions, ?_, ?_⟩
    · rw [hsols]
      exact fun sol hsol s hs => (hold sol hsol).trans (hrange s hs)
    · rw [hsols, hmax]
      exact h.higher
  · rw [← hgrows.solutions] at hsols
    rw [← hgrows.maxHostLvl] at hmax
    have himproves : ∀ s ∈ b.solutions, Improves s sol := fun s hs =>
      ⟨lt_of_le_of_lt hbest (h.higher s hs).2, hd ▸ hold s hs⟩
    refine ⟨hqueueOk, hsols ▸ pairwise_concat h.solutions himproves, ?_, ?_⟩
    · intro s hs t ht
      rw [hsols] at hs
      rcases List.mem_append.mp hs with hs | hs
      · exact (hold s hs).trans (hrange t ht)
      · rw [List.mem_singleton.mp hs, hd]
        exact hrange t ht
    · intro s hs
      rw [hsols] at hs
      rcases List.mem_append.mp hs with hs | hs
      · have hlt := (himproves s hs).1
        exact ⟨(h.higher s hs).1, by omega⟩
      · rw [List.mem_singleton.mp hs]
        exact ⟨hok, by omega⟩

/-- The solutions an ordered search ends with are ordered. -/
lemma Ordered.done {b : Bfs} (h : Ordered okHostLvl b) {solutions : List MigrationSolution}
    (hdone : bfsStep F view router id okHostLvl b = .done solutions) :
    solutions.Pairwise Improves := by
  cases hqueue : b.queue with
  | nil =>
      unfold bfsStep at hdone
      simp only [hqueue] at hdone
      cases hdone
      exact h.solutions
  | cons current queue =>
      have hfollows := bfsStep_follows F view router id okHostLvl hqueue
      rw [hdone] at hfollows
      rcases hfollows with rfl | ⟨sol, rfl, hd, hgood⟩
      · exact h.solutions
      · refine pairwise_concat h.solutions fun s hs => ⟨?_, ?_⟩
        · exact lt_of_le_of_lt hgood (h.higher s hs).1
        · rw [hd]
          exact h.nearer s hs current (hqueue ▸ List.mem_cons_self)

theorem bfs_pairwise {fuel : ℕ} : ∀ {b : Bfs}, Ordered okHostLvl b → ∀ {solutions},
    bfs F view router id okHostLvl fuel b = some solutions → solutions.Pairwise Improves := by
  induction fuel with
  | zero =>
      intro b _ solutions h
      cases h
  | succ fuel ih =>
      intro b hb solutions h
      unfold bfs at h
      cases hprogress : bfsStep F view router id okHostLvl b with
      | done found =>
          rw [hprogress] at h
          cases h
          exact hb.done hprogress
      | more b' =>
          rw [hprogress] at h
          exact ih (hb.step hprogress) h

lemma ordered_initial (view : QspnView) (first okHostLvl : ℕ) :
    Ordered okHostLvl (initialBfs view first) :=
  ⟨List.pairwise_singleton _ _, List.Pairwise.nil, List.forall_mem_nil _, List.forall_mem_nil _⟩

end Ends

/-! ## Nothing panics -/

section Panics

variable {view : QspnView} {made : ℕ → SolutionStep → ℕ → SearchStepResult → Prop}
  {root : SolutionStep} {sol : MigrationSolution}

lemma exists_resolveEntryData (hsol : SolutionOk view made root sol) :
    ∃ entry, sol.resolveEntryData view = .ok entry := by
  rcases Nat.eq_zero_or_pos sol.distance with hd | hd
  · have hparents : sol.leaf.parents = [] := List.length_eq_zero_iff.mp hd
    unfold MigrationSolution.resolveEntryData
    rw [SolutionStep.chain, hparents]
    exact ⟨_, rfl⟩
  · obtain ⟨entry, _, _, _, _, hentry, -⟩ := resolveEntryData_eq hsol.chain hd
    exact ⟨entry, hentry⟩

/-- The g-node of the leaf reaches up to the level of the solution. -/
lemma exists_cleanupTarget (hsol : SolutionOk view made root sol) :
    ∃ target, sol.cleanupTarget view.levels = some target := by
  obtain ⟨step, hasked, hfinal, -, -⟩ := hsol.answer
  obtain ⟨hlen, hwf⟩ := hasked.wellFormed
  have hle := hasked.min_le_final
  have hlevels := hasked.final_le
  rw [hfinal] at hle hlevels
  exact ⟨_, TupleGNode.truncateToLevel_of_le hlevels (by omega) hwf⟩

end Panics

/-- **The search ends and nothing panics**, whatever the peers answer.  The solutions get better
and no nearer; each has an entry and a target for its release, and those that take migrations can
be executed. -/
theorem search_total (F : Type) [Float64 F] (view : QspnView) (router : SearchRouter) (id : Int32)
    (firstHostLvl okHostLvl : ℕ) (ids : ℕ → Int32) :
    ∃ fuel solutions,
      findShortestMig F fuel view router id firstHostLvl okHostLvl = some solutions ∧
      solutions.Pairwise Improves ∧
      ∀ sol ∈ solutions, (∃ target, sol.cleanupTarget view.levels = some target) ∧
        (∃ entry, sol.resolveEntryData view = .ok entry) ∧
        (0 < sol.distance → ∃ sent, executeShortestMig view router ids sol = .ok sent) := by
  obtain ⟨fuel, solutions, hrun⟩ := exists_bfs F view router id
    (max firstHostLvl (view.subnetlevel + 1))
    (max okHostLvl (max firstHostLvl (view.subnetlevel + 1)))
    (initialBfs view (max firstHostLvl (view.subnetlevel + 1))) Relation.ReflTransGen.refl
  refine ⟨fuel, solutions, hrun, bfs_pairwise (ordered_initial _ _ _) hrun, fun sol hsol => ?_⟩
  have hok := findShortestMig_ok hrun rfl rfl sol hsol
  refine ⟨exists_cleanupTarget hok, exists_resolveEntryData hok, fun hd => ?_⟩
  obtain ⟨host, -, hexec⟩ := executeShortestMig_eq hok hd router ids
  exact ⟨_, hexec⟩

/-- The first of the two solutions takes no migration; `get_migs` refuses it. -/
theorem executeShortestMig_direct :
    findShortestMig ℚ 3 (hostView 2 0 1 (by decide)) (hostsRouter 2 (by decide)) 0 1 1 =
        some [hostsDirect, hostsSolution 2] ∧
      executeShortestMig (hostView 2 0 1 (by decide)) (hostsRouter 2 (by decide)) (fun _ => 7)
        hostsDirect = .error (.panic "get_migs called on a distance-0 solution") :=
  ⟨findShortestMig_hosts, rfl⟩

end Netsukuku.Hooking
