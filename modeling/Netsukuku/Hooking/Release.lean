import Mathlib
import Netsukuku.Hooking.Termination

/-!
# What becomes of the reservations

Every g-node that the search visits makes reservations while it answers, at its own coordinators
and at those of the larger g-nodes around it.  The virtual ones run out; a real one keeps a place
from others.  In the end at most one is used, and the others are to be deleted where they were made.

* `grants` — the reservations that one answer leaves behind; `grants_real` — at most the last of
  them is real, and the answer says so.
* `searchMigrationPathRun` — the call of a guest, with the deletions it asks for;
  `searchMigrationPath_eq_run` — it is that of the search.
* `Reached.recorded` — a real reservation is one of the solutions.
* `reservations_released` — it is the chosen one, or deleted.
-/

namespace Netsukuku.Hooking

/-! ## The reservations of an answer -/

/-- The reservations `climbToReal` makes. -/
def climbGrants (view : QspnView) (reserve : ℕ → Option Reservation) :
    ℕ → ℕ → List (ℕ × Reservation)
  | _, 0 => []
  | lvl, n + 1 =>
      match reserve lvl with
      | none => []
      | some r =>
          if r.pos.toNat < hostSize view lvl then [(lvl, r)]
          else (lvl, r) :: climbGrants view reserve (lvl + 1) n

/-- The reservations `executeSearch` makes, each with the level of the coordinator that made it,
whether or not an answer comes of it. -/
def grants (view : QspnView) (reserve : ℕ → Option Reservation) (visitingGnode : TupleGNode)
    (maxHostLvl : ℕ) : List (ℕ × Reservation) :=
  if !iAmInside visitingGnode view then []
  else if tupleHasVirtualPos (makeTupleFromLevel 0 view) view then []
  else
    let maxHostLvl := min maxHostLvl view.levels
    let level := visitingGnode.level view.levels
    match firstReservation reserve level (maxHostLvl + 1 - level) with
    | none => []
    | some (minHostLvl, r) =>
        if r.pos.toNat < hostSize view minHostLvl then [(minHostLvl, r)]
        else (minHostLvl, r) ::
          climbGrants view reserve (minHostLvl + 1) (maxHostLvl + 1 - (minHostLvl + 1))

section Grants

variable {view : QspnView} {reserve : ℕ → Option Reservation}

lemma firstReservation_range {n : ℕ} : ∀ {lvl m : ℕ} {r : Reservation},
    firstReservation reserve lvl n = some (m, r) → lvl ≤ m ∧ m < lvl + n := by
  induction n with
  | zero =>
      intro lvl m r h
      cases h
  | succ n ih =>
      intro lvl m r h
      unfold firstReservation at h
      cases hr : reserve lvl with
      | none =>
          rw [hr] at h
          have := ih h
          omega
      | some r' =>
          rw [hr] at h
          cases h
          omega

/-- A climb that makes a real reservation ends with it. -/
lemma climbGrants_real {n : ℕ} : ∀ {lvl : ℕ} {e : ℕ × Reservation},
    e ∈ climbGrants view reserve lvl n → e.2.pos.toNat < hostSize view e.1 →
      climbToReal view reserve lvl n = some (e.1, some e.2) ∧ lvl ≤ e.1 ∧ e.1 < lvl + n := by
  induction n with
  | zero =>
      intro lvl e h
      cases h
  | succ n ih =>
      intro lvl e h hreal
      unfold climbGrants at h
      unfold climbToReal
      cases hr : reserve lvl with
      | none =>
          rw [hr] at h
          cases h
      | some r =>
          simp only [hr] at h ⊢
          split_ifs at h ⊢ with hpos
          · rw [List.mem_singleton.mp h]
            exact ⟨rfl, le_refl _, by omega⟩
          · rcases List.mem_cons.mp h with rfl | h
            · exact absurd hreal hpos
            · obtain ⟨hclimb, hle, hlt⟩ := ih h hreal
              exact ⟨hclimb, by omega, by omega⟩

/-- **A real reservation is the answer's.** -/
theorem grants_real {g : TupleGNode} {maxHostLvl : ℕ} {e : ℕ × Reservation}
    (he : e ∈ grants view reserve g maxHostLvl) (hreal : e.2.pos.toNat < hostSize view e.1) :
    iAmInside g view = true ∧ ∃ step, executeSearch view reserve g maxHostLvl = some step ∧
      step.finalHostLvl = e.1 ∧ step.realNewPos = some e.2.pos ∧
      step.realNewEldership = some e.2.eldership ∧ g.level view.levels ≤ step.minHostLvl ∧
      step.minHostLvl ≤ step.finalHostLvl ∧ step.finalHostLvl ≤ min maxHostLvl view.levels := by
  unfold grants at he
  unfold executeSearch
  split_ifs at he ⊢ with hinside hvirt
  · cases he
  · cases he
  · refine ⟨by simpa using hinside, ?_⟩
    simp only at he
    cases hfirst : firstReservation reserve (g.level view.levels)
        (min maxHostLvl view.levels + 1 - g.level view.levels) with
    | none =>
        rw [hfirst] at he
        cases he
    | some first =>
        obtain ⟨m, r⟩ := first
        obtain ⟨hle, hlt⟩ := firstReservation_range hfirst
        simp only [hfirst] at he
        simp only [Option.bind_eq_bind, Option.bind_some, hfirst]
        split_ifs at he ⊢ with hpos
        · rw [List.mem_singleton.mp he]
          exact ⟨_, rfl, rfl, rfl, rfl, hle, le_refl _, by simp only; omega⟩
        · rcases List.mem_cons.mp he with rfl | he
          · exact absurd hreal hpos
          · obtain ⟨hclimb, hle', hlt'⟩ := climbGrants_real he hreal
            rw [hclimb]
            exact ⟨_, rfl, rfl, rfl, rfl, hle, by simp only; omega, by simp only; omega⟩

end Grants

/-! ## The hosts -/

/-- A node that is asked, and what its coordinators answer at that time. -/
structure Host where
  view : QspnView
  reserve : ℕ → Option Reservation

/-- Every request that arrives is answered by a node of the same topology; a request that does not
arrive reserves nothing. -/
structure Served (view : QspnView) (router : SearchRouter)
    (hosts : ℕ → List PathHop → Option Host) : Prop where
  topology : ∀ k hops host, hosts k hops = some host → host.view.topology = view.topology
  search : ∀ k hops maxHostLvl id, router.sendSearchRequest k hops maxHostLvl id =
    (hosts k hops).bind fun host => hops.getLast?.bind fun hop =>
      executeSearch host.view host.reserve hop.visitingGnode maxHostLvl
  explore : ∀ k hops lvl g, router.sendExploreRequest k hops lvl = some g →
    ∃ node, executeExplore lvl node = g

/-- A name with as many elderships as positions. -/
def TupleGNode.Even (g : TupleGNode) : Prop := g.eldership.length = g.pos.length

lemma even_makeTupleFromLevel (l : ℕ) (view : QspnView) : (makeTupleFromLevel l view).Even := by
  rw [TupleGNode.Even, makeTupleFromLevel, List.length_map, List.length_map]

lemma even_makeTupleFromHc (hc : HCoord) (view : QspnView) : (makeTupleFromHc hc view).Even := by
  simp only [TupleGNode.Even, makeTupleFromHc, List.length_cons, List.length_map]

section Queue

variable {view : QspnView} {router : SearchRouter} {hosts : ℕ → List PathHop → Option Host}

lemma executeSearch_even {reserve : ℕ → Option Reservation} {g : TupleGNode} {maxHostLvl : ℕ}
    {step : SearchStepResult} (h : executeSearch view reserve g maxHostLvl = some step) :
    ∀ adj ∈ step.setAdjacent, adj.gnode.Even := by
  have hadjacent : ∀ l, ∀ adj ∈ adjacencySet view l, adj.gnode.Even := by
    intro l adj hadj
    obtain ⟨a, -, rfl⟩ := List.mem_map.mp hadj
    exact even_makeTupleFromHc a.hc view
  unfold executeSearch at h
  split_ifs at h
  simp only [Option.bind_eq_bind, Option.bind_eq_some_iff] at h
  obtain ⟨⟨m, r⟩, -, h⟩ := h
  simp only at h
  split_ifs at h
  · cases h
    exact hadjacent m
  · obtain ⟨⟨final, real⟩, -, h⟩ := Option.bind_eq_some_iff.mp h
    cases h
    exact hadjacent m

/-- The step to an adjacent g-node has an even name. -/
lemma expandAdjacent_even (hserved : Served view router hosts) {current : SolutionStep}
    {step : SearchStepResult} {adj : PairTupleGNodeInt} (hadj : adj.gnode.Even) {b : Bfs}
    (hb : ∀ s ∈ b.queue, s.data.visitingGnode.Even) :
    ∀ s ∈ (expandAdjacent view router current step b adj).queue, s.data.visitingGnode.Even := by
  have hexplore : (exploreAdjacent view router current step.minHostLvl b adj).1.queue = b.queue ∧
      ∀ n ∈ (exploreAdjacent view router current step.minHostLvl b adj).2, n.Even := by
    unfold exploreAdjacent
    split_ifs
    · refine ⟨rfl, fun n hn => ?_⟩
      obtain ⟨node, rfl⟩ := hserved.explore _ _ _ _ hn
      exact even_makeTupleFromLevel _ node
    · refine ⟨rfl, fun n hn => ?_⟩
      cases hn
      exact hadj
  unfold expandAdjacent
  rcases hex : exploreAdjacent view router current step.minHostLvl b adj with ⟨b', n?⟩
  rw [hex] at hexplore
  obtain ⟨hqueue, hn⟩ := hexplore
  rw [← hqueue] at hb
  cases n? with
  | none => exact hb
  | some n =>
      simp only
      split_ifs
      · exact hb
      · exact hb
      · exact hb
      · exact hb
      · intro s hs
        rcases List.mem_append.mp hs with hs | hs
        · exact hb s hs
        · rw [List.mem_singleton.mp hs]
          exact hn n rfl

lemma expand_even (hserved : Served view router hosts) {current : SolutionStep}
    {step : SearchStepResult} {adjs : List PairTupleGNodeInt} :
    ∀ {b : Bfs}, (∀ adj ∈ adjs, adj.gnode.Even) → (∀ s ∈ b.queue, s.data.visitingGnode.Even) →
      ∀ s ∈ (adjs.foldl (expandAdjacent view router current step) b).queue,
        s.data.visitingGnode.Even := by
  induction adjs with
  | nil => exact fun _ hb => hb
  | cons adj adjs ih =>
      intro b hadjs hb
      rw [List.forall_mem_cons] at hadjs
      exact ih hadjs.2 (expandAdjacent_even hserved hadjs.1 hb)

/-- One answer leaves only even names in the queue. -/
lemma onAnswer_even (hserved : Served view router hosts) {okHostLvl : ℕ} {current : SolutionStep}
    {step : SearchStepResult} (hadjs : ∀ adj ∈ step.setAdjacent, adj.gnode.Even) {b b' : Bfs}
    (hb : ∀ s ∈ b.queue, s.data.visitingGnode.Even)
    (h : onAnswer view router okHostLvl b current step = .more b') :
    ∀ s ∈ b'.queue, s.data.visitingGnode.Even := by
  have hexpand : ∀ mid : Bfs, mid.queue = b.queue →
      ∀ s ∈ (step.setAdjacent.foldl (expandAdjacent view router current step) mid).queue,
        s.data.visitingGnode.Even :=
    fun mid hmid => expand_even hserved hadjs (hmid ▸ hb)
  unfold onAnswer at h
  simp only at h
  split_ifs at h with hok heq hmax
  · cases hsol : resolved current step with
    | none =>
        rw [hsol] at h
        cases h
        exact hexpand b rfl
    | some sol =>
        rw [hsol] at h
        cases h
  · cases hsol : resolved current step with
    | none =>
        rw [hsol] at h
        cases h
        exact hb
    | some sol =>
        rw [hsol] at h
        cases h
        exact hb
  · cases hsol : resolved current step with
    | none =>
        rw [hsol] at h
        cases h
        exact hexpand b rfl
    | some sol =>
        rw [hsol] at h
        cases h
        exact hexpand (b.record sol) rfl
  · cases h
    exact hexpand b rfl

variable {F : Type} [Float64 F] {id : Int32} {first ok : ℕ}

/-- Whatever answers, the names in the queue stay even. -/
lemma bfsStep_even (hserved : Served view router hosts) {b b' : Bfs}
    (hb : ∀ s ∈ b.queue, s.data.visitingGnode.Even)
    (h : bfsStep F view router id ok b = .more b') : ∀ s ∈ b'.queue, s.data.visitingGnode.Even := by
  cases hqueue : b.queue with
  | nil =>
      unfold bfsStep at h
      simp only [hqueue] at h
      cases h
  | cons current queue =>
      have hrest : ∀ s ∈ queue, s.data.visitingGnode.Even := fun s hs =>
        hb s (hqueue ▸ List.mem_cons_of_mem _ hs)
      unfold bfsStep at h
      simp only [hqueue] at h
      split_ifs at h with hfar
      cases hans : router.sendSearchRequest b.calls (getPathHops current) b.maxHostLvl id with
      | none =>
          rw [hans] at h
          cases h
          exact hrest
      | some step =>
          simp only [hans] at h
          split_ifs at h with hbad
          · cases h
            exact hrest
          · cases htrunc : current.data.visitingGnode.truncateToLevel step.minHostLvl
                view.levels with
            | none =>
                rw [htrunc] at h
                cases h
                exact hrest
            | some g =>
                rw [htrunc] at h
                have hstep := hserved.search b.calls (getPathHops current) b.maxHostLvl id
                rw [hans] at hstep
                obtain ⟨host, -, hop, -, hexec⟩ := by
                  simpa only [Option.bind_eq_some_iff] using hstep.symm
                exact onAnswer_even hserved (executeSearch_even hexec) hrest h

lemma Reached.even (hserved : Served view router hosts) {b : Bfs}
    (hb : Reached F view router id first ok b) : ∀ s ∈ b.queue, s.data.visitingGnode.Even := by
  induction hb with
  | refl =>
      intro s hs
      rw [List.mem_singleton.mp hs]
      exact even_makeTupleFromLevel first view
  | tail _ hstep ih => exact bfsStep_even hserved ih hstep

end Queue

/-! ## Real reservations are solutions -/

/-- The solutions found so far. -/
def Progress.solutions : Progress → List MigrationSolution
  | .done solutions => solutions
  | .more b => b.solutions

section Recorded

variable {F : Type} [Float64 F] {view : QspnView} {router : SearchRouter} {id : Int32}
  {first ok : ℕ} {current : SolutionStep} {step : SearchStepResult}

/-- An answer with a real position of a level still of interest is recorded. -/
lemma mem_onAnswer {b : Bfs} {sol : MigrationSolution} (ok : ℕ)
    (hsol : resolved current step = some sol)
    (hmax : step.finalHostLvl ≤ b.maxHostLvl) :
    sol ∈ (onAnswer view router ok b current step).solutions := by
  have hrecord : sol ∈ (b.record sol).solutions :=
    List.mem_append_right _ (List.mem_singleton.mpr rfl)
  unfold onAnswer
  simp only [hsol]
  split_ifs with hok heq
  · exact List.mem_append_right _ (List.mem_singleton.mpr rfl)
  · exact hrecord
  · rw [Progress.solutions, (grows_expand step step.setAdjacent (b.record sol)).solutions]
    exact hrecord

/-- No solution is lost on the way. -/
lemma subset_bfsStep (b : Bfs) :
    b.solutions ⊆ (bfsStep F view router id ok b).solutions := by
  cases hqueue : b.queue with
  | nil =>
      unfold bfsStep
      simp only [hqueue]
      exact List.Subset.refl _
  | cons current queue =>
      have hfollows := bfsStep_follows F view router id ok hqueue
      cases hstep : bfsStep F view router id ok b with
      | done solutions =>
          rw [hstep] at hfollows
          rcases hfollows with rfl | ⟨sol, rfl, -⟩
          · exact List.Subset.refl _
          · exact List.subset_append_left _ _
      | more b' =>
          rw [hstep] at hfollows
          obtain ⟨mid, hgrows, -, ⟨hsols, -⟩ | ⟨sol, hsols, -⟩⟩ := hfollows
          · rw [Progress.solutions, hgrows.solutions, hsols]
            exact List.Subset.refl _
          · rw [Progress.solutions, hgrows.solutions, hsols]
            exact List.subset_append_left _ _

lemma bfsStep_subset_bfs {fuel : ℕ} : ∀ {b : Bfs} {solutions : List MigrationSolution},
    bfs F view router id ok fuel b = some solutions →
      (bfsStep F view router id ok b).solutions ⊆ solutions := by
  induction fuel with
  | zero =>
      intro b solutions h
      cases h
  | succ fuel ih =>
      intro b solutions h
      unfold bfs at h
      cases hstep : bfsStep F view router id ok b with
      | done found =>
          rw [hstep] at h
          cases h
          exact List.Subset.refl _
      | more b' =>
          rw [hstep] at h
          exact List.Subset.trans (subset_bfsStep b') (ih h)

/-- The search is one run: from every state it reaches it comes to the same solutions. -/
lemma Reached.bfs {fuel : ℕ} {solutions : List MigrationSolution}
    (h : Hooking.bfs F view router id ok fuel (initialBfs view first) = some solutions) {b : Bfs}
    (hb : Reached F view router id first ok b) :
    ∃ fuel', Hooking.bfs F view router id ok fuel' b = some solutions := by
  induction hb with
  | refl => exact ⟨fuel, h⟩
  | tail _ hstep ih =>
      obtain ⟨fuel', hrun⟩ := ih
      cases fuel' with
      | zero => cases hrun
      | succ fuel' =>
          unfold Hooking.bfs at hrun
          rw [hstep] at hrun
          exact ⟨fuel', hrun⟩

end Recorded

/-- The upper part of a name that is an upper part. -/
lemma drop_name {name full : List UInt32} {n k : ℕ} (h : name = full.drop (n - name.length))
    (hlen : name.length ≤ n) (hk : n - k ≤ name.length) (hkn : k ≤ n) :
    name.drop (name.length - (n - k)) = full.drop k := by
  calc name.drop (name.length - (n - k))
      = (full.drop (n - name.length)).drop (name.length - (n - k)) := by rw [← h]
    _ = full.drop k := by
        rw [List.drop_drop]
        congr 1
        omega

/-- A solution holds the reservation that the coordinator of level `e.1` around the node made. -/
structure Holds (levels : ℕ) (node : QspnView) (e : ℕ × Reservation) (sol : MigrationSolution) :
    Prop where
  level : sol.finalHostLvl = e.1
  pos : sol.realNewPos = e.2.pos
  eldership : sol.realNewEldership = e.2.eldership
  host : ∃ target, sol.cleanupTarget levels = some target ∧
    target.pos = (makeTupleFromLevel e.1 node).pos

/-- The search sends a request, and a host answers it. -/
structure Answered (F : Type) [Float64 F] (view : QspnView) (router : SearchRouter) (id : Int32)
    (first ok : ℕ) (hosts : ℕ → List PathHop → Option Host) (b : Bfs) (current : SolutionStep)
    (host : Host) : Prop where
  reached : Reached F view router id first ok b
  head : b.queue.head? = some current
  near : ¬tooFar F b.prevSolDistance current.distance
  host : hosts b.calls (getPathHops current) = some host

lemma getLast?_getPathHops (s : SolutionStep) :
    (getPathHops s).getLast? = some ⟨s.data.visitingGnode, s.data.previousMigratingGnode⟩ := by
  simp [getPathHops, SolutionStep.chain]

section Solutions

variable {F : Type} [Float64 F] {view : QspnView} {router : SearchRouter} {id : Int32}
  {first ok : ℕ} {hosts : ℕ → List PathHop → Option Host}

/-- **A real reservation is the reservation of a solution.** -/
theorem Answered.recorded (hserved : Served view router hosts) {fuel : ℕ}
    {solutions : List MigrationSolution}
    (hrun : bfs F view router id ok fuel (initialBfs view first) = some solutions) {b : Bfs}
    {current : SolutionStep} {host : Host}
    (h : Answered F view router id first ok hosts b current host) {e : ℕ × Reservation}
    (he : e ∈ grants host.view host.reserve current.data.visitingGnode b.maxHostLvl)
    (hreal : e.2.pos.toNat < hostSize host.view e.1) :
    ∃ sol ∈ solutions, Holds view.levels host.view e sol := by
  have hlevels : host.view.levels = view.levels := by
    rw [QspnView.levels, QspnView.levels, hserved.topology _ _ _ h.host]
  obtain ⟨hinside, step, hexec, hfinal, hpos, held, hlvl, hle, hmax⟩ := grants_real he hreal
  rw [hlevels] at hlvl hmax
  obtain ⟨queue, hqueue⟩ : ∃ queue, b.queue = current :: queue := List.head?_eq_some_iff.mp h.head
  have heven : current.data.visitingGnode.Even :=
    h.reached.even hserved current (hqueue ▸ List.mem_cons_self)
  obtain ⟨hlen, hname⟩ := iAmInside_iff.mp hinside
  rw [hlevels] at hlen hname
  have hans : router.sendSearchRequest b.calls (getPathHops current) b.maxHostLvl id =
      some step := by
    rw [hserved.search, h.host, getLast?_getPathHops]
    exact hexec
  rw [TupleGNode.level] at hlvl
  -- the g-node that is asked reaches down to the level of the answer
  obtain ⟨g, htrunc⟩ : ∃ g, current.data.visitingGnode.truncateToLevel step.minHostLvl
      view.levels = some g :=
    ⟨_, TupleGNode.truncateToLevel_of_le (by omega) (by omega) heven⟩
  obtain ⟨-, hreach, -, hgpos, hglen, hgeven⟩ := TupleGNode.truncateToLevel_eq_some htrunc
  rw [drop_name hname hlen hreach (by omega)] at hgpos
  let leaf : SolutionStep := { current with data := { current.data with visitingGnode := g } }
  let sol : MigrationSolution := ⟨leaf, step.finalHostLvl, e.2.pos, e.2.eldership⟩
  have hsol : resolved leaf step = some sol := by
    rw [resolved, hpos, held]
  obtain ⟨fuel', hrun'⟩ := h.reached.bfs hrun
  refine ⟨sol, bfsStep_subset_bfs hrun' ?_, hfinal, rfl, rfl, ?_⟩
  · have hgood : ¬badAnswer view b.maxHostLvl step := by
      unfold badAnswer
      rw [decide_eq_true_eq]
      omega
    unfold bfsStep
    simp only [hqueue, hans, htrunc, if_neg h.near, if_neg hgood]
    exact mem_onAnswer ok hsol (by simp only; omega)
  · obtain ⟨target, htarget⟩ : ∃ target, g.truncateToLevel step.finalHostLvl view.levels =
        some target :=
      ⟨_, TupleGNode.truncateToLevel_of_le (by omega) (by omega) (hgeven.trans hglen.symm)⟩
    obtain ⟨-, hreach', -, htpos, -, -⟩ := TupleGNode.truncateToLevel_eq_some htarget
    refine ⟨target, htarget, ?_⟩
    rw [makeTupleFromLevel_eq_drop, htpos, ← hfinal]
    refine drop_name ?_ (by omega) hreach' (by omega)
    rw [hglen, Nat.sub_sub_self (by omega)]
    exact hgpos

end Solutions

/-! ## The call of a guest, with its deletions -/

/-- What a call leaves behind: the g-nodes asked to delete the reservation, and the result. -/
structure MigrationRun where
  deletes : List TupleGNode
  result : Outcome HookingServerError EntryData

/-- `search_migration_path` with its deletions: those of the rejected solutions, and that of the
chosen one if its migrations fail. -/
def searchMigrationPathRun (F : Type) [Float64 F] (fuel : ℕ) (view : QspnView)
    (router : SearchRouter) (reserveRequestId : Int32) (ids : ℕ → Int32) (lvl : ℕ) :
    MigrationRun :=
  if !view.isBootstrapped then ⟨[], Outcome.fail .notBootstrapped⟩
  else if view.levels ≤ lvl then ⟨[], Outcome.fail .levelOutOfRange⟩
  else
    match findShortestMig F fuel view router reserveRequestId (lvl + 1)
      (lvl + view.epsilon lvl) with
    | none => ⟨[], Outcome.fail .migrationPathExecuteFailure⟩
    | some solutions =>
        match solutions.getLast? with
        | none => ⟨[], Outcome.fail .noMigrationPathFound⟩
        | some sol =>
            let released := solutions.dropLast.filterMap fun s => s.cleanupTarget view.levels
            let sent : Outcome HookingServerError Sent :=
              if sol.distance = 0 then .ok ⟨[], true⟩
              else Outcome.unwrap "infallible" (executeShortestMig view router ids sol)
            match sent with
            | .error e => ⟨released, .error e⟩
            | .ok sent =>
                if !sent.ok then
                  ⟨released ++ (sol.cleanupTarget view.levels).toList,
                    Outcome.fail .migrationPathExecuteFailure⟩
                else ⟨released, Outcome.unwrap "infallible" (sol.resolveEntryData view)⟩

/-- It is the call of a guest: where that returns, what it deletes and the entry, and else the
error. -/
theorem searchMigrationPath_eq_run (F : Type) [Float64 F] (fuel : ℕ) (view : QspnView)
    (router : SearchRouter) (id : Int32) (ids : ℕ → Int32) (lvl : ℕ) :
    (searchMigrationPath F fuel view router id ids lvl).map (fun out => (out.1, out.2.2)) =
      (searchMigrationPathRun F fuel view router id ids lvl).result.map fun entry =>
        ((searchMigrationPathRun F fuel view router id ids lvl).deletes, entry) := by
  unfold searchMigrationPath searchMigrationPathRun
  split_ifs
  · rfl
  · rfl
  cases findShortestMig F fuel view router id (lvl + 1) (lvl + view.epsilon lvl) with
  | none => rfl
  | some solutions =>
      simp only
      cases solutions.getLast? with
      | none => rfl
      | some sol =>
          simp only
          by_cases hd : sol.distance = 0
          · rw [if_pos hd, if_pos hd, Outcome.ok_bind]
            cases sol.resolveEntryData view with
            | error e => cases e with
              | panic site => rfl
              | err e => rfl
            | ok entry => rfl
          · rw [if_neg hd, if_neg hd]
            cases executeShortestMig view router ids sol with
            | error e => cases e with
              | panic site => rfl
              | err e => rfl
            | ok sent =>
                rw [Outcome.unwrap_ok, Outcome.ok_bind]
                simp only
                by_cases hsent : (!sent.ok) = true
                · rw [if_pos hsent, if_pos hsent]
                  rfl
                · rw [if_neg hsent, if_neg hsent]
                  cases sol.resolveEntryData view with
                  | error e => cases e with
                    | panic site => rfl
                    | err e => rfl
                  | ok entry => rfl

/-- What a call that finds solutions comes to. -/
lemma searchMigrationPathRun_cases {F : Type} [Float64 F] {fuel : ℕ} {view : QspnView}
    {router : SearchRouter} {id : Int32} {lvl : ℕ} (ids : ℕ → Int32)
    (hboot : view.isBootstrapped = true) (hlvl : lvl < view.levels)
    {solutions : List MigrationSolution} {sol : MigrationSolution}
    (hfind : findShortestMig F fuel view router id (lvl + 1) (lvl + view.epsilon lvl) =
      some solutions) (hlast : solutions.getLast? = some sol) :
    (∃ entry, searchMigrationPathRun F fuel view router id ids lvl =
        ⟨solutions.dropLast.filterMap fun s => s.cleanupTarget view.levels, .ok entry⟩) ∨
      searchMigrationPathRun F fuel view router id ids lvl =
        ⟨(solutions.dropLast.filterMap fun s => s.cleanupTarget view.levels) ++
          (sol.cleanupTarget view.levels).toList,
          Outcome.fail .migrationPathExecuteFailure⟩ := by
  have hok := findShortestMig_ok hfind rfl rfl sol (List.mem_of_getLast? hlast)
  obtain ⟨entry, hentry⟩ := exists_resolveEntryData hok
  unfold searchMigrationPathRun
  rw [hboot, if_neg (by simp), if_neg (not_le.mpr hlvl), hfind]
  simp only [hlast, hentry, Outcome.unwrap_ok]
  split_ifs with hd
  · exact .inl ⟨entry, rfl⟩
  · obtain ⟨host, -, hexec⟩ := executeShortestMig_eq hok (Nat.pos_of_ne_zero hd) router ids
    rw [hexec, Outcome.unwrap_ok]
    simp only
    split_ifs with hsent
    · exact .inr rfl
    · exact .inl ⟨entry, rfl⟩

/-- A request that is answered while a guest's call looks for a place. -/
structure CallAnswered (F : Type) [Float64 F] (view : QspnView) (router : SearchRouter)
    (id : Int32) (lvl : ℕ) (hosts : ℕ → List PathHop → Option Host) (b : Bfs)
    (current : SolutionStep) (host : Host) : Prop where
  bootstrapped : view.isBootstrapped = true
  inRange : lvl < view.levels
  answered : Answered F view router id (max (lvl + 1) (view.subnetlevel + 1))
    (max (lvl + view.epsilon lvl) (max (lvl + 1) (view.subnetlevel + 1))) hosts b current host

section Released

variable {F : Type} [Float64 F] {fuel : ℕ} {view : QspnView} {router : SearchRouter} {id : Int32}
  {ids : ℕ → Int32} {lvl : ℕ} {hosts : ℕ → List PathHop → Option Host}
  {solutions : List MigrationSolution}

/-- A call that returns an entry has chosen a solution, and deletes the others. -/
lemma deletes_of_ok (hends : findShortestMig F fuel view router id (lvl + 1)
      (lvl + view.epsilon lvl) = some solutions) {entry : EntryData}
    (h : (searchMigrationPathRun F fuel view router id ids lvl).result = .ok entry) :
    ∃ sol, solutions.getLast? = some sol ∧
      (searchMigrationPathRun F fuel view router id ids lvl).deletes =
        solutions.dropLast.filterMap fun s => s.cleanupTarget view.levels := by
  have hboot : view.isBootstrapped = true := by
    by_contra hboot
    rw [searchMigrationPathRun, if_pos (by simpa using hboot)] at h
    cases h
  have hlvl : lvl < view.levels := by
    by_contra hlvl
    rw [searchMigrationPathRun, hboot, if_neg (by simp), if_pos (not_lt.mp hlvl)] at h
    cases h
  cases hlast : solutions.getLast? with
  | none =>
      rw [searchMigrationPathRun, hboot, if_neg (by simp), if_neg (not_le.mpr hlvl), hends] at h
      simp only [hlast] at h
      cases h
  | some sol =>
      rcases searchMigrationPathRun_cases ids hboot hlvl hends hlast with
        ⟨entry', hrun⟩ | hrun
      · exact ⟨sol, rfl, by rw [hrun]⟩
      · rw [hrun] at h
        cases h

/-- A deletion is addressed to the level of its solution. -/
lemma level_of_cleanupTarget {sol : MigrationSolution} {levels : ℕ} {target : TupleGNode}
    (h : sol.cleanupTarget levels = some target) : target.level levels = sol.finalHostLvl := by
  obtain ⟨hle, -, -, -, hlen, -⟩ := TupleGNode.truncateToLevel_eq_some h
  rw [TupleGNode.level, hlen]
  omega

/-- **No real reservation is leaked.**  A reservation is named by the node that made it and the
level of its coordinator; the coordinators around a node are named by the node's own positions.
Each real one is deleted, or it is that of the chosen solution and an entry is returned; then
nothing is deleted at the level of the chosen solution. -/
theorem reservations_released (ids : ℕ → Int32) (hserved : Served view router hosts)
    (hends : findShortestMig F fuel view router id (lvl + 1) (lvl + view.epsilon lvl) =
      some solutions) {run : MigrationRun}
    (hrun : searchMigrationPathRun F fuel view router id ids lvl = run) :
    (∀ b current host, CallAnswered F view router id lvl hosts b current host →
      ∀ e ∈ grants host.view host.reserve current.data.visitingGnode b.maxHostLvl,
        e.2.pos.toNat < hostSize host.view e.1 →
        (∃ target ∈ run.deletes, target.pos = (makeTupleFromLevel e.1 host.view).pos) ∨
          ∃ entry sol, run.result = .ok entry ∧ solutions.getLast? = some sol ∧
            Holds view.levels host.view e sol) ∧
      ∀ entry, run.result = .ok entry → ∃ sol, solutions.getLast? = some sol ∧
        ∀ target ∈ run.deletes, target.level view.levels ≠ sol.finalHostLvl := by
  subst hrun
  constructor
  · intro b current host hcall e he hreal
    obtain ⟨sol', hmem, hholds⟩ := hcall.answered.recorded hserved hends he hreal
    obtain ⟨target, htarget, hpos⟩ := hholds.host
    obtain ⟨sol, hlast⟩ : ∃ sol, solutions.getLast? = some sol :=
      ⟨_, List.getLast?_eq_some_getLast (List.ne_nil_of_mem hmem)⟩
    have hsplit : solutions = solutions.dropLast ++ [sol] :=
      (List.dropLast_append_getLast? sol hlast).symm
    rw [hsplit] at hmem
    rcases List.mem_append.mp hmem with hmem | hmem
    · -- a solution that was not chosen
      have hdeleted : target ∈ solutions.dropLast.filterMap fun s => s.cleanupTarget view.levels :=
        List.mem_filterMap.mpr ⟨sol', hmem, htarget⟩
      rcases searchMigrationPathRun_cases ids hcall.bootstrapped hcall.inRange hends
        hlast with ⟨entry, hrun⟩ | hrun
      · rw [hrun]
        exact .inl ⟨target, hdeleted, hpos⟩
      · rw [hrun]
        exact .inl ⟨target, List.mem_append_left _ hdeleted, hpos⟩
    · -- the chosen solution
      rw [List.mem_singleton.mp hmem] at hholds htarget
      rcases searchMigrationPathRun_cases ids hcall.bootstrapped hcall.inRange hends
        hlast with ⟨entry, hrun⟩ | hrun
      · rw [hrun]
        exact .inr ⟨entry, sol, rfl, hlast, hholds⟩
      · rw [hrun]
        refine .inl ⟨target, List.mem_append_right _ ?_, hpos⟩
        rw [htarget]
        exact List.mem_singleton.mpr rfl
  · intro entry hentry
    obtain ⟨sol, hlast, hdeletes⟩ := deletes_of_ok hends hentry
    refine ⟨sol, hlast, fun target ht => ?_⟩
    rw [hdeletes] at ht
    obtain ⟨s, hs, htarget⟩ := List.mem_filterMap.mp ht
    rw [level_of_cleanupTarget htarget]
    -- solutions get better, so the chosen one is of a lower level
    have hpairwise := bfs_pairwise (ordered_initial _ _ _) hends
    rw [← List.dropLast_append_getLast? sol hlast, List.pairwise_append] at hpairwise
    exact (hpairwise.2.2 s hs sol (List.mem_singleton.mpr rfl)).1.ne'

end Released

/-- The two hosts, and their coordinators. -/
def twoHosts (room : UInt32) (h : 0 < room.toNat) (_ : ℕ) : List PathHop → Option Host
  | [_] => some ⟨hostView room 0 1 h, fun lvl => if lvl = 1 then some ⟨room, 4⟩ else some ⟨2, 5⟩⟩
  | [_, _] => some ⟨hostView room 1 0 h, fun _ => some ⟨1, 3⟩⟩
  | _ => none

lemma served_twoHosts (room : UInt32) (h : 0 < room.toNat) :
    Served (hostView room 0 1 h) (hostsRouter room h) (twoHosts room h) := by
  refine ⟨fun k hops host hhost => ?_, fun k hops maxHostLvl id => ?_, fun k hops lvl g hg => ?_⟩
  · match hops, hhost with
    | [_], rfl => rfl
    | [_, _], rfl => rfl
  · match hops with
    | [] => rfl
    | [_] => rfl
    | [_, _] => rfl
    | _ :: _ :: _ :: _ => rfl
  · cases hg

/-- The full host reserved position 2 of the network for the guest.  The search went on and found a
place in the other host, so this reservation is not used. -/
theorem reservations_released_hosts :
    let view := hostView 2 0 1 (by decide)
    let run := searchMigrationPathRun ℚ 3 view (hostsRouter 2 (by decide)) 0 (fun _ => 7) 0
    run.result = .ok ⟨1, [0, 0], [4, 0]⟩ ∧ run.deletes = [⟨[], []⟩] ∧
      ((∃ target ∈ run.deletes, target.pos = (makeTupleFromLevel 2 view).pos) ∨
        ∃ entry sol, run.result = .ok entry ∧
          [hostsDirect, hostsSolution 2].getLast? = some sol ∧
          Holds view.levels view (2, ⟨2, 5⟩) sol) ∧
      ∀ entry, run.result = .ok entry →
        ∃ sol, [hostsDirect, hostsSolution 2].getLast? = some sol ∧
          ∀ target ∈ run.deletes, target.level view.levels ≠ sol.finalHostLvl := by
  intro view run
  have hrun : searchMigrationPathRun ℚ 3 view (hostsRouter 2 (by decide)) 0 (fun _ => 7) 0 = run :=
    rfl
  obtain ⟨hall, hkept⟩ := reservations_released (fun _ => 7) (served_twoHosts 2 (by decide))
    findShortestMig_hosts hrun
  refine ⟨by decide +kernel, by decide +kernel, ?_, hkept⟩
  refine hall (initialBfs view 1) (rootStep view 1)
    ⟨view, fun lvl => if lvl = 1 then some ⟨2, 4⟩ else some ⟨2, 5⟩⟩
    ⟨rfl, by decide, Relation.ReflTransGen.refl, rfl, by decide, rfl⟩ (2, ⟨2, 5⟩) ?_ ?_
  · decide
  · decide

end Netsukuku.Hooking
