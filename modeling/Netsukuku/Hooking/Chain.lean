import Mathlib
import Netsukuku.Hooking.Search

/-!
# Chains of migrations

Every solution of the search is a chain of steps.  Each step but the root was made out of the
answer of the g-node visited by its parent: a g-node at the border of that one is to migrate into
the step's g-node, a virtual position is reserved where it leaves, and the g-node it enters is none
that the chain has visited.

* `executeSearch_shape` — what an answer can be.
* `Asked`, `ChainOk` — where a step comes from; `findShortestMig_ok` — every solution has such a
  chain.
* `ChainOk.nodup` — the g-nodes a chain visits are pairwise different.
-/

namespace Netsukuku.Hooking

/-! ## Answers -/

/-- Where real positions are reserved the answer ends; otherwise it has a virtual position of the
lower host, and perhaps a real one of a higher. -/
inductive AnswerShape (view : QspnView) (step : SearchStepResult) : Prop where
  | real {pos : UInt32} {eldership : Int32} (hlvl : step.minHostLvl = step.finalHostLvl)
      (hpos : step.realNewPos = some pos) (held : step.realNewEldership = some eldership)
      (hreal : pos.toNat < view.gsize (step.finalHostLvl - 1))
  | virtual {pos : UInt32} {eldership : Int32} (hlvl : step.minHostLvl < step.finalHostLvl)
      (hpos : step.newConnVirPos = some pos) (held : step.newEldership = some eldership)
      (hreal : ∀ p, step.realNewPos = some p → p.toNat < view.gsize (step.finalHostLvl - 1))

lemma climbToReal_spec {view : QspnView} {reserve : ℕ → Option Reservation} {n : ℕ} :
    ∀ {lvl final : ℕ} {real : Option Reservation},
      climbToReal view reserve lvl n = some (final, real) → lvl ≤ final ∧
        ∀ r, real = some r → r.pos.toNat < hostSize view final := by
  induction n with
  | zero =>
      intro lvl final real h
      cases h
      exact ⟨le_refl _, fun r hr => by cases hr⟩
  | succ n ih =>
      intro lvl final real h
      unfold climbToReal at h
      cases hr : reserve lvl with
      | none =>
          rw [hr] at h
          cases h
      | some r =>
          simp only [hr] at h
          split_ifs at h with hpos
          · cases h
            refine ⟨le_refl _, ?_⟩
            rintro r' ⟨⟩
            exact hpos
          · obtain ⟨hle, hreal⟩ := ih h
            exact ⟨by omega, hreal⟩

/-- **What a node answers.** -/
theorem executeSearch_shape {view : QspnView} {reserve : ℕ → Option Reservation} {g : TupleGNode}
    {maxHostLvl : ℕ} {step : SearchStepResult}
    (h : executeSearch view reserve g maxHostLvl = some step) : AnswerShape view step := by
  unfold executeSearch at h
  split_ifs at h
  simp only [Option.bind_eq_bind, Option.bind_eq_some_iff] at h
  obtain ⟨⟨minHostLvl, r⟩, -, h⟩ := h
  simp only at h
  split_ifs at h with hpos
  · cases h
    exact .real rfl rfl rfl hpos
  · obtain ⟨⟨final, real⟩, hclimb, h⟩ := Option.bind_eq_some_iff.mp h
    cases h
    obtain ⟨hle, hreal⟩ := climbToReal_spec hclimb
    refine .virtual (Nat.lt_of_succ_le hle) rfl rfl fun p hp => ?_
    obtain ⟨r', rfl, rfl⟩ := Option.map_eq_some_iff.mp hp
    exact hreal r' rfl

/-- The room of a level is a matter of the topology. -/
lemma AnswerShape.congr {view view' : QspnView} {step : SearchStepResult}
    (h : AnswerShape view step) (ht : view.topology = view'.topology) : AnswerShape view' step := by
  have hsize : ∀ i, view.gsize i = view'.gsize i := fun i => by
    rw [QspnView.gsize, QspnView.gsize, ht]
  cases h with
  | real hlvl hpos held hreal => exact .real hlvl hpos held (hsize _ ▸ hreal)
  | virtual hlvl hpos held hreal =>
      exact .virtual hlvl hpos held fun p hp => hsize _ ▸ hreal p hp

/-- A position that is called real has room. -/
lemma AnswerShape.room {view : QspnView} {step : SearchStepResult} (h : AnswerShape view step)
    {p : UInt32} (hp : step.realNewPos = some p) :
    p.toNat < view.gsize (step.finalHostLvl - 1) := by
  cases h with
  | real hlvl hpos held hreal =>
      cases hpos.symm.trans hp
      exact hreal
  | virtual hlvl hpos held hreal => exact hreal p hp

/-- Every answer to a search request is what a node of the same topology, inside the g-node that is
asked, answers. -/
def Answers (view : QspnView) (router : SearchRouter) : Prop :=
  ∀ k hops maxHostLvl id step, router.sendSearchRequest k hops maxHostLvl id = some step →
    ∃ hop ∈ hops.getLast?, ∃ node : QspnView, ∃ reserve, node.topology = view.topology ∧
      executeSearch node reserve hop.visitingGnode maxHostLvl = some step

/-- Answers of the shape `execute_search` gives them. -/
def Shaped (view : QspnView) (router : SearchRouter) : Prop :=
  ∀ k hops maxHostLvl id step, router.sendSearchRequest k hops maxHostLvl id = some step →
    AnswerShape view step

lemma Answers.shaped {view : QspnView} {router : SearchRouter} (h : Answers view router) :
    Shaped view router := by
  intro k hops maxHostLvl id step hans
  obtain ⟨hop, -, node, reserve, htop, hexec⟩ := h k hops maxHostLvl id step hans
  exact (executeSearch_shape hexec).congr htop

/-! ## Chains -/

section Chains

variable (view : QspnView) (made : ℕ → SolutionStep → ℕ → SearchStepResult → Prop)
  (root : SolutionStep)

/-- `step` is the answer that made a reservation in the g-node `g`: the `k`-th request was sent for
a step with these parents, and its g-node, cut to the level of the answer, is `g`.  A step without
parents is the root, and its request is the first. -/
structure Asked (g : TupleGNode) (parents : List StepData) (step : SearchStepResult) : Prop where
  request : ∃ k current maxHostLvl, made k current maxHostLvl step ∧ current.parents = parents ∧
    current.data.visitingGnode.truncateToLevel step.minHostLvl view.levels = some g ∧
    (parents = [] → k = 0 ∧ maxHostLvl = view.levels ∧ current = root)
  min_le_final : step.minHostLvl ≤ step.finalHostLvl
  final_le : step.finalHostLvl ≤ view.levels

/-- What links a step to its parent `p`. -/
structure Link (p : StepData) (ps : List StepData) (s : StepData) (step : SearchStepResult)
    (border : UInt32) : Prop where
  asked : Asked view made root p.visitingGnode ps step
  migrating : s.previousMigratingGnode =
    some ⟨border :: p.visitingGnode.pos, -1 :: p.visitingGnode.eldership⟩
  conn : s.previousGnodeNewConnVirPos = step.newConnVirPos
  eldership : s.previousGnodeNewEldership = step.newEldership
  adjacent : ∃ adj ∈ step.setAdjacent, adj.borderRealPos = border
  lower : AnswerShape view step → step.minHostLvl < step.finalHostLvl
  /-- The step entered a g-node of the level of `p`, different from all that the chain had visited,
  and went on to one that contains it. -/
  fresh : ∃ n : List UInt32, n.length = p.visitingGnode.pos.length ∧
    (∃ k, s.visitingGnode.pos = n.drop k) ∧
    ∀ q ∈ p :: ps, q.visitingGnode.pos.drop (q.visitingGnode.pos.length - n.length) ≠ n

/-- A chain that the search made, leaf first. -/
inductive ChainOk : List StepData → Prop where
  | root {s : StepData} (hmig : s.previousMigratingGnode = none)
      (hconn : s.previousGnodeNewConnVirPos = none)
      (hpos : ∃ k, s.visitingGnode.pos = root.data.visitingGnode.pos.drop k) : ChainOk [s]
  | hop {s p : StepData} {ps : List StepData} {step : SearchStepResult} {border : UInt32}
      (h : ChainOk (p :: ps)) (hlink : Link view made root p ps s step border) :
      ChainOk (s :: p :: ps)

variable {view made root}

lemma Asked.wellFormed {g : TupleGNode} {ps : List StepData} {step : SearchStepResult}
    (h : Asked view made root g ps step) :
    g.pos.length = view.levels - step.minHostLvl ∧ g.eldership.length = g.pos.length := by
  obtain ⟨k, current, maxHostLvl, -, -, htrunc, -⟩ := h.request
  obtain ⟨-, -, -, -, hlen, helen⟩ := TupleGNode.truncateToLevel_eq_some htrunc
  exact ⟨hlen, helen.trans hlen.symm⟩

/-- Every g-node of the chain that led to a further step is well formed. -/
lemma ChainOk.wellFormed {s : StepData} {ps : List StepData}
    (h : ChainOk view made root (s :: ps)) :
    ∀ q ∈ ps, q.visitingGnode.eldership.length = q.visitingGnode.pos.length := by
  induction ps generalizing s with
  | nil => simp
  | cons p ps ih =>
      cases h with
      | hop h hlink =>
          intro q hq
          rcases List.mem_cons.mp hq with rfl | hq
          · exact hlink.asked.wellFormed.2
          · exact ih h q hq

/-- Along a chain the g-nodes get larger, their names shorter. -/
lemma ChainOk.length_le {s : StepData} {ps : List StepData}
    (h : ChainOk view made root (s :: ps)) :
    ∀ q ∈ ps, s.visitingGnode.pos.length ≤ q.visitingGnode.pos.length := by
  induction ps generalizing s with
  | nil => simp
  | cons p ps ih =>
      cases h with
      | hop h hlink =>
          obtain ⟨n, hn, ⟨k, hk⟩, -⟩ := hlink.fresh
          have hsp : s.visitingGnode.pos.length ≤ p.visitingGnode.pos.length := by
            rw [hk, List.length_drop]
            omega
          intro q hq
          rcases List.mem_cons.mp hq with rfl | hq
          · exact hsp
          · exact hsp.trans (ih h q hq)

/-- A step visits a g-node that none of its parents visits. -/
lemma ChainOk.ne {s : StepData} {ps : List StepData} (h : ChainOk view made root (s :: ps)) :
    ∀ q ∈ ps, s.visitingGnode.pos ≠ q.visitingGnode.pos := by
  intro q hq heq
  cases h with
  | root => cases hq
  | @hop _ p ps step border h hlink =>
      obtain ⟨n, hn, ⟨k, hk⟩, hfresh⟩ := hlink.fresh
      -- the name of `s` is as long as that of `q`, so nothing was cut off it
      have hle : p.visitingGnode.pos.length ≤ q.visitingGnode.pos.length := by
        rcases List.mem_cons.mp hq with rfl | hq
        · exact le_refl _
        · exact h.length_le q hq
      have hlen := congrArg List.length hk
      rw [heq, List.length_drop] at hlen
      have hsn : s.visitingGnode.pos = n := by
        by_cases hk0 : k = 0
        · rw [hk, hk0, List.drop_zero]
        · have hn0 : n.length = 0 := by omega
          rw [List.length_eq_zero_iff.mp hn0, List.drop_nil] at hk
          rw [hk, List.length_eq_zero_iff.mp hn0]
      refine hfresh q hq ?_
      rw [← heq, hsn, Nat.sub_self, List.drop_zero]

/-- **The g-nodes a chain visits are pairwise different.** -/
theorem ChainOk.nodup {chain : List StepData} (h : ChainOk view made root chain) :
    (chain.map fun s => s.visitingGnode.pos).Nodup := by
  induction h with
  | root => exact List.nodup_singleton _
  | @hop s p ps step border h hlink ih =>
      rw [List.map_cons, List.nodup_cons]
      refine ⟨fun hmem => ?_, ih⟩
      obtain ⟨q, hq, heq⟩ := List.mem_map.mp hmem
      exact (ChainOk.hop h hlink).ne q hq heq.symm

/-- Every step of a chain is the leaf of a chain. -/
lemma ChainOk.drop {chain : List StepData} (h : ChainOk view made root chain) {i : ℕ}
    {s : StepData} {ps : List StepData} (hi : chain.drop i = s :: ps) :
    ChainOk view made root (s :: ps) := by
  induction h generalizing i with
  | @root t hmig hconn hpos =>
      cases i with
      | zero =>
          cases hi
          exact .root hmig hconn hpos
      | succ i =>
          rw [List.drop_succ_cons, List.drop_nil] at hi
          cases hi
  | hop h hlink ih =>
      cases i with
      | zero =>
          cases hi
          exact .hop h hlink
      | succ i => exact ih hi

/-- The g-node of the leaf may be cut to a higher level. -/
lemma ChainOk.truncate {s : StepData} {ps : List StepData}
    (h : ChainOk view made root (s :: ps)) {l : ℕ} {g : TupleGNode}
    (hg : s.visitingGnode.truncateToLevel l view.levels = some g) :
    ChainOk view made root ({ s with visitingGnode := g } :: ps) := by
  obtain ⟨-, -, -, hpos, -, -⟩ := TupleGNode.truncateToLevel_eq_some hg
  cases h with
  | root hmig hconn hroot =>
      obtain ⟨k, hk⟩ := hroot
      refine .root hmig hconn ⟨k + (s.visitingGnode.pos.length - (view.levels - l)), ?_⟩
      rw [← List.drop_drop, ← hk]
      exact hpos
  | hop h hlink =>
      obtain ⟨n, hn, ⟨k, hk⟩, hfresh⟩ := hlink.fresh
      refine .hop h ⟨hlink.asked, hlink.migrating, hlink.conn, hlink.eldership, hlink.adjacent,
        hlink.lower, n, hn, ⟨k + (s.visitingGnode.pos.length - (view.levels - l)), ?_⟩, hfresh⟩
      rw [← List.drop_drop, ← hk]
      exact hpos

/-! ## The search makes such chains -/

variable (view made root)

/-- A solution has a chain, and its position was reserved in the g-node of its leaf. -/
structure SolutionOk (sol : MigrationSolution) : Prop where
  chain : ChainOk view made root sol.leaf.chain
  answer : ∃ step, Asked view made root sol.leaf.data.visitingGnode sol.leaf.parents step ∧
    step.finalHostLvl = sol.finalHostLvl ∧ step.realNewPos = some sol.realNewPos ∧
    step.realNewEldership = some sol.realNewEldership

/-- The search after its first visit: every step that waits has a chain, and so has every solution
found. -/
structure Started (b : Bfs) : Prop where
  queue : ∀ s ∈ b.queue, ChainOk view made root s.chain ∧ s.parents ≠ []
  solutions : ∀ sol ∈ b.solutions, SolutionOk view made root sol

/-- What an iteration comes to. -/
def Progress.Ok : Progress → Prop
  | .done solutions => ∀ sol ∈ solutions, SolutionOk view made root sol
  | .more b => Started view made root b

variable {view made root}

lemma Started.append {b : Bfs} (h : Started view made root b) {sol : MigrationSolution}
    (hsol : SolutionOk view made root sol) :
    ∀ s ∈ b.solutions ++ [sol], SolutionOk view made root s := by
  intro s hs
  rcases List.mem_append.mp hs with hs | hs
  · exact h.solutions s hs
  · rw [List.mem_singleton] at hs
    exact hs ▸ hsol

lemma Started.record {b : Bfs} (h : Started view made root b) {sol : MigrationSolution}
    (hsol : SolutionOk view made root sol) : Started view made root (b.record sol) :=
  ⟨h.queue, h.append hsol⟩

/-- A tuple of the right level that is not virtual has one position for every level above. -/
lemma length_of_not_virtual {n : TupleGNode} {l : ℕ} (hl : l ≤ view.levels)
    (hlvl : n.level view.levels = l) (hvirt : ¬tupleHasVirtualPos n view) :
    n.pos.length = view.levels - l := by
  unfold tupleHasVirtualPos at hvirt
  split_ifs at hvirt with hlen
  · exact absurd rfl hvirt
  · rw [TupleGNode.level] at hlvl
    omega

/-- What is in no step of the chain is the g-node of none of them. -/
lemma ne_of_not_inPrevStep {current : SolutionStep} {l : ℕ} {n : TupleGNode}
    (hl : l ≤ view.levels) (hlen : n.pos.length = view.levels - l)
    (h : ¬inPrevStep view current l n) {q : StepData} (hq : q ∈ current.chain)
    (hwf : q.visitingGnode.eldership.length = q.visitingGnode.pos.length)
    (hle : view.levels - l ≤ q.visitingGnode.pos.length) :
    q.visitingGnode.pos.drop (q.visitingGnode.pos.length - n.pos.length) ≠ n.pos := by
  intro heq
  refine h (List.any_eq_true.mpr ⟨q, hq, ?_⟩)
  rw [TupleGNode.truncateToLevel_of_le hl hle hwf, Option.any_some, positionsEqual,
    decide_eq_true_eq, ← hlen]
  exact heq

section Visit

variable {router : SearchRouter} {current : SolutionStep} {step : SearchStepResult}

/-- The step to an adjacent g-node continues the chain. -/
lemma ChainOk.expand (hchain : ChainOk view made root current.chain)
    (hasked : Asked view made root current.data.visitingGnode current.parents step)
    (hlower : AnswerShape view step → step.minHostLvl < step.finalHostLvl) {adj : PairTupleGNodeInt}
    (hadj : adj ∈ step.setAdjacent) {n : TupleGNode}
    (hlvl : n.level view.levels = step.minHostLvl) (hvirt : ¬tupleHasVirtualPos n view)
    (hprev : ¬inPrevStep view current step.minHostLvl n) :
    ChainOk view made root
      (⟨n, some ⟨adj.borderRealPos :: current.data.visitingGnode.pos,
        -1 :: current.data.visitingGnode.eldership⟩, step.newConnVirPos, step.newEldership⟩ ::
          current.chain) := by
  have hl : step.minHostLvl ≤ view.levels := hasked.min_le_final.trans hasked.final_le
  have hn := length_of_not_virtual hl hlvl hvirt
  obtain ⟨hlen, hwf⟩ := hasked.wellFormed
  refine .hop hchain ⟨hasked, rfl, rfl, rfl, ⟨adj, hadj, rfl⟩, hlower, n.pos, hn.trans hlen.symm,
    ⟨0, rfl⟩, fun q hq => ne_of_not_inPrevStep hl hn hprev hq ?_ ?_⟩
  · rcases List.mem_cons.mp hq with rfl | hq
    · exact hwf
    · exact hchain.wellFormed q hq
  · rw [← hlen]
    rcases List.mem_cons.mp hq with rfl | hq
    · exact le_refl _
    · exact hchain.length_le q hq

lemma exploreAdjacent_frame (view : QspnView) (router : SearchRouter) (current : SolutionStep)
    (l : ℕ) (b : Bfs) (adj : PairTupleGNodeInt) :
    (exploreAdjacent view router current l b adj).1.queue = b.queue ∧
      (exploreAdjacent view router current l b adj).1.solutions = b.solutions := by
  unfold exploreAdjacent
  split_ifs <;> exact ⟨rfl, rfl⟩

lemma Started.expandAdjacent (hchain : ChainOk view made root current.chain)
    (hasked : Asked view made root current.data.visitingGnode current.parents step)
    (hlower : AnswerShape view step → step.minHostLvl < step.finalHostLvl) {adj : PairTupleGNodeInt}
    (hadj : adj ∈ step.setAdjacent) {b : Bfs} (h : Started view made root b) :
    Started view made root (expandAdjacent view router current step b adj) := by
  obtain ⟨hqueue, hsols⟩ := exploreAdjacent_frame view router current step.minHostLvl b adj
  unfold Hooking.expandAdjacent
  rcases hex : exploreAdjacent view router current step.minHostLvl b adj with ⟨b', n?⟩
  rw [hex] at hqueue hsols
  have h' : Started view made root b' :=
    ⟨fun s hs => h.queue s (hqueue ▸ hs), fun sol hsol => h.solutions sol (hsols ▸ hsol)⟩
  cases n? with
  | none => exact h'
  | some n =>
      simp only
      split_ifs with hlvl hvirt hvisited hprev
      · exact h'
      · exact h'
      · exact h'
      · exact h'
      · refine ⟨fun s hs => ?_, h'.solutions⟩
        rcases List.mem_append.mp hs with hs | hs
        · exact h'.queue s hs
        · rw [List.mem_singleton] at hs
          subst hs
          exact ⟨hchain.expand hasked hlower hadj (not_not.mp hlvl) hvirt hprev,
            List.cons_ne_nil _ _⟩

lemma Started.expand (hchain : ChainOk view made root current.chain)
    (hasked : Asked view made root current.data.visitingGnode current.parents step)
    (hlower : AnswerShape view step → step.minHostLvl < step.finalHostLvl) {b : Bfs}
    (h : Started view made root b) :
    Started view made root
      (step.setAdjacent.foldl (Hooking.expandAdjacent view router current step) b) := by
  suffices hall : ∀ adjs : List PairTupleGNodeInt, adjs ⊆ step.setAdjacent → ∀ b : Bfs,
      Started view made root b → Started view made root
        (adjs.foldl (Hooking.expandAdjacent view router current step) b) from
    hall _ (List.Subset.refl _) b h
  intro adjs
  induction adjs with
  | nil => exact fun _ _ h => h
  | cons adj adjs ih =>
      intro hsub b h
      rw [List.cons_subset] at hsub
      exact ih hsub.2 _ (h.expandAdjacent hchain hasked hlower hsub.1)

lemma resolved_ok (hchain : ChainOk view made root current.chain)
    (hasked : Asked view made root current.data.visitingGnode current.parents step)
    {sol : MigrationSolution} (hsol : resolved current step = some sol) :
    SolutionOk view made root sol := by
  unfold resolved at hsol
  split at hsol
  · rename_i pos eldership hpos held
    cases hsol
    exact ⟨hchain, step, hasked, rfl, hpos, held⟩
  · cases hsol

/-- An answer without a real position has a virtual one, of a lower level. -/
lemma AnswerShape.lower_of_not_resolved (h : AnswerShape view step)
    (hsol : resolved current step = none) : step.minHostLvl < step.finalHostLvl := by
  cases h with
  | real hlvl hpos held hreal =>
      rw [resolved, hpos, held] at hsol
      cases hsol
  | virtual hlvl => exact hlvl

/-- **One answer.**  Adjacent g-nodes are visited only if the answer reserved a virtual position. -/
lemma Started.onAnswer (hchain : ChainOk view made root current.chain)
    (hasked : Asked view made root current.data.visitingGnode current.parents step)
    (okHostLvl : ℕ) {b : Bfs} (h : Started view made root b) :
    (onAnswer view router okHostLvl b current step).Ok view made root := by
  have hexpand : (AnswerShape view step → step.minHostLvl < step.finalHostLvl) →
      ∀ b, Started view made root b →
      Started view made root
        (step.setAdjacent.foldl (Hooking.expandAdjacent view router current step) b) :=
    fun hlower b h => h.expand hchain hasked hlower
  unfold Hooking.onAnswer
  simp only
  split_ifs with hok hmin hmax
  · cases hsol : resolved current step with
    | none => exact hexpand (fun hshape => hshape.lower_of_not_resolved hsol) b h
    | some sol => exact h.append (resolved_ok hchain hasked hsol)
  · cases hsol : resolved current step with
    | none => exact h
    | some sol => exact h.record (resolved_ok hchain hasked hsol)
  · have hlower := lt_of_le_of_ne hasked.min_le_final hmin
    cases hsol : resolved current step with
    | none => exact hexpand (fun _ => hlower) b h
    | some sol => exact hexpand (fun _ => hlower) _ (h.record (resolved_ok hchain hasked hsol))
  · exact hexpand (fun _ => lt_of_le_of_ne hasked.min_le_final hmin) b h

end Visit

variable {F : Type} [Float64 F] {router : SearchRouter} {id : Int32} {okHostLvl : ℕ}

/-- **One iteration**, at the root or later. -/
theorem bfsStep_ok {b : Bfs} {current : SolutionStep}
    {queue : List SolutionStep} (hqueue : b.queue = current :: queue)
    (hchain : ChainOk view made root current.chain)
    (hmade : ¬tooFar F b.prevSolDistance current.distance → ∀ step,
      router.sendSearchRequest b.calls (getPathHops current) b.maxHostLvl id = some step →
        made b.calls current b.maxHostLvl step)
    (hroot : current.parents = [] → current = root ∧ b.calls = 0 ∧ b.maxHostLvl = view.levels)
    (h : Started view made root { b with queue }) :
    (bfsStep F view router id okHostLvl b).Ok view made root := by
  have hrest : ∀ visited : List TupleGNode, Started view made root
      { b with queue, calls := b.calls + 1, visited } := fun _ => ⟨h.queue, h.solutions⟩
  unfold bfsStep
  simp only [hqueue]
  split_ifs with hfar
  · exact h.solutions
  · cases hans : router.sendSearchRequest b.calls (getPathHops current) b.maxHostLvl id with
    | none => exact hrest _
    | some step =>
        simp only
        split_ifs with hbad
        · exact hrest _
        · unfold badAnswer at hbad
          rw [decide_eq_true_eq, not_or, not_or, not_or, not_lt, not_lt, not_lt, not_lt] at hbad
          obtain ⟨-, -, hfinal, hmin⟩ := hbad
          cases htrunc : current.data.visitingGnode.truncateToLevel step.minHostLvl
              view.levels with
          | none => exact hrest _
          | some g =>
              have hchain' : ChainOk view made root
                  { current with data := { current.data with visitingGnode := g } }.chain :=
                hchain.truncate htrunc
              refine (hrest b.visited).onAnswer hchain' ⟨?_, hmin, hfinal⟩ okHostLvl
              refine ⟨b.calls, current, b.maxHostLvl, hmade hfar step hans, rfl, htrunc,
                fun hparents => ?_⟩
              obtain ⟨hcurrent, hcalls, hmax⟩ := hroot hparents
              exact ⟨hcalls, hmax, hcurrent⟩

end Chains

/-! ## The requests of a search -/

section Requests

variable (F : Type) [Float64 F] (view : QspnView) (router : SearchRouter) (id : Int32)
  (firstHostLvl okHostLvl : ℕ)

/-- The states of a search, from the first on. -/
def Reached : Bfs → Prop :=
  Relation.ReflTransGen (fun b b' => bfsStep F view router id okHostLvl b = .more b')
    (initialBfs view firstHostLvl)

/-- The search sends its `k`-th request for the step `current`, and this is the answer. -/
def Made (k : ℕ) (current : SolutionStep) (maxHostLvl : ℕ) (step : SearchStepResult) : Prop :=
  ∃ b, Reached F view router id firstHostLvl okHostLvl b ∧ b.queue.head? = some current ∧
    ¬tooFar F b.prevSolDistance current.distance ∧ b.calls = k ∧ b.maxHostLvl = maxHostLvl ∧
    router.sendSearchRequest k (getPathHops current) maxHostLvl id = some step

variable {F view router id firstHostLvl okHostLvl}

lemma Made.shape (hshape : Shaped view router) {k maxHostLvl : ℕ} {current : SolutionStep}
    {step : SearchStepResult}
    (h : Made F view router id firstHostLvl okHostLvl k current maxHostLvl step) :
    AnswerShape view step := by
  obtain ⟨b, -, -, -, -, -, hans⟩ := h
  exact hshape _ _ _ _ _ hans

/-- **One step of a run.**  The first iteration visits the root; every later one visits a step that
has parents. -/
lemma Reached.step {b : Bfs} (hb : Reached F view router id firstHostLvl okHostLvl b)
    (hinv : b = initialBfs view firstHostLvl ∨
      Started view (Made F view router id firstHostLvl okHostLvl) (rootStep view firstHostLvl) b) :
    (bfsStep F view router id okHostLvl b).Ok view
      (Made F view router id firstHostLvl okHostLvl) (rootStep view firstHostLvl) := by
  have hmade : ∀ current queue, b.queue = current :: queue →
      ¬tooFar F b.prevSolDistance current.distance → ∀ step,
      router.sendSearchRequest b.calls (getPathHops current) b.maxHostLvl id = some step →
        Made F view router id firstHostLvl okHostLvl b.calls current b.maxHostLvl step :=
    fun current queue hqueue hfar step hans =>
      ⟨b, hb, by rw [hqueue, List.head?_cons], hfar, rfl, rfl, hans⟩
  rcases hinv with rfl | hinv
  · exact bfsStep_ok rfl (.root rfl rfl ⟨0, rfl⟩) (hmade _ _ rfl)
      (fun _ => ⟨rfl, rfl, rfl⟩) ⟨List.forall_mem_nil _, List.forall_mem_nil _⟩
  · cases hqueue : b.queue with
    | nil =>
        unfold bfsStep
        simp only [hqueue]
        exact hinv.solutions
    | cons current queue =>
        obtain ⟨hchain, hparents⟩ := hinv.queue current (hqueue ▸ List.mem_cons_self)
        refine bfsStep_ok hqueue hchain (hmade _ _ hqueue)
          (fun hnil => absurd hnil hparents) ⟨fun s hs => hinv.queue s ?_, hinv.solutions⟩
        rw [hqueue]
        exact List.mem_cons_of_mem _ hs

/-- **A whole run** keeps the invariant. -/
theorem Reached.inv {b : Bfs} (hb : Reached F view router id firstHostLvl okHostLvl b) :
    b = initialBfs view firstHostLvl ∨
      Started view (Made F view router id firstHostLvl okHostLvl) (rootStep view firstHostLvl)
        b := by
  induction hb with
  | refl => exact .inl rfl
  | tail hb hstep ih =>
      have hok := Reached.step hb ih
      rw [hstep] at hok
      exact .inr hok

/-- Every solution that a run comes to has a chain. -/
theorem bfs_ok {fuel : ℕ} : ∀ {b : Bfs}, Reached F view router id firstHostLvl okHostLvl b →
    ∀ {solutions}, bfs F view router id okHostLvl fuel b = some solutions → ∀ sol ∈ solutions,
      SolutionOk view (Made F view router id firstHostLvl okHostLvl) (rootStep view firstHostLvl)
        sol := by
  induction fuel with
  | zero =>
      intro b _ solutions h
      cases h
  | succ fuel ih =>
      intro b hb solutions h
      have hstep := Reached.step hb hb.inv
      unfold bfs at h
      cases hprogress : bfsStep F view router id okHostLvl b with
      | done found =>
          rw [hprogress] at h hstep
          cases h
          exact hstep
      | more b' =>
          rw [hprogress] at h
          exact ih (hb.tail hprogress) h

end Requests

/-- **Every solution has a chain** from the root of the search. -/
theorem findShortestMig_ok {F : Type} [Float64 F] {fuel : ℕ} {view : QspnView}
    {router : SearchRouter} {id : Int32} {firstHostLvl okHostLvl first ok : ℕ}
    {solutions : List MigrationSolution}
    (h : findShortestMig F fuel view router id firstHostLvl okHostLvl = some solutions)
    (hfirst : first = max firstHostLvl (view.subnetlevel + 1)) (hok : ok = max okHostLvl first) :
    ∀ sol ∈ solutions,
      SolutionOk view (Made F view router id first ok) (rootStep view first) sol := by
  subst hok hfirst
  exact bfs_ok Relation.ReflTransGen.refl h

end Netsukuku.Hooking
