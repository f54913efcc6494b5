import Mathlib
import Netsukuku.Core.Frontier
import Netsukuku.Hooking.Release

/-!
# The nearest host

A host that is asked for a place within `max_host_lvl` levels answers with the first level that has
a real position free, and with `max_host_lvl + 1` if there is none.  The search goes breadth first
from g-node to adjacent g-node, full hosts included: a neighbour may have what they have not.

The first question is about all levels.  There a host without any place answers with a level above
the top, which the search takes for nonsense; that g-node is then not expanded, and it is the root.

* `placeOf` — the first level of a g-node that has a place.
* `Hosts` — what every g-node would answer; `Steady` — a router that passes the answers on.
* `Adjacent`, `Within` — the g-nodes within reach.
* `FindsNearest` — what the solutions of a search should be.
* `Spreads.visit` — one visit; `Searching`, `Searching.run` — the search, once a place was found.
* `findsNearest_iff` — the search finds a nearest host exactly if the root has a place at some
  level, or nobody within reach has one that is good enough.
-/

namespace Netsukuku.Hooking

/-! ## Places -/

section Places

variable {view : QspnView} {reserve : ℕ → Option Reservation}

/-- A real position is free in the host of level `lvl`. -/
def hasPlace (view : QspnView) (reserve : ℕ → Option Reservation) (lvl : ℕ) : Bool :=
  (reserve lvl).any fun r => decide (r.pos.toNat < hostSize view lvl)

/-- The first level from `l` up to the top that has a place. -/
def placeOf (view : QspnView) (reserve : ℕ → Option Reservation) (l : ℕ) : Option ℕ :=
  (List.range' l (view.levels + 1 - l)).find? (hasPlace view reserve)

/-- The first `n` levels from `l` on have no place, and then there is one or there is none. -/
lemma placeOf_eq {l n : ℕ} (hnone : ∀ i, l ≤ i → i < l + n → hasPlace view reserve i = false) :
    (∀ p, placeOf view reserve l = some p → l + n ≤ p) ∧
      (l + n ≤ view.levels → hasPlace view reserve (l + n) = true →
        placeOf view reserve l = some (l + n)) := by
  constructor
  · intro p hp
    have hmem := List.mem_range'_1.mp (List.mem_of_find?_eq_some hp)
    have htrue := List.find?_some hp
    by_contra hlt
    rw [hnone p hmem.1 (by omega)] at htrue
    cases htrue
  · intro hle htrue
    have hsplit : List.range' l (view.levels + 1 - l) =
        List.range' l n ++ (l + n) :: List.range' (l + n + 1) (view.levels - (l + n)) := by
      rw [← List.range'_succ, List.range'_append_1]
      congr 1
      omega
    rw [placeOf, hsplit, List.find?_append, List.find?_cons_of_pos htrue]
    have hfirst : (List.range' l n).find? (hasPlace view reserve) = none := by
      rw [List.find?_eq_none]
      intro i hi
      have := List.mem_range'_1.mp hi
      rw [hnone i this.1 this.2]
      exact Bool.false_ne_true
    rw [hfirst]
    rfl

/-- Where the climb ends. -/
lemma climbToReal_place {n : ℕ} : ∀ {lvl final : ℕ} {real : Option Reservation},
    climbToReal view reserve lvl n = some (final, real) →
      lvl ≤ final ∧ (∀ i, lvl ≤ i → i < final → hasPlace view reserve i = false) ∧
        ((∃ r, real = some r) ∧ final < lvl + n ∧ hasPlace view reserve final = true ∨
          real = none ∧ final = lvl + n) := by
  induction n with
  | zero =>
      intro lvl final real h
      cases h
      exact ⟨le_rfl, fun i hi hlt => absurd hlt (not_lt.mpr hi), .inr ⟨rfl, rfl⟩⟩
  | succ n ih =>
      intro lvl final real h
      rw [climbToReal] at h
      cases hr : reserve lvl with
      | none =>
          rw [hr] at h
          cases h
      | some r =>
          simp only [hr] at h
          have hplace : hasPlace view reserve lvl = decide (r.pos.toNat < hostSize view lvl) := by
            rw [hasPlace, hr, Option.any_some]
          split_ifs at h with hpos
          · cases h
            refine ⟨le_rfl, fun i hi hlt => absurd hlt (not_lt.mpr hi), .inl ⟨⟨r, rfl⟩, ?_, ?_⟩⟩
            · omega
            · rw [hplace]
              exact decide_eq_true hpos
          · obtain ⟨hle, hnone, hend⟩ := ih h
            refine ⟨by omega, fun i hi hlt => ?_, ?_⟩
            · rcases Nat.eq_or_lt_of_le hi with rfl | hi
              · rw [hplace]
                exact decide_eq_false hpos
              · exact hnone i hi hlt
            · rw [show lvl + (n + 1) = lvl + 1 + n by omega]
              exact hend

/-- What an answer is made of: the reservation of the first coordinator, and the climb if that
one has only a virtual position. -/
lemma executeSearch_first {g : TupleGNode} {maxHostLvl : ℕ} {step : SearchStepResult}
    (h : executeSearch view reserve g maxHostLvl = some step) :
    ∃ r, firstReservation reserve (g.level view.levels)
        (min maxHostLvl view.levels + 1 - g.level view.levels) = some (step.minHostLvl, r) ∧
      (hasPlace view reserve step.minHostLvl = true → reserve step.minHostLvl = some r →
        step.finalHostLvl = step.minHostLvl ∧ ∃ pos eldership,
          step.realNewPos = some pos ∧ step.realNewEldership = some eldership) ∧
      (hasPlace view reserve step.minHostLvl = false → reserve step.minHostLvl = some r →
        ∃ real, climbToReal view reserve (step.minHostLvl + 1)
            (min maxHostLvl view.levels + 1 - (step.minHostLvl + 1)) =
              some (step.finalHostLvl, real) ∧
          step.realNewPos = real.map Reservation.pos ∧
          step.realNewEldership = real.map Reservation.eldership) := by
  rw [executeSearch] at h
  split_ifs at h
  simp only [Option.bind_eq_bind, Option.bind_eq_some_iff] at h
  obtain ⟨⟨minHostLvl, r⟩, hfirst, h⟩ := h
  have hplace : reserve minHostLvl = some r → hasPlace view reserve minHostLvl =
      decide (r.pos.toNat < hostSize view minHostLvl) := by
    intro hr
    rw [hasPlace, hr, Option.any_some]
  simp only at h
  split_ifs at h with hpos
  · cases h
    refine ⟨r, hfirst, fun _ _ => ⟨rfl, _, _, rfl, rfl⟩, fun hnone hr => ?_⟩
    exact absurd ((hplace hr).symm.trans hnone) (by simp [hpos])
  · obtain ⟨⟨finalHostLvl, real⟩, hclimb, h⟩ := Option.bind_eq_some_iff.mp h
    cases h
    refine ⟨r, hfirst, fun htrue hr => ?_, fun _ _ => ⟨real, hclimb, rfl, rfl⟩⟩
    exact absurd ((hplace hr).symm.trans htrue) (by simp [hpos])

lemma executeSearch_min_le {g : TupleGNode} {maxHostLvl : ℕ} {step : SearchStepResult}
    (h : executeSearch view reserve g maxHostLvl = some step) :
    step.minHostLvl ≤ maxHostLvl ∧ step.minHostLvl ≤ view.levels := by
  obtain ⟨r, hfirst, -⟩ := executeSearch_first h
  have := firstReservation_range hfirst
  omega

/-- A coordinator of the level itself is the first. -/
lemma firstReservation_self {lvl n : ℕ} {r : Reservation}
    (h : firstReservation reserve lvl n = some (lvl, r)) : reserve lvl = some r := by
  cases n with
  | zero => cases h
  | succ n =>
      rw [firstReservation] at h
      cases hr : reserve lvl with
      | some r' =>
          rw [hr] at h
          cases h
          rfl
      | none =>
          rw [hr] at h
          exact absurd (firstReservation_range h).1 (Nat.not_succ_le_self lvl)

/-- **What a host answers that has the level it is asked for**: its place, if that is within the
levels asked; otherwise the level above them. -/
lemma executeSearch_place {g : TupleGNode} {l maxHostLvl : ℕ} {step : SearchStepResult}
    (h : executeSearch view reserve g maxHostLvl = some step) (hmin : step.minHostLvl = l)
    (hlevel : g.level view.levels = l) (hmax : maxHostLvl ≤ view.levels) :
    placeOf view reserve l = some step.finalHostLvl ∧ step.finalHostLvl ≤ maxHostLvl ∧
        (∃ pos eldership, step.realNewPos = some pos ∧ step.realNewEldership = some eldership) ∨
      (∀ p, placeOf view reserve l = some p → maxHostLvl < p) ∧
        step.finalHostLvl = maxHostLvl + 1 ∧ step.realNewPos = none := by
  have hle := (executeSearch_min_le h).1
  obtain ⟨r, hfirst, hreal, hclimbs⟩ := executeSearch_first h
  rw [hlevel, hmin, min_eq_left hmax] at hfirst
  rw [hmin] at hle hreal hclimbs
  have hreserve := firstReservation_self hfirst
  cases hplace : hasPlace view reserve l with
  | true =>
      obtain ⟨hfinal, hpos⟩ := hreal hplace hreserve
      have hnone : ∀ i, l ≤ i → i < l + 0 → hasPlace view reserve i = false :=
        fun i hi hlt => absurd hlt (by omega)
      rw [hfinal]
      exact .inl ⟨(placeOf_eq hnone).2 (by omega) hplace, hle, hpos⟩
  | false =>
      obtain ⟨real, hclimb, hpos, heldership⟩ := hclimbs hplace hreserve
      rw [min_eq_left hmax] at hclimb
      obtain ⟨hfinal, hnone, hend⟩ := climbToReal_place hclimb
      have hbelow : ∀ i, l ≤ i → i < l + (step.finalHostLvl - l) →
          hasPlace view reserve i = false := by
        intro i hi hlt
        rcases Nat.eq_or_lt_of_le hi with rfl | hi
        · exact hplace
        · exact hnone i hi (by omega)
      have hplaces := placeOf_eq hbelow
      rw [show l + (step.finalHostLvl - l) = step.finalHostLvl by omega] at hplaces
      rcases hend with ⟨⟨r', rfl⟩, hlt, htrue⟩ | ⟨rfl, hend⟩
      · exact .inl ⟨hplaces.2 (by omega) htrue, by omega, r'.pos, r'.eldership, hpos, heldership⟩
      · refine .inr ⟨fun p hp => ?_, by omega, hpos⟩
        have := hplaces.1 p hp
        omega

/-- Coordinators that all answer make an answer. -/
lemma exists_answer {g : TupleGNode} {l maxHostLvl : ℕ}
    (hinside : iAmInside g view = true)
    (hreal : tupleHasVirtualPos (makeTupleFromLevel 0 view) view = false)
    (hlevel : g.level view.levels = l) (hmax : l ≤ min maxHostLvl view.levels)
    (hreserve : ∀ i, (reserve i).isSome) :
    ∃ step, executeSearch view reserve g maxHostLvl = some step ∧ step.minHostLvl = l := by
  have hclimb : ∀ n lvl, ∃ e, climbToReal view reserve lvl n = some e := by
    intro n
    induction n with
    | zero => exact fun lvl => ⟨_, rfl⟩
    | succ n ih =>
        intro lvl
        obtain ⟨r, hr⟩ := Option.isSome_iff_exists.mp (hreserve lvl)
        rw [climbToReal, hr]
        simp only
        split_ifs
        · exact ⟨_, rfl⟩
        · exact ih (lvl + 1)
  obtain ⟨r, hr⟩ := Option.isSome_iff_exists.mp (hreserve l)
  have hfirst : firstReservation reserve l (min maxHostLvl view.levels + 1 - l) = some (l, r) := by
    rw [show min maxHostLvl view.levels + 1 - l = min maxHostLvl view.levels - l + 1 by omega,
      firstReservation, hr]
  rw [executeSearch, hinside, hreal]
  simp only [Bool.not_true, Bool.false_eq_true, if_false, hlevel, hfirst, Option.bind_eq_bind,
    Option.bind_some]
  split_ifs
  · exact ⟨_, rfl, rfl⟩
  · obtain ⟨e, he⟩ := hclimb (min maxHostLvl view.levels + 1 - (l + 1)) (l + 1)
    rw [he]
    exact ⟨_, rfl, rfl⟩

end Places

/-! ## What every g-node would answer -/

/-- The hosts, each under the positions of its g-node: the node that answers and the reservations
its coordinators make, the adjacent g-nodes, and what exploring one of them tells.  Tuples come off
the wire with an eldership for every position. -/
structure Hosts where
  node : List UInt32 → QspnView
  reserve : List UInt32 → ℕ → Option Reservation
  adjacent : List UInt32 → List PairTupleGNodeInt
  explored : List UInt32 → TupleGNode → TupleGNode
  length_adjacent : ∀ g, ∀ adj ∈ adjacent g, adj.gnode.eldership.length = adj.gnode.pos.length
  length_explored : ∀ g n, (explored g n).eldership.length = (explored g n).pos.length

namespace Hosts

/-- The first level from `l` on at which a g-node has a place. -/
def place (hosts : Hosts) (l : ℕ) (g : List UInt32) : Option ℕ :=
  placeOf (hosts.node g) (hosts.reserve g) l

/-- An adjacent g-node as it is met at level `l`: a larger one is explored. -/
def met (hosts : Hosts) (view : QspnView) (l : ℕ) (g : List UInt32) (n : TupleGNode) :
    TupleGNode :=
  if l < n.level view.levels then hosts.explored g n else n

lemma length_met (hosts : Hosts) (view : QspnView) (l : ℕ) {g : List UInt32}
    {adj : PairTupleGNodeInt} (h : adj ∈ hosts.adjacent g) :
    (hosts.met view l g adj.gnode).eldership.length =
      (hosts.met view l g adj.gnode).pos.length := by
  unfold met
  split_ifs
  · exact hosts.length_explored g adj.gnode
  · exact hosts.length_adjacent g adj h

end Hosts

section Nearest

variable (view : QspnView) (hosts : Hosts) (l : ℕ)

/-- A tuple that is a real g-node of level `l`. -/
def RealGnode (n : TupleGNode) : Prop :=
  n.level view.levels = l ∧ tupleHasVirtualPos n view = false

/-- One adjacency step, between real g-nodes of level `l`. -/
def Adjacent (g g' : List UInt32) : Prop :=
  ∃ adj ∈ hosts.adjacent g, RealGnode view l (hosts.met view l g adj.gnode) ∧
    (hosts.met view l g adj.gnode).pos = g'

/-- The g-nodes within reach of mine, with the steps to them. -/
abbrev Within : ℕ → List UInt32 → Prop :=
  Walk (Adjacent view hosts l) (makeTupleFromLevel l view).pos

/-- No request is lost.  A host within reach answers as `execute_search` does, for its level `l`
first, and always with the same adjacent g-nodes. -/
structure Steady (router : SearchRouter) : Prop where
  levels : ∀ g, (hosts.node g).levels = view.levels
  search : ∀ {k g}, Within view hosts l k g → ∀ call hops hop maxHostLvl id,
    hop.visitingGnode.pos = g → l ≤ maxHostLvl ∨ maxHostLvl = view.levels →
      ∃ step, executeSearch (hosts.node g) (hosts.reserve g) hop.visitingGnode maxHostLvl =
          some step ∧ step.minHostLvl = l ∧
        router.sendSearchRequest call (hops ++ [hop]) maxHostLvl id =
          some { step with setAdjacent := hosts.adjacent g }
  explore : ∀ {k g}, Within view hosts l k g → ∀ call hops hop n, hop.visitingGnode.pos = g →
    router.sendExploreRequest call (hops ++ [hop] ++ [⟨n, none⟩]) l = some (hosts.explored g n)

/-- The g-nodes that are asked from a state of the search on. -/
def visits (F : Type) [Float64 F] (router : SearchRouter) (id : Int32) (okHostLvl : ℕ) :
    ℕ → Bfs → List (List UInt32)
  | 0, _ => []
  | fuel + 1, b =>
      match b.queue with
      | [] => []
      | current :: _ =>
          if tooFar F b.prevSolDistance current.distance then []
          else current.data.visitingGnode.pos ::
            match bfsStep F view router id okHostLvl b with
            | .done _ => []
            | .more b' => visits F router id okHostLvl fuel b'

/-- The search stopped at a step too far from the last of these solutions. -/
def Cutoff (F : Type) [Float64 F] (router : SearchRouter) (id : Int32) (okHostLvl : ℕ)
    (solutions : List MigrationSolution) : Prop :=
  ∃ b current sol, Reached F view router id l okHostLvl b ∧ b.queue.head? = some current ∧
    b.solutions = solutions ∧ solutions.getLast? = some sol ∧
    tooFar F (some sol.distance) current.distance

/-- The numbers of steps to hosts that are good enough. -/
def goodDistances (okHostLvl : ℕ) : Set ℕ :=
  {k | ∃ g, Within view hosts l k g ∧ ∃ p ∈ hosts.place l g, p ≤ okHostLvl}

/-- **What a search should find.**  If a host within reach is good enough, the nearest such host,
unless the search is cut off; otherwise the best place of the g-nodes that were asked. -/
structure FindsNearest (F : Type) [Float64 F] (router : SearchRouter) (id : Int32)
    (okHostLvl fuel : ℕ) (solutions : List MigrationSolution) : Prop where
  nearest : (goodDistances view hosts l okHostLvl).Nonempty →
    Cutoff view l F router id okHostLvl solutions ∨
      ∃ sol, solutions.getLast? = some sol ∧ sol.finalHostLvl ≤ okHostLvl ∧
        IsLeast (goodDistances view hosts l okHostLvl) sol.distance
  best : goodDistances view hosts l okHostLvl = ∅ → ∀ p,
    solutions.getLast?.map MigrationSolution.finalHostLvl = some p ↔
      IsLeast {p | ∃ g ∈ visits view F router id okHostLvl fuel (initialBfs view l),
        p ∈ hosts.place l g} p

/-! ## The g-nodes the search knows -/

/-- A step with its distance and the positions of its g-node. -/
def SolutionStep.found (s : SolutionStep) : ℕ × List UInt32 :=
  (s.distance, s.data.visitingGnode.pos)

/-- The g-nodes that were expanded or that wait are what a breadth-first search knows. -/
structure Spreads (b : Bfs) (expanded : List (ℕ × List UInt32)) : Prop where
  frontier : Frontier (Adjacent view hosts l) (makeTupleFromLevel l view).pos expanded
    (b.queue.map SolutionStep.found)
  visited : ∀ t ∈ b.visited, ∃ e ∈ expanded ++ b.queue.map SolutionStep.found, e.2 = t.pos
  length : ∀ s ∈ b.queue, ∀ q ∈ s.chain, q.visitingGnode.pos.length = view.levels - l
  eldership : ∀ s ∈ b.queue,
    s.data.visitingGnode.eldership.length = s.data.visitingGnode.pos.length
  parents : ∀ s ∈ b.queue, ∀ q ∈ s.parents,
    ∃ e ∈ expanded ++ b.queue.map SolutionStep.found, e.2 = q.visitingGnode.pos

/-- The steps to the g-nodes adjacent to `current` that are new, and nothing else. -/
structure Spread (current : SolutionStep) (b b' : Bfs) : Prop where
  queue : ∃ new, b'.queue = b.queue ++ new ∧ ∀ s ∈ new, s.parents = current.chain ∧
    s.data.visitingGnode.pos.length = view.levels - l ∧
    s.data.visitingGnode.eldership.length = s.data.visitingGnode.pos.length ∧
    Adjacent view hosts l current.data.visitingGnode.pos s.data.visitingGnode.pos
  seen : ∀ t ∈ b.visited, t ∈ b'.visited
  visited : ∀ t ∈ b'.visited, t ∈ b.visited ∨ ∃ s ∈ b'.queue, s.data.visitingGnode.pos = t.pos
  solutions : b'.solutions = b.solutions
  maxHostLvl : b'.maxHostLvl = b.maxHostLvl
  prevSolDistance : b'.prevSolDistance = b.prevSolDistance

/-- A g-node that is no news at `current`. -/
def Known (current : SolutionStep) (b : Bfs) (g : List UInt32) : Prop :=
  (∃ t ∈ b.visited, t.pos = g) ∨ ∃ q ∈ current.chain, q.visitingGnode.pos = g

variable {view hosts l}

lemma Spread.refl (current : SolutionStep) (b : Bfs) : Spread view hosts l current b b :=
  ⟨⟨[], (List.append_nil _).symm, List.forall_mem_nil _⟩, fun _ ht => ht, fun _ ht => .inl ht,
    rfl, rfl, rfl⟩

lemma Spread.trans {current : SolutionStep} {b b' b'' : Bfs}
    (h : Spread view hosts l current b b') (h' : Spread view hosts l current b' b'') :
    Spread view hosts l current b b'' := by
  obtain ⟨new, hqueue, hnew⟩ := h.queue
  obtain ⟨new', hqueue', hnew'⟩ := h'.queue
  refine ⟨⟨new ++ new', ?_, ?_⟩, fun t ht => h'.seen t (h.seen t ht), fun t ht => ?_,
    h'.solutions.trans h.solutions, h'.maxHostLvl.trans h.maxHostLvl,
    h'.prevSolDistance.trans h.prevSolDistance⟩
  · rw [hqueue', hqueue, List.append_assoc]
  · intro s hs
    rcases List.mem_append.mp hs with hs | hs
    · exact hnew s hs
    · exact hnew' s hs
  · rcases h'.visited t ht with ht | ht
    · rcases h.visited t ht with ht | ⟨s, hs, heq⟩
      · exact .inl ht
      · exact .inr ⟨s, hqueue' ▸ List.mem_append_left _ hs, heq⟩
    · exact .inr ht

lemma Known.mono {current : SolutionStep} {b b' : Bfs} {g : List UInt32}
    (h : Known current b g) (hspread : Spread view hosts l current b b') : Known current b' g := by
  rcases h with ⟨t, ht, heq⟩ | hchain
  · exact .inl ⟨t, hspread.seen t ht, heq⟩
  · exact .inr hchain

section Expand

variable {router : SearchRouter} {current : SolutionStep} {step : SearchStepResult} {k : ℕ}

lemma getPathHops_concat (current : SolutionStep) :
    ∃ hops hop, getPathHops current = hops ++ [hop] ∧
      hop.visitingGnode = current.data.visitingGnode := by
  refine ⟨current.parents.reverse.map fun s => ⟨s.visitingGnode, s.previousMigratingGnode⟩,
    ⟨current.data.visitingGnode, current.data.previousMigratingGnode⟩, ?_, rfl⟩
  rw [getPathHops, SolutionStep.chain, List.reverse_cons, List.map_append, List.map_singleton]

/-- Exploring tells the g-node that is met. -/
lemma Steady.meets (h : Steady view hosts l router)
    (walk : Within view hosts l k current.data.visitingGnode.pos) (b : Bfs)
    (adj : PairTupleGNodeInt) :
    ∃ calls, exploreAdjacent view router current l b adj =
      ({ b with calls }, some (hosts.met view l current.data.visitingGnode.pos adj.gnode)) := by
  unfold exploreAdjacent Hosts.met
  split_ifs
  · obtain ⟨hops, hop, hhops, hgnode⟩ := getPathHops_concat current
    rw [hhops, h.explore walk b.calls hops hop adj.gnode (by rw [hgnode])]
    exact ⟨_, rfl⟩
  · exact ⟨b.calls, rfl⟩

/-- **One adjacent g-node.**  A real one is known afterwards. -/
lemma Steady.spread_adjacent (h : Steady view hosts l router) (hl : l ≤ view.levels)
    (walk : Within view hosts l k current.data.visitingGnode.pos)
    (hchain : ∀ q ∈ current.chain, q.visitingGnode.pos.length = view.levels - l)
    (hmin : step.minHostLvl = l) {adj : PairTupleGNodeInt}
    (hadj : adj ∈ hosts.adjacent current.data.visitingGnode.pos) (b : Bfs) :
    Spread view hosts l current b (expandAdjacent view router current step b adj) ∧
      (RealGnode view l (hosts.met view l current.data.visitingGnode.pos adj.gnode) →
        Known current (expandAdjacent view router current step b adj)
          (hosts.met view l current.data.visitingGnode.pos adj.gnode).pos) := by
  obtain ⟨calls, hexplore⟩ := h.meets walk b adj
  have hcalls : Spread view hosts l current b { b with calls } :=
    ⟨⟨[], (List.append_nil _).symm, List.forall_mem_nil _⟩, fun _ ht => ht, fun _ ht => .inl ht,
      rfl, rfl, rfl⟩
  have hmet := hosts.length_met view l hadj
  rw [expandAdjacent, hmin, hexplore]
  generalize hn : hosts.met view l current.data.visitingGnode.pos adj.gnode = n at hmet
  simp only
  split_ifs with hlevel hvirt hvisited hprev
  · exact ⟨hcalls, fun hreal => absurd hreal.1 hlevel⟩
  · refine ⟨hcalls, fun hreal => absurd hreal.2 ?_⟩
    rw [hvirt]
    exact Bool.false_ne_true.symm
  · refine ⟨hcalls, fun _ => .inl ?_⟩
    obtain ⟨t, ht, heq⟩ := List.any_eq_true.mp hvisited
    exact ⟨t, ht, of_decide_eq_true heq⟩
  · refine ⟨hcalls, fun _ => .inr ?_⟩
    obtain ⟨q, hq, hbigger⟩ := List.any_eq_true.mp hprev
    refine ⟨q, hq, ?_⟩
    cases hcut : q.visitingGnode.truncateToLevel l view.levels with
    | none =>
        rw [hcut] at hbigger
        cases hbigger
    | some bigger =>
        rw [hcut, Option.any_some] at hbigger
        obtain ⟨-, -, -, hpos, -, -⟩ := TupleGNode.truncateToLevel_eq_some hcut
        rw [hchain q hq, Nat.sub_self, List.drop_zero] at hpos
        rw [← hpos]
        exact of_decide_eq_true hbigger
  · have hreal : RealGnode view l n := ⟨not_not.mp hlevel, by simpa using hvirt⟩
    refine ⟨hcalls.trans ⟨⟨_, rfl, fun s hs => ?_⟩, ?_, ?_, rfl, rfl, rfl⟩, fun _ => .inl ?_⟩
    · rw [List.mem_singleton.mp hs]
      exact ⟨rfl, length_of_not_virtual hl (not_not.mp hlevel) hvirt, hmet, adj, hadj, hn ▸ hreal,
        congrArg TupleGNode.pos hn⟩
    · intro t ht
      exact List.mem_append_left _ ht
    · intro t ht
      rcases List.mem_append.mp ht with ht | ht
      · exact .inl ht
      · refine .inr ⟨_, List.mem_append_right _ (List.mem_singleton_self _), ?_⟩
        rw [List.mem_singleton.mp ht]
    · exact ⟨n, List.mem_append_right _ (List.mem_singleton_self n), rfl⟩

/-- **All adjacent g-nodes.** -/
lemma Steady.spread (h : Steady view hosts l router) (hl : l ≤ view.levels)
    (walk : Within view hosts l k current.data.visitingGnode.pos)
    (hchain : ∀ q ∈ current.chain, q.visitingGnode.pos.length = view.levels - l)
    (hmin : step.minHostLvl = l) (adjs : List PairTupleGNodeInt)
    (hadjs : ∀ adj ∈ adjs, adj ∈ hosts.adjacent current.data.visitingGnode.pos) (b : Bfs) :
    Spread view hosts l current b (adjs.foldl (expandAdjacent view router current step) b) ∧
      ∀ adj ∈ adjs,
        RealGnode view l (hosts.met view l current.data.visitingGnode.pos adj.gnode) →
        Known current (adjs.foldl (expandAdjacent view router current step) b)
          (hosts.met view l current.data.visitingGnode.pos adj.gnode).pos := by
  induction adjs generalizing b with
  | nil => exact ⟨Spread.refl current b, List.forall_mem_nil _⟩
  | cons adj adjs ih =>
      obtain ⟨hfirst, hknown⟩ :=
        h.spread_adjacent hl walk hchain hmin (hadjs adj List.mem_cons_self) b
      obtain ⟨hrest, hknowns⟩ := ih (fun adj' hadj' => hadjs adj' (List.mem_cons_of_mem _ hadj'))
        (expandAdjacent view router current step b adj)
      refine ⟨hfirst.trans hrest, fun adj' hadj' hreal => ?_⟩
      rcases List.mem_cons.mp hadj' with rfl | hadj'
      · exact (hknown hreal).mono hrest
      · exact hknowns adj' hadj' hreal

end Expand

/-- **The first g-node that waits is expanded.** -/
lemma Spreads.expand {router : SearchRouter} {current : SolutionStep} {queue : List SolutionStep}
    {step : SearchStepResult} {b : Bfs} {expanded : List (ℕ × List UInt32)}
    (h : Spreads view hosts l b expanded) (hsteady : Steady view hosts l router)
    (hl : l ≤ view.levels) (hqueue : b.queue = current :: queue) (hmin : step.minHostLvl = l)
    (hadjacent : step.setAdjacent = hosts.adjacent current.data.visitingGnode.pos) {b' : Bfs}
    (hqueue' : b'.queue = queue) (hvisited : b'.visited = b.visited) :
    Spread view hosts l current b'
        (step.setAdjacent.foldl (expandAdjacent view router current step) b') ∧
      Spreads view hosts l (step.setAdjacent.foldl (expandAdjacent view router current step) b')
        (current.found :: expanded) := by
  have hcurrent : current ∈ b.queue := hqueue ▸ List.mem_cons_self
  have hwaiting : b.queue.map SolutionStep.found =
      current.found :: queue.map SolutionStep.found := by rw [hqueue, List.map_cons]
  have hfrontier := h.frontier
  rw [hwaiting] at hfrontier
  have walk := hfrontier.walk current.found (List.mem_append_right _ List.mem_cons_self)
  obtain ⟨hspread, hknown⟩ := hsteady.spread hl walk (h.length current hcurrent) hmin
    step.setAdjacent (fun adj hadj => hadjacent ▸ hadj) b'
  generalize step.setAdjacent.foldl (expandAdjacent view router current step) b' = b'' at *
  obtain ⟨new, hnews, hnew⟩ := hspread.queue
  rw [hqueue'] at hnews
  -- what was known still is
  have hold : ∀ e ∈ expanded ++ b.queue.map SolutionStep.found,
      e ∈ current.found :: expanded ++ b''.queue.map SolutionStep.found := by
    intro e he
    rw [hwaiting] at he
    rw [hnews, List.map_append]
    simp only [List.mem_append, List.mem_cons] at he ⊢
    tauto
  have hseen : ∀ t ∈ b''.visited,
      ∃ e ∈ current.found :: expanded ++ b''.queue.map SolutionStep.found, e.2 = t.pos := by
    intro t ht
    rcases hspread.visited t ht with ht | ⟨s, hs, heq⟩
    · obtain ⟨e, he, heq⟩ := h.visited t (hvisited ▸ ht)
      exact ⟨e, hold e he, heq⟩
    · exact ⟨s.found, List.mem_append_right _ (List.mem_map_of_mem hs), heq⟩
  have hchain : ∀ q ∈ current.chain,
      ∃ e ∈ current.found :: expanded ++ b''.queue.map SolutionStep.found,
        e.2 = q.visitingGnode.pos := by
    intro q hq
    rcases List.mem_cons.mp hq with rfl | hq
    · exact ⟨current.found, List.mem_append_left _ List.mem_cons_self, rfl⟩
    · obtain ⟨e, he, heq⟩ := h.parents current hcurrent q hq
      exact ⟨e, hold e he, heq⟩
  have hsteps : ∀ s ∈ b''.queue, s ∈ b.queue ∨ s ∈ new := by
    intro s hs
    rw [hnews] at hs
    rcases List.mem_append.mp hs with hs | hs
    · exact .inl (hqueue ▸ List.mem_cons_of_mem _ hs)
    · exact .inr hs
  refine ⟨hspread, ?_, hseen, fun s hs q hq => ?_, fun s hs => ?_, fun s hs q hq => ?_⟩
  · rw [hnews, List.map_append]
    refine hfrontier.expand (fun w hw => ?_) (fun g hg => ?_)
    · obtain ⟨s, hs, rfl⟩ := List.mem_map.mp hw
      obtain ⟨hparents, -, -, hadj⟩ := hnew s hs
      refine ⟨?_, hadj⟩
      rw [SolutionStep.found, SolutionStep.distance, hparents]
      rfl
    · obtain ⟨adj, hadj, hreal, rfl⟩ := hg
      have hex : ∃ e ∈ current.found :: expanded ++ b''.queue.map SolutionStep.found,
          e.2 = (hosts.met view l current.data.visitingGnode.pos adj.gnode).pos := by
        rcases hknown adj (hadjacent ▸ hadj) hreal with ⟨t, ht, heq⟩ | ⟨q, hq, heq⟩
        · exact heq ▸ hseen t ht
        · exact heq ▸ hchain q hq
      obtain ⟨e, he, heq⟩ := hex
      refine ⟨e, ?_, heq⟩
      rw [hnews, List.map_append] at he
      simp only [List.mem_append, List.mem_cons] at he ⊢
      tauto
  · rcases hsteps s hs with hs | hs
    · exact h.length s hs q hq
    · obtain ⟨hparents, hlength, -⟩ := hnew s hs
      rcases List.mem_cons.mp hq with rfl | hq
      · exact hlength
      · rw [hparents] at hq
        exact h.length current hcurrent q hq
  · rcases hsteps s hs with hs | hs
    · exact h.eldership s hs
    · exact (hnew s hs).2.2.1
  · rcases hsteps s hs with hs | hs
    · obtain ⟨e, he, heq⟩ := h.parents s hs q hq
      exact ⟨e, hold e he, heq⟩
    · rw [(hnew s hs).1] at hq
      exact hchain q hq

/-- At first only my own g-node is known. -/
lemma spreads_initial (view : QspnView) (hosts : Hosts) (l : ℕ) :
    Spreads view hosts l (initialBfs view l) [] where
  frontier := Frontier.start _ _
  visited t ht := by
    rw [List.mem_singleton.mp ht]
    exact ⟨_, List.mem_singleton_self _, rfl⟩
  length s hs q hq := by
    rw [List.mem_singleton.mp hs] at hq
    rw [List.mem_singleton.mp hq]
    exact length_makeTupleFromLevel l view
  eldership s hs := by
    rw [List.mem_singleton.mp hs]
    simp [rootStep, makeTupleFromLevel]
  parents s hs q hq := by
    rw [List.mem_singleton.mp hs] at hq
    cases hq

/-! ## One visit -/

section Visit

variable {F : Type} [Float64 F] {router : SearchRouter} {id : Int32} {okHostLvl : ℕ}
  {current : SolutionStep} {queue : List SolutionStep} {b : Bfs}
  {expanded : List (ℕ × List UInt32)}

/-- The g-node that waits first is asked, and this is what its answer leads to. -/
lemma Spreads.answer (id : Int32) (okHostLvl : ℕ) (h : Spreads view hosts l b expanded)
    (hsteady : Steady view hosts l router) (hl : l ≤ view.levels)
    (hqueue : b.queue = current :: queue)
    (hnear : ¬tooFar F b.prevSolDistance current.distance) (hle : l ≤ b.maxHostLvl)
    (hmax : b.maxHostLvl ≤ view.levels) :
    ∃ step, step.minHostLvl = l ∧
      step.setAdjacent = hosts.adjacent current.data.visitingGnode.pos ∧
      (hosts.place l current.data.visitingGnode.pos = some step.finalHostLvl ∧
          step.finalHostLvl ≤ b.maxHostLvl ∧
          (∃ pos eldership, step.realNewPos = some pos ∧ step.realNewEldership = some eldership) ∨
        (∀ p ∈ hosts.place l current.data.visitingGnode.pos, b.maxHostLvl < p) ∧
          step.finalHostLvl = b.maxHostLvl + 1 ∧ step.realNewPos = none) ∧
      bfsStep F view router id okHostLvl b =
        if view.levels < step.finalHostLvl then .more { b with queue, calls := b.calls + 1 }
        else
          onAnswer view router okHostLvl { b with queue, calls := b.calls + 1 } current step := by
  have hcurrent : current ∈ b.queue := hqueue ▸ List.mem_cons_self
  have walk : Within view hosts l current.distance current.data.visitingGnode.pos :=
    h.frontier.walk current.found (List.mem_append_right _ (List.mem_map_of_mem hcurrent))
  have hlength := h.length current hcurrent current.data List.mem_cons_self
  have heldership := h.eldership current hcurrent
  obtain ⟨hops, hop, hhops, hgnode⟩ := getPathHops_concat current
  obtain ⟨step, hstep, hmin, hsend⟩ := hsteady.search walk b.calls hops hop b.maxHostLvl id
    (congrArg TupleGNode.pos hgnode) (.inl hle)
  have hlevels := hsteady.levels current.data.visitingGnode.pos
  have hlevel : hop.visitingGnode.level
      (hosts.node current.data.visitingGnode.pos).levels = l := by
    rw [hlevels, hgnode, TupleGNode.level, hlength]
    omega
  have hplace := executeSearch_place hstep hmin hlevel (hlevels ▸ hmax)
  have hfinal : l ≤ step.finalHostLvl := by
    rcases hplace with ⟨hplace, -⟩ | ⟨-, hfinal, -⟩
    · exact (List.mem_range'_1.mp (List.mem_of_find?_eq_some hplace)).1
    · omega
  obtain ⟨answer, hanswer⟩ : ∃ answer : SearchStepResult, answer =
      { step with setAdjacent := hosts.adjacent current.data.visitingGnode.pos } := ⟨_, rfl⟩
  have hmin' : answer.minHostLvl = l := by rw [hanswer, hmin]
  have hbad : badAnswer view b.maxHostLvl answer = decide (view.levels < answer.finalHostLvl) := by
    rw [badAnswer, hmin', hanswer]
    refine decide_eq_decide.mpr ⟨fun hbad => ?_, fun hlt => .inr (.inr (.inl hlt))⟩
    simp only at hbad ⊢
    omega
  -- the g-node has the level it was asked for, so its name is not cut
  have hcut : current.data.visitingGnode.truncateToLevel l view.levels =
      some current.data.visitingGnode := by
    rw [TupleGNode.truncateToLevel_of_le hl hlength.ge heldership, hlength, Nat.sub_self,
      List.drop_zero, List.drop_zero]
  refine ⟨answer, hmin', by rw [hanswer], by rw [hanswer]; exact hplace, ?_⟩
  rw [bfsStep]
  simp only [hqueue, hhops, hsend]
  rw [if_neg hnear, ← hanswer, hbad]
  simp only [hmin, hcut, decide_eq_true_eq]

/-- What becomes of the search at one g-node. -/
inductive Visit (view : QspnView) (hosts : Hosts) (l okHostLvl : ℕ) (b : Bfs)
    (current : SolutionStep) (queue : List SolutionStep) (expanded : List (ℕ × List UInt32)) :
    Progress → Prop
  | accept (sol : MigrationSolution) (distance : sol.distance = current.distance)
      (place : sol.finalHostLvl ∈ hosts.place l current.data.visitingGnode.pos)
      (ok : sol.finalHostLvl ≤ okHostLvl) :
      Visit view hosts l okHostLvl b current queue expanded (.done (b.solutions ++ [sol]))
  | record (sol : MigrationSolution) (b' : Bfs)
      (place : sol.finalHostLvl ∈ hosts.place l current.data.visitingGnode.pos)
      (higher : okHostLvl < sol.finalHostLvl) (best : sol.finalHostLvl ≤ b.maxHostLvl)
      (spreads : Spreads view hosts l b' (current.found :: expanded))
      (solutions : b'.solutions = b.solutions ++ [sol])
      (max : b'.maxHostLvl = sol.finalHostLvl - 1)
      (prev : b'.prevSolDistance = some sol.distance) :
      Visit view hosts l okHostLvl b current queue expanded (.more b')
  | pass (b' : Bfs)
      (full : ∀ p ∈ hosts.place l current.data.visitingGnode.pos, b.maxHostLvl < p)
      (below : b.maxHostLvl < view.levels)
      (spreads : Spreads view hosts l b' (current.found :: expanded))
      (solutions : b'.solutions = b.solutions) (max : b'.maxHostLvl = b.maxHostLvl)
      (prev : b'.prevSolDistance = b.prevSolDistance) :
      Visit view hosts l okHostLvl b current queue expanded (.more b')
  | drop (full : ∀ p ∈ hosts.place l current.data.visitingGnode.pos, b.maxHostLvl < p)
      (top : b.maxHostLvl = view.levels) :
      Visit view hosts l okHostLvl b current queue expanded
        (.more { b with queue, calls := b.calls + 1 })

/-- **One visit.**  A full g-node is passed, unless the question was about all levels. -/
lemma Spreads.visit (id : Int32) (h : Spreads view hosts l b expanded)
    (hsteady : Steady view hosts l router) (hl : l ≤ view.levels)
    (hqueue : b.queue = current :: queue)
    (hnear : ¬tooFar F b.prevSolDistance current.distance) (hle : l ≤ b.maxHostLvl)
    (hmax : b.maxHostLvl ≤ view.levels) (hlok : l ≤ okHostLvl)
    (hok : okHostLvl ≤ b.maxHostLvl ∨ b.maxHostLvl = view.levels) :
    Visit view hosts l okHostLvl b current queue expanded
      (bfsStep F view router id okHostLvl b) := by
  obtain ⟨step, hmin, hadjacent, hplace, hstep⟩ :=
    h.answer id okHostLvl hsteady hl hqueue hnear hle hmax
  have hexpand := fun (b' : Bfs) (hqueue' : b'.queue = queue) (hvisited : b'.visited = b.visited) =>
    h.expand hsteady hl hqueue hmin hadjacent hqueue' hvisited
  rw [hstep]
  rcases hplace with ⟨hplace, hbest, pos, eldership, hpos, heldership⟩ | ⟨hfull, hfinal, hpos⟩
  · have hresolved : resolved current step = some ⟨current, step.finalHostLvl, pos, eldership⟩ := by
      rw [resolved, hpos, heldership]
    rw [if_neg (by omega), onAnswer, hresolved]
    simp only
    split_ifs with hgood hsame
    · exact .accept _ rfl hplace hgood
    · omega
    · obtain ⟨hspread, hspreads⟩ := hexpand
        (Bfs.record { b with queue, calls := b.calls + 1 }
          ⟨current, step.finalHostLvl, pos, eldership⟩) rfl rfl
      exact .record _ _ hplace (not_le.mp hgood) hbest hspreads hspread.solutions
        hspread.maxHostLvl hspread.prevSolDistance
  · split_ifs with htop
    · exact .drop hfull (by omega)
    · have hresolved : resolved current step = none := by
        rw [resolved, hpos]
      obtain ⟨hspread, hspreads⟩ := hexpand { b with queue, calls := b.calls + 1 } rfl rfl
      rw [onAnswer, hresolved]
      simp only
      rw [if_neg (by omega), if_neg (by omega), if_neg (by omega)]
      exact .pass _ hfull (by omega) hspreads hspread.solutions hspread.maxHostLvl
        hspread.prevSolDistance

end Visit

/-! ## The whole search -/

section Run

variable {F : Type} [Float64 F] {router : SearchRouter} {id : Int32} {okHostLvl : ℕ}
  {current : SolutionStep} {queue : List SolutionStep} {b : Bfs}
  {expanded : List (ℕ × List UInt32)}

variable (view hosts l) in
/-- The invariant of the search once a place was found: the last solution is the best place of the
g-nodes that were asked, and nobody asked is good enough. -/
structure Searching (okHostLvl : ℕ) (b : Bfs) (expanded : List (ℕ × List UInt32)) : Prop where
  spreads : Spreads view hosts l b expanded
  ok_le : okHostLvl ≤ b.maxHostLvl
  max_lt : b.maxHostLvl < view.levels
  higher : ∀ e ∈ expanded, ∀ p ∈ hosts.place l e.2, b.maxHostLvl < p
  best : ∃ sol, b.solutions.getLast? = some sol ∧ sol.finalHostLvl = b.maxHostLvl + 1 ∧
    b.prevSolDistance = some sol.distance ∧ ∃ e ∈ expanded, sol.finalHostLvl ∈ hosts.place l e.2

/-- A better place is found, or a full g-node passed: the search goes on as before. -/
lemma Searching.expand (h : Searching view hosts l okHostLvl b expanded) {b' : Bfs}
    (hvisit : Visit view hosts l okHostLvl b current queue expanded (.more b')) :
    Searching view hosts l okHostLvl b' (current.found :: expanded) := by
  obtain ⟨sol, hlast, hfinal, hprev, e, he, hplace⟩ := h.best
  have := h.ok_le
  have := h.max_lt
  cases hvisit with
  | record sol' b' hplace' hhigher hbest hspreads hsols hmax hprev' =>
      refine ⟨hspreads, by omega, by omega, fun e he p hp => ?_, sol', ?_, by omega, hprev',
        current.found, List.mem_cons_self, hplace'⟩
      · rcases List.mem_cons.mp he with rfl | he
        · rw [Option.mem_unique hp hplace']
          omega
        · have := h.higher e he p hp
          omega
      · rw [hsols, List.getLast?_concat]
  | pass b' hfull hbelow hspreads hsols hmax hprev' =>
      refine ⟨hspreads, by omega, by omega, fun e he p hp => ?_, sol, ?_, by omega,
        hprev'.trans hprev, e, List.mem_cons_of_mem _ he, hplace⟩
      · rw [hmax]
        rcases List.mem_cons.mp he with rfl | he
        · exact hfull p hp
        · exact h.higher e he p hp
      · rw [hsols]
        exact hlast
  | drop hfull htop => omega

/-- The first host that is good enough is a nearest one. -/
lemma Searching.isLeast (h : Searching view hosts l okHostLvl b expanded)
    (hqueue : b.queue = current :: queue) {p : ℕ}
    (hp : p ∈ hosts.place l current.data.visitingGnode.pos) (hok : p ≤ okHostLvl) :
    IsLeast (goodDistances view hosts l okHostLvl) current.distance := by
  have hfrontier := h.spreads.frontier
  rw [hqueue, List.map_cons] at hfrontier
  have walk : Within view hosts l current.distance current.data.visitingGnode.pos :=
    hfrontier.walk current.found (List.mem_append_right _ List.mem_cons_self)
  refine ⟨⟨_, walk, p, hp, hok⟩, ?_⟩
  rintro k ⟨g, hwalk, q, hq, hgood⟩
  refine hfrontier.le_of_walk hwalk fun e he heq => ?_
  subst heq
  have := h.higher e he q hq
  have := h.ok_le
  omega

/-- When no g-node waits any more, nobody within reach is good enough. -/
lemma Searching.goodDistances_eq (h : Searching view hosts l okHostLvl b expanded)
    (hqueue : b.queue = []) : goodDistances view hosts l okHostLvl = ∅ := by
  have hfrontier := h.spreads.frontier
  rw [hqueue, List.map_nil] at hfrontier
  rw [Set.eq_empty_iff_forall_notMem]
  rintro k ⟨g, hwalk, p, hp, hgood⟩
  obtain ⟨e, he, rfl⟩ := hfrontier.expanded_of_walk hwalk
  have := h.higher e he p hp
  have := h.ok_le
  omega

/-- The last solution is the best place of those asked. -/
lemma Searching.isLeast_place (h : Searching view hosts l okHostLvl b expanded) :
    ∃ sol, b.solutions.getLast? = some sol ∧ b.prevSolDistance = some sol.distance ∧
      IsLeast {p | ∃ g ∈ expanded.map Prod.snd, p ∈ hosts.place l g} sol.finalHostLvl := by
  obtain ⟨sol, hlast, hfinal, hprev, e, he, hplace⟩ := h.best
  refine ⟨sol, hlast, hprev, ⟨e.2, List.mem_map_of_mem he, hplace⟩, ?_⟩
  rintro p ⟨g, hg, hp⟩
  obtain ⟨e', he', rfl⟩ := List.mem_map.mp hg
  have := h.higher e' he' p hp
  omega

variable (view hosts l) in
/-- What the search ends with: the nearest host that is good enough, or, for want of one or because
it is cut off, the best place of those asked. -/
def EndsWell (F : Type) [Float64 F] (router : SearchRouter) (id : Int32) (okHostLvl : ℕ)
    (asked : List (List UInt32)) (solutions : List MigrationSolution) : Prop :=
  (∃ sol, solutions.getLast? = some sol ∧ sol.finalHostLvl ≤ okHostLvl ∧
      IsLeast (goodDistances view hosts l okHostLvl) sol.distance) ∨
    (Cutoff view l F router id okHostLvl solutions ∨
        goodDistances view hosts l okHostLvl = ∅) ∧
      ∃ sol, solutions.getLast? = some sol ∧
        IsLeast {p | ∃ g ∈ asked, p ∈ hosts.place l g} sol.finalHostLvl

/-- The order of the visits does not matter. -/
lemma EndsWell.perm {asked asked' : List (List UInt32)} {solutions : List MigrationSolution}
    (h : EndsWell view hosts l F router id okHostLvl asked solutions) (hperm : asked.Perm asked') :
    EndsWell view hosts l F router id okHostLvl asked' solutions := by
  rcases h with hgood | ⟨hend, sol, hlast, hleast⟩
  · exact .inl hgood
  · refine .inr ⟨hend, sol, hlast, ?_⟩
    simpa only [hperm.mem_iff] using hleast

/-- **The search from a state on.** -/
theorem Searching.run (hsteady : Steady view hosts l router) (hl : l ≤ view.levels)
    (hlok : l ≤ okHostLvl) {fuel : ℕ} {solutions : List MigrationSolution} :
    ∀ {b : Bfs} {expanded : List (ℕ × List UInt32)}, Reached F view router id l okHostLvl b →
      Searching view hosts l okHostLvl b expanded →
      bfs F view router id okHostLvl fuel b = some solutions →
      EndsWell view hosts l F router id okHostLvl
        (expanded.map Prod.snd ++ visits view F router id okHostLvl fuel b) solutions := by
  induction fuel with
  | zero =>
      intro b expanded _ _ hrun
      cases hrun
  | succ fuel ih =>
      intro b expanded hreached h hrun
      rw [bfs] at hrun
      rw [visits]
      obtain ⟨sol, hlast, hprev, hleast⟩ := h.isLeast_place
      cases hqueue : b.queue with
      | nil =>
          rw [bfsStep, hqueue] at hrun
          cases hrun
          rw [List.append_nil]
          exact .inr ⟨.inr (h.goodDistances_eq hqueue), sol, hlast, hleast⟩
      | cons current queue =>
          simp only
          split_ifs with hfar
          · rw [bfsStep, hqueue] at hrun
            simp only [hfar, if_true, Option.some.injEq] at hrun
            subst hrun
            rw [List.append_nil]
            rw [hprev] at hfar
            have hhead : b.queue.head? = some current := by rw [hqueue, List.head?_cons]
            exact .inr ⟨.inl ⟨b, current, sol, hreached, hhead, rfl, hlast, hfar⟩, sol, hlast,
              hleast⟩
          · have hvisit := h.spreads.visit (F := F) id hsteady hl hqueue hfar
              (hlok.trans h.ok_le) h.max_lt.le hlok (.inl h.ok_le)
            cases hstep : bfsStep F view router id okHostLvl b with
            | done found =>
                rw [hstep] at hrun hvisit
                cases hrun
                cases hvisit with
                | accept sol hdistance hplace hok =>
                    refine .inl ⟨sol, List.getLast?_concat, hok, ?_⟩
                    rw [hdistance]
                    exact h.isLeast hqueue hplace hok
            | more b' =>
                rw [hstep] at hrun hvisit
                exact (ih (hreached.tail hstep) (h.expand hvisit) hrun).perm List.perm_middle.symm

end Run

/-! ## From my own g-node on -/

section Root

variable {F : Type} [Float64 F] {router : SearchRouter} {id : Int32} {okHostLvl : ℕ}

/-- A host that answers has a level. -/
lemma Steady.le_levels (h : Steady view hosts l router) : l ≤ view.levels := by
  obtain ⟨step, hstep, hmin, -⟩ := h.search .root 0 [] ⟨makeTupleFromLevel l view, none⟩
    view.levels 0 rfl (.inr rfl)
  have hle := (executeSearch_min_le hstep).2
  rw [hmin, h.levels] at hle
  exact hle

lemma Steady.place_le (h : Steady view hosts l router) {g : List UInt32} {p : ℕ}
    (hp : p ∈ hosts.place l g) : p ≤ view.levels := by
  have hmem := List.mem_range'_1.mp (List.mem_of_find?_eq_some hp)
  rw [h.levels g] at hmem
  have := h.le_levels
  omega

/-- A root with a place ends well; without one it is the only g-node that is asked. -/
lemma Steady.run (h : Steady view hosts l router) (hlok : l ≤ okHostLvl) {fuel : ℕ}
    {solutions : List MigrationSolution}
    (hrun : bfs F view router id okHostLvl fuel (initialBfs view l) = some solutions) :
    (hosts.place l (makeTupleFromLevel l view).pos).isSome ∧
        EndsWell view hosts l F router id okHostLvl
          (visits view F router id okHostLvl fuel (initialBfs view l)) solutions ∨
      hosts.place l (makeTupleFromLevel l view).pos = none ∧ solutions = [] ∧
        visits view F router id okHostLvl fuel (initialBfs view l) =
          [(makeTupleFromLevel l view).pos] := by
  have hl := h.le_levels
  cases fuel with
  | zero => cases hrun
  | succ fuel =>
      have hvisit := (spreads_initial view hosts l).visit (F := F) id h hl
        (rfl : (initialBfs view l).queue = [rootStep view l]) (by simp [initialBfs, tooFar]) hl
        le_rfl hlok (.inr rfl)
      have hvisits : visits view F router id okHostLvl (fuel + 1) (initialBfs view l) =
          (makeTupleFromLevel l view).pos ::
            match bfsStep F view router id okHostLvl (initialBfs view l) with
            | .done _ => []
            | .more b' => visits view F router id okHostLvl fuel b' := rfl
      rw [hvisits]
      rw [bfs] at hrun
      cases hstep : bfsStep F view router id okHostLvl (initialBfs view l) with
      | done found =>
          rw [hstep] at hrun hvisit
          cases hrun
          cases hvisit with
          | accept sol hdistance hplace hok =>
              refine .inl ⟨Option.isSome_of_mem hplace, .inl ⟨sol, rfl, hok, ?_⟩⟩
              rw [hdistance]
              exact ⟨⟨_, .root, _, hplace, hok⟩, fun _ _ => Nat.zero_le _⟩
      | more b' =>
          rw [hstep] at hrun hvisit
          cases hvisit with
          | record sol b' hplace hhigher hbest hspreads hsols hmax hprev =>
              have hle := h.place_le hplace
              have hsearching : Searching view hosts l okHostLvl b' [(rootStep view l).found] := by
                refine ⟨hspreads, by omega, by omega, fun e he p hp => ?_, sol, ?_, by omega,
                  hprev, _, List.mem_singleton_self _, hplace⟩
                · rw [List.mem_singleton.mp he] at hp
                  rw [Option.mem_unique hp hplace]
                  omega
                · rw [hsols, List.getLast?_concat]
              exact .inl ⟨Option.isSome_of_mem hplace,
                hsearching.run h hl hlok (Relation.ReflTransGen.single hstep) hrun⟩
          | pass b' hfull hbelow hspreads hsols hmax hprev =>
              exact absurd hbelow (Nat.lt_irrefl _)
          | drop hfull htop =>
              refine .inr ⟨?_, ?_⟩
              · rw [Option.eq_none_iff_forall_not_mem]
                exact fun p hp => absurd (hfull p hp) (not_lt.mpr (h.place_le hp))
              · cases fuel with
                | zero => cases hrun
                | succ fuel =>
                    cases hrun
                    exact ⟨rfl, rfl⟩

lemma EndsWell.findsNearest {fuel : ℕ} {solutions : List MigrationSolution}
    (h : EndsWell view hosts l F router id okHostLvl
      (visits view F router id okHostLvl fuel (initialBfs view l)) solutions) :
    FindsNearest view hosts l F router id okHostLvl fuel solutions := by
  constructor
  · intro hgood
    rcases h with hnearest | ⟨hcutoff | hempty, -⟩
    · exact .inr hnearest
    · exact .inl hcutoff
    · exact absurd hempty hgood.ne_empty
  · intro hempty p
    rcases h with ⟨sol, -, -, hleast⟩ | ⟨-, sol, hlast, hleast⟩
    · rw [hempty] at hleast
      cases hleast.1
    · rw [hlast, Option.map_some, Option.some.injEq]
      refine ⟨fun heq => heq ▸ hleast, fun hp => hleast.unique hp⟩

end Root

/-- **The search finds a nearest host** that is good enough, and the best place of those asked if
there is none, exactly if the root has a place at some level, or nobody within reach is good
enough.  It always ends. -/
theorem findsNearest_iff {F : Type} [Float64 F] {router : SearchRouter} {id : Int32}
    {firstHostLvl okHostLvl ok : ℕ} (h : Steady view hosts l router)
    (hfirst : l = max firstHostLvl (view.subnetlevel + 1)) (hok : ok = max okHostLvl l) :
    (∃ fuel solutions,
        findShortestMig F fuel view router id firstHostLvl okHostLvl = some solutions) ∧
      ∀ fuel solutions,
        findShortestMig F fuel view router id firstHostLvl okHostLvl = some solutions →
          (FindsNearest view hosts l F router id ok fuel solutions ↔
            (hosts.place l (makeTupleFromLevel l view).pos).isSome ∨
              goodDistances view hosts l ok = ∅) := by
  subst hfirst hok
  refine ⟨exists_bfs F view router id _ _ _ .refl, fun fuel solutions hrun => ?_⟩
  rcases h.run (le_max_right _ _) hrun with ⟨hplace, hends⟩ | ⟨hplace, rfl, hvisits⟩
  · exact iff_of_true hends.findsNearest (.inl hplace)
  · rw [hplace, Option.isSome_none]
    constructor
    · intro hfinds
      refine .inr (Set.not_nonempty_iff_eq_empty.mp fun hgood => ?_)
      rcases hfinds.nearest hgood with ⟨_, _, _, -, -, -, hlast, -⟩ | ⟨_, hlast, -⟩
      · cases hlast
      · cases hlast
    · rintro (hsome | hempty)
      · cases hsome
      · refine ⟨fun hgood => absurd hempty hgood.ne_empty, fun _ p => ?_⟩
        rw [hvisits]
        refine iff_of_false (fun hlast => by cases hlast) ?_
        rintro ⟨⟨g, hg, hp⟩, -⟩
        rw [List.mem_singleton.mp hg, hplace] at hp
        cases hp

end Nearest

/-! ## Two g-nodes -/

lemma length_adjacencySet (view : QspnView) (l : ℕ) :
    ∀ adj ∈ adjacencySet view l, adj.gnode.eldership.length = adj.gnode.pos.length := by
  intro adj hadj
  obtain ⟨a, -, rfl⟩ := List.mem_map.mp hadj
  simp [makeTupleFromHc]

/-- A router that asks the hosts themselves. -/
def Hosts.router (hosts : Hosts) : SearchRouter where
  sendSearchRequest _ hops maxHostLvl _ :=
    hops.getLast?.bind fun hop =>
      (executeSearch (hosts.node hop.visitingGnode.pos) (hosts.reserve hop.visitingGnode.pos)
        hop.visitingGnode maxHostLvl).map fun step =>
          { step with setAdjacent := hosts.adjacent hop.visitingGnode.pos }
  sendExploreRequest _ hops _ :=
    hops.getLast?.bind fun last => hops.dropLast.getLast?.map fun hop =>
      hosts.explored hop.visitingGnode.pos last.visitingGnode
  sendMigRequest _ _ := true

/-- It is steady where real hosts answer for their own g-nodes, with coordinators that answer. -/
lemma Hosts.steady_router {view : QspnView} {hosts : Hosts} {l : ℕ} (hl : l ≤ view.levels)
    (hlevels : ∀ g, (hosts.node g).levels = view.levels) (hreal : ∀ g, (hosts.node g).IsReal)
    (hreserve : ∀ g i, (hosts.reserve g i).isSome)
    (hname : ∀ {k g}, Within view hosts l k g → g = (makeTupleFromLevel l (hosts.node g)).pos) :
    Steady view hosts l hosts.router where
  levels := hlevels
  search {k g} walk call hops hop maxHostLvl id hpos hmax := by
    have hpos' : hop.visitingGnode.pos = (makeTupleFromLevel l (hosts.node g)).pos :=
      hpos.trans (hname walk)
    have hlength : hop.visitingGnode.pos.length = view.levels - l := by
      rw [hpos', length_makeTupleFromLevel, hlevels]
    have hinside : iAmInside hop.visitingGnode (hosts.node g) = true := by
      rw [iAmInside_iff, hlength, hlevels]
      refine ⟨Nat.sub_le _ _, ?_⟩
      rw [hpos', makeTupleFromLevel_eq_drop, Nat.sub_sub_self hl]
    have hlevel : hop.visitingGnode.level (hosts.node g).levels = l := by
      rw [TupleGNode.level, hlength, hlevels, Nat.sub_sub_self hl]
    have hmax' : l ≤ min maxHostLvl (hosts.node g).levels := by
      rw [hlevels]
      omega
    obtain ⟨step, hstep, hmin⟩ := exists_answer hinside
      (tupleHasVirtualPos_of_name (hreal g) rfl) hlevel hmax' (hreserve g)
    refine ⟨step, hstep, hmin, ?_⟩
    simp only [router, List.getLast?_concat, Option.bind_some, hpos, hstep, Option.map_some]
  explore _ call hops hop n hpos := by
    simp only [router, List.getLast?_concat, Option.bind_some, List.dropLast_concat,
      Option.map_some, hpos]

lemma room_two : 0 < (2 : UInt32).toNat := by decide

/-- The g-nodes 0 and 1 of a network of two levels: 1 has a free position, 0 has none, and there is
the position `top` on the level above. -/
def neighbours (top : UInt32) : Hosts where
  node g := if g = [1] then hostView 2 1 0 room_two else hostView 2 0 1 room_two
  reserve g lvl := some (if g = [1] then ⟨1, 3⟩ else if lvl = 1 then ⟨2, 4⟩ else ⟨top, 5⟩)
  adjacent g := adjacencySet
    (if g = [1] then hostView 2 1 0 room_two else hostView 2 0 1 room_two) 1
  explored _ n := executeExplore 1
    (if n.pos = [1] then hostView 2 1 0 room_two else hostView 2 0 1 room_two)
  length_adjacent _ := length_adjacencySet _ 1
  length_explored _ _ := by simp [executeExplore, makeTupleFromLevel]

/-- Their adjacency. -/
lemma within_neighbours {top : UInt32} {k : ℕ} {g : List UInt32}
    (h : Within (hostView 2 0 1 (by decide)) (neighbours top) 1 k g) : g = [0] ∨ g = [1] := by
  induction h with
  | root => exact .inl rfl
  | step walk hadj ih =>
      obtain ⟨adj, hmem, -, rfl⟩ := hadj
      rcases ih with rfl | rfl
      · have hadj : adj = ⟨⟨[1], [1]⟩, 0⟩ := List.mem_singleton.mp hmem
        rw [hadj]
        exact .inr rfl
      · have hadj : adj = ⟨⟨[0], [1]⟩, 0⟩ := List.mem_singleton.mp hmem
        rw [hadj]
        exact .inl rfl

lemma isReal_hostView {pos neighbour : UInt32} (h : pos.toNat < 3) :
    (hostView 2 pos neighbour (by decide)).IsReal := by
  intro i hi
  rcases i with _ | _ | i
  · exact (by decide : (0 : ℕ) < 2)
  · exact h
  · exact absurd hi (by simp [QspnView.levels, hostView, Topology.levels])

lemma steady_neighbours (top : UInt32) :
    Steady (hostView 2 0 1 (by decide)) (neighbours top) 1 (neighbours top).router := by
  refine Hosts.steady_router (by decide) (fun g => ?_) (fun g => ?_) (fun g i => rfl)
    (fun walk => ?_)
  · simp only [neighbours]
    split_ifs <;> rfl
  · simp only [neighbours]
    split_ifs
    · exact isReal_hostView (by decide)
    · exact isReal_hostView (by decide)
  · rcases within_neighbours walk with rfl | rfl
    · rfl
    · rfl

/-- The g-node 0 has a place one level up, so the search goes on to the g-node 1. -/
theorem findsNearest_two :
    FindsNearest (hostView 2 0 1 (by decide)) (neighbours 2) 1 ℚ (neighbours 2).router 0 1 3
      [hostsDirect, hostsSolution 2] := by
  have hrun : findShortestMig ℚ 3 (hostView 2 0 1 (by decide)) (neighbours 2).router 0 1 1 =
      some [hostsDirect, hostsSolution 2] := by
    decide +kernel
  exact ((findsNearest_iff (steady_neighbours 2) rfl rfl).2 3 _ hrun).mpr (.inl (by decide))

/-- The root is full at every level.  Its answer is taken for nonsense, the search ends with
nothing, and the place in the adjacent g-node 1 is not found. -/
theorem not_findsNearest :
    ¬∀ (view : QspnView) (hosts : Hosts) (router : SearchRouter) (id : Int32)
      (firstHostLvl okHostLvl l ok fuel : ℕ) (solutions : List MigrationSolution),
      Steady view hosts l router → l = max firstHostLvl (view.subnetlevel + 1) →
      ok = max okHostLvl l →
      findShortestMig ℚ fuel view router id firstHostLvl okHostLvl = some solutions →
      FindsNearest view hosts l ℚ router id ok fuel solutions := by
  intro h
  have hrun : findShortestMig ℚ 3 (hostView 2 0 1 (by decide)) (neighbours 3).router 0 1 1 =
      some [] := by
    decide +kernel
  have hfinds := h _ _ _ 0 1 1 1 1 3 [] (steady_neighbours 3) rfl rfl hrun
  have hstep : Within (hostView 2 0 1 (by decide)) (neighbours 3) 1 1 [1] :=
    .step .root ⟨⟨⟨[1], [1]⟩, 0⟩, List.mem_singleton_self _, ⟨rfl, by decide⟩, rfl⟩
  rcases hfinds.nearest ⟨1, [1], hstep, 1, by decide, le_rfl⟩ with
    ⟨_, _, _, -, -, -, hlast, -⟩ | ⟨_, hlast, -⟩
  · cases hlast
  · cases hlast

end Netsukuku.Hooking
