import Mathlib
import Netsukuku.Core.Float64
import Netsukuku.Hooking.Domain

/-!
# The search for a place

A guest g-node asks a host for a place.  The host looks for a free position in its own g-node; if
only a virtual one is free there, a g-node at its border may move into an adjacent g-node and
leave its real position to the guest.  The search goes breadth first over such chains of
migrations.

* `executeSearch`, `executeExplore` — what an asked node answers.
* `findShortestMig` — the search, over whatever the router answers.
* `resolveEntryData` — the address the guest is told.
* `getMigs`, `executeShortestMig` — the migrations of a chain, and the requests sent for them.
* `executeMig` — what the members of a migrating g-node make of a request.
* `searchMigrationPath` — the call a guest makes.

A router is asked over time and its answers may change: it is given the number of the call.  The
search is cut off after a number of steps, as the source cuts it off after a while.
-/

namespace Netsukuku.Hooking

/-! ## What an asked node answers -/

/-- A position reserved by a coordinator. -/
structure Reservation where
  pos : UInt32
  eldership : Int32
  deriving DecidableEq

/-- The answer of one asked g-node. -/
structure SearchStepResult where
  minHostLvl : ℕ
  finalHostLvl : ℕ
  realNewPos : Option UInt32
  realNewEldership : Option Int32
  setAdjacent : List PairTupleGNodeInt
  newConnVirPos : Option UInt32
  newEldership : Option Int32
  deriving DecidableEq

/-- `adjacency_set`. -/
def adjacencySet (view : QspnView) (minHostLvl : ℕ) : List PairTupleGNodeInt :=
  ((List.range' minHostLvl (view.levels - minHostLvl)).flatMap fun i =>
    view.adjacentToMyGnode i minHostLvl).map fun adj =>
      ⟨makeTupleFromHc adj.hc view, adj.borderRealPos⟩

/-- The room for g-nodes of the level below in a host of level `lvl`. -/
def hostSize (view : QspnView) (lvl : ℕ) : ℕ := view.gsize (lvl - 1)

/-- The first level from `lvl` on whose coordinator answers, and its reservation. -/
def firstReservation (reserve : ℕ → Option Reservation) : ℕ → ℕ → Option (ℕ × Reservation)
  | _, 0 => none
  | lvl, n + 1 =>
      match reserve lvl with
      | some r => some (lvl, r)
      | none => firstReservation reserve (lvl + 1) n

/-- From `lvl` on, the first level that has a real position; a coordinator that does not answer
ends the search without an answer. -/
def climbToReal (view : QspnView) (reserve : ℕ → Option Reservation) :
    ℕ → ℕ → Option (ℕ × Option Reservation)
  | lvl, 0 => some (lvl, none)
  | lvl, n + 1 =>
      match reserve lvl with
      | none => none
      | some r =>
          if r.pos.toNat < hostSize view lvl then some (lvl, some r)
          else climbToReal view reserve (lvl + 1) n

/-- `execute_search`: the room a node can offer in the g-nodes it is part of. -/
def executeSearch (view : QspnView) (reserve : ℕ → Option Reservation)
    (visitingGnode : TupleGNode) (maxHostLvl : ℕ) : Option SearchStepResult :=
  if !iAmInside visitingGnode view then none
  else if tupleHasVirtualPos (makeTupleFromLevel 0 view) view then none
  else do
    let maxHostLvl := min maxHostLvl view.levels
    let level := visitingGnode.level view.levels
    let (minHostLvl, r) ← firstReservation reserve level (maxHostLvl + 1 - level)
    if r.pos.toNat < hostSize view minHostLvl then
      some ⟨minHostLvl, minHostLvl, some r.pos, some r.eldership, adjacencySet view minHostLvl,
        none, none⟩
    else do
      let (finalHostLvl, real) ← climbToReal view reserve (minHostLvl + 1)
        (maxHostLvl + 1 - (minHostLvl + 1))
      some ⟨minHostLvl, finalHostLvl, real.map Reservation.pos, real.map Reservation.eldership,
        adjacencySet view minHostLvl, some r.pos, some r.eldership⟩

/-- `execute_explore`. -/
def executeExplore (requestedLvl : ℕ) (view : QspnView) : TupleGNode :=
  makeTupleFromLevel requestedLvl view

/-! ## The router -/

/-- What carries requests to other g-nodes; every request comes with the number of the call. -/
structure SearchRouter where
  sendSearchRequest : ℕ → List PathHop → ℕ → Int32 → Option SearchStepResult
  sendExploreRequest : ℕ → List PathHop → ℕ → Option TupleGNode
  sendMigRequest : ℕ → RequestPacket → Bool

/-! ## The steps of the search -/

/-- One step, but for its parent. -/
structure StepData where
  visitingGnode : TupleGNode
  previousMigratingGnode : Option TupleGNode
  previousGnodeNewConnVirPos : Option UInt32
  previousGnodeNewEldership : Option Int32
  deriving DecidableEq

/-- One step of the search tree: its data, and the data of its parents, nearest first. -/
structure SolutionStep where
  data : StepData
  parents : List StepData
  deriving DecidableEq

namespace SolutionStep

/-- The steps from this one up to the root. -/
def chain (s : SolutionStep) : List StepData := s.data :: s.parents

def distance (s : SolutionStep) : ℕ := s.parents.length

end SolutionStep

/-- A place that was found, and the chain that leads to it. -/
structure MigrationSolution where
  leaf : SolutionStep
  finalHostLvl : ℕ
  realNewPos : UInt32
  realNewEldership : Int32
  deriving DecidableEq

namespace MigrationSolution

def distance (sol : MigrationSolution) : ℕ := sol.leaf.distance

/-- `cleanup_target`: where the reservation of a rejected solution is released. -/
def cleanupTarget (sol : MigrationSolution) (levels : ℕ) : Option TupleGNode :=
  sol.leaf.data.visitingGnode.truncateToLevel sol.finalHostLvl levels

/-- `resolve_entry_data`: a position of the host itself, or the one the first migration of the
chain leaves. -/
def resolveEntryData (sol : MigrationSolution) (view : QspnView) : Outcome Empty EntryData :=
  match sol.leaf.chain.reverse with
  | [] => .error (.panic "a chain has a root")
  | [_] =>
      let hostGnode := makeTupleFromLevel sol.finalHostLvl view
      .ok ⟨view.networkId, sol.realNewPos :: hostGnode.pos,
        sol.realNewEldership :: hostGnode.eldership⟩
  | root :: second :: _ => do
      let prev ← Outcome.expect
        "every non-root SolutionStep carries a previous_migrating_gnode"
        second.previousMigratingGnode
      let pos ← Outcome.index prev.pos 0
      .ok ⟨view.networkId, pos :: root.visitingGnode.pos,
        second.previousGnodeNewEldership.getD (-1) :: root.visitingGnode.eldership⟩

end MigrationSolution

/-- `get_path_hops`: the hops from the root to a step. -/
def getPathHops (current : SolutionStep) : List PathHop :=
  current.chain.reverse.map fun s => ⟨s.visitingGnode, s.previousMigratingGnode⟩

/-! ## The search -/

/-- The state of the search: the levels still of interest, what was found, what was seen, and the
steps to visit. -/
structure Bfs where
  maxHostLvl : ℕ
  solutions : List MigrationSolution
  prevSolDistance : Option ℕ
  visited : List TupleGNode
  queue : List SolutionStep
  calls : ℕ

/-- What one iteration comes to. -/
inductive Progress where
  | done (solutions : List MigrationSolution)
  | more (b : Bfs)

section Search

variable (F : Type) [Float64 F] (view : QspnView) (router : SearchRouter)
  (reserveRequestId : Int32) (okHostLvl : ℕ)

/-- A step too far from the last solution: five hops more and three tenths farther. -/
def tooFar (prevSolDistance : Option ℕ) (distance : ℕ) : Bool :=
  match prevSolDistance with
  | none => false
  | some prev =>
      decide (prev + 5 ≤ distance) && !Float64.lt (Float64.ofNat distance : F)
        (Float64.ofNat prev * Float64.decimal 13 1)

/-- A solution is recorded; only better ones are of interest from now on. -/
def Bfs.record (b : Bfs) (sol : MigrationSolution) : Bfs :=
  { b with
    prevSolDistance := some sol.distance
    maxHostLvl := sol.finalHostLvl - 1
    solutions := b.solutions ++ [sol] }

/-- The adjacent g-node, asked for its part of the level visited if it is larger. -/
def exploreAdjacent (current : SolutionStep) (minHostLvl : ℕ) (b : Bfs)
    (adj : PairTupleGNodeInt) : Bfs × Option TupleGNode :=
  if minHostLvl < adj.gnode.level view.levels then
    ({ b with calls := b.calls + 1 },
      router.sendExploreRequest b.calls (getPathHops current ++ [⟨adj.gnode, none⟩]) minHostLvl)
  else (b, some adj.gnode)

/-- Some step of the chain is in the g-node of `n`. -/
def inPrevStep (current : SolutionStep) (minHostLvl : ℕ) (n : TupleGNode) : Bool :=
  current.chain.any fun s =>
    (s.visitingGnode.truncateToLevel minHostLvl view.levels).any fun bigger =>
      positionsEqual bigger n

/-- One adjacent g-node becomes a step of its own, unless it is of another level, virtual, or
known. -/
def expandAdjacent (current : SolutionStep) (step : SearchStepResult) (b : Bfs)
    (adj : PairTupleGNodeInt) : Bfs :=
  let (b, n?) := exploreAdjacent view router current step.minHostLvl b adj
  match n? with
  | none => b
  | some n =>
      if n.level view.levels ≠ step.minHostLvl then b
      else if tupleHasVirtualPos n view then b
      else if b.visited.any fun t => positionsEqual t n then b
      else if inPrevStep view current step.minHostLvl n then b
      else
        let migrating : TupleGNode :=
          ⟨adj.borderRealPos :: current.data.visitingGnode.pos,
            -1 :: current.data.visitingGnode.eldership⟩
        { b with
          visited := b.visited ++ [n]
          queue := b.queue ++ [⟨⟨n, some migrating, step.newConnVirPos, step.newEldership⟩,
            current.chain⟩] }

/-- An answer that makes no sense. -/
def badAnswer (maxHostLvl : ℕ) (step : SearchStepResult) : Bool :=
  decide (view.levels < step.minHostLvl ∨ maxHostLvl < step.minHostLvl ∨
    view.levels < step.finalHostLvl ∨ step.finalHostLvl < step.minHostLvl)

/-- The solution an answer amounts to, if it has a real position. -/
def resolved (current : SolutionStep) (step : SearchStepResult) : Option MigrationSolution :=
  match step.realNewPos, step.realNewEldership with
  | some pos, some eldership => some ⟨current, step.finalHostLvl, pos, eldership⟩
  | _, _ => none

/-- What an answer leads to: the end of the search, a solution, steps to the adjacent g-nodes. -/
def onAnswer (b : Bfs) (current : SolutionStep) (step : SearchStepResult) : Progress :=
  let expand (b : Bfs) : Bfs := step.setAdjacent.foldl (expandAdjacent view router current step) b
  if step.finalHostLvl ≤ okHostLvl then
    match resolved current step with
    | some sol => .done (b.solutions ++ [sol])
    | none => .more (expand b)
  else if step.minHostLvl = step.finalHostLvl then
    match resolved current step with
    | some sol => .more (b.record sol)
    | none => .more b
  else if step.finalHostLvl ≤ b.maxHostLvl then
    match resolved current step with
    | some sol => .more (expand (b.record sol))
    | none => .more (expand b)
  else .more (expand b)

/-- One iteration of the search. -/
def bfsStep (b : Bfs) : Progress :=
  match b.queue with
  | [] => .done b.solutions
  | current :: queue =>
      if tooFar F b.prevSolDistance current.distance then .done b.solutions
      else
        match router.sendSearchRequest b.calls (getPathHops current) b.maxHostLvl
          reserveRequestId with
        | none => .more { b with
            queue
            calls := b.calls + 1
            visited := b.visited.filter fun t =>
              !positionsEqual t current.data.visitingGnode }
        | some step =>
            if badAnswer view b.maxHostLvl step then .more { b with queue, calls := b.calls + 1 }
            else
              match current.data.visitingGnode.truncateToLevel step.minHostLvl view.levels with
              | none => .more { b with queue, calls := b.calls + 1 }
              | some truncated =>
                  onAnswer view router okHostLvl { b with queue, calls := b.calls + 1 }
                    { current with data := { current.data with visitingGnode := truncated } } step

/-- The iterations, at most `fuel` of them. -/
def bfs : ℕ → Bfs → Option (List MigrationSolution)
  | 0, _ => none
  | fuel + 1, b =>
      match bfsStep F view router reserveRequestId okHostLvl b with
      | .done solutions => some solutions
      | .more b => bfs fuel b

end Search

/-- The step the search starts from. -/
def rootStep (view : QspnView) (firstHostLvl : ℕ) : SolutionStep :=
  ⟨⟨makeTupleFromLevel firstHostLvl view, none, none, none⟩, []⟩

/-- The state the search starts from. -/
def initialBfs (view : QspnView) (firstHostLvl : ℕ) : Bfs :=
  ⟨view.levels, [], none, [makeTupleFromLevel firstHostLvl view], [rootStep view firstHostLvl], 0⟩

/-- `find_shortest_mig`; `none` if the search is cut off. -/
def findShortestMig (F : Type) [Float64 F] (fuel : ℕ) (view : QspnView) (router : SearchRouter)
    (reserveRequestId : Int32) (firstHostLvl okHostLvl : ℕ) : Option (List MigrationSolution) :=
  let firstHostLvl := max firstHostLvl (view.subnetlevel + 1)
  let okHostLvl := max okHostLvl firstHostLvl
  bfs F view router reserveRequestId okHostLvl fuel (initialBfs view firstHostLvl)

/-! ## The migrations of a chain -/

/-- `p as i32`: the same bits. -/
def asI32 (p : UInt32) : Int32 := p.toInt32

/-- `i32::try_from(p).unwrap_or(-1)`. -/
def tryFromI32 (p : UInt32) : Int32 := if p.toNat < 2 ^ 31 then p.toInt32 else -1

/-- `u32::try_from(i)`. -/
def tryFromU32 (i : Int32) : Option UInt32 := if 0 ≤ i.toInt then some i.toUInt32 else none

/-- One migration: the g-node that moves, and the host it moves into. -/
structure MigData where
  migrationId : Int32
  migGnode : TupleGNode
  connGnodePos : Int32
  prevMigGnodeNewEldership : Int32
  hostGnode : TupleGNode
  migGnodeNewPos : Option UInt32
  finalMigGnodeNewPos : Option UInt32
  finalMigGnodeNewEldership : Option Int32
  deriving DecidableEq

/-- The host of the last migration is cut to the level of the solution. -/
def lastHost (sol : MigrationSolution) (levels : ℕ) (g : TupleGNode) :
    Outcome Empty TupleGNode := do
  let kept ← Outcome.checkedSub levels sol.finalHostLvl
  let toremove ← Outcome.checkedSub g.pos.length kept
  if g.eldership.length < toremove then .error (.panic "range end index out of range")
  else .ok ⟨g.pos.drop toremove, g.eldership.drop toremove⟩

/-- The migration of one step.  The step visited before it on the way up, the one its g-node makes
room for, is `ssPrev`; the leaf has none. -/
def migOf (sol : MigrationSolution) (levels : ℕ) (id : Int32) (ssPrev : Option StepData)
    (ss : StepData) : Outcome Empty MigData := do
  let hostGnode ← if ssPrev.isNone then lastHost sol levels ss.visitingGnode
    else .ok ss.visitingGnode
  let migGnode ← Outcome.expect "every non-root SolutionStep carries a previous_migrating_gnode"
    ss.previousMigratingGnode
  .ok {
    migrationId := id
    migGnode
    connGnodePos := (ss.previousGnodeNewConnVirPos.map asI32).getD (-1)
    prevMigGnodeNewEldership := ss.previousGnodeNewEldership.getD (-1)
    hostGnode
    migGnodeNewPos := (ssPrev.bind StepData.previousMigratingGnode).bind fun t => t.pos.head?
    finalMigGnodeNewPos := if ssPrev.isNone then some sol.realNewPos else none
    finalMigGnodeNewEldership := if ssPrev.isNone then some sol.realNewEldership else none }

/-- The migrations from a step up to the root, nearest the root first. -/
def migsFrom (sol : MigrationSolution) (levels : ℕ) (ids : ℕ → Int32) :
    ℕ → Option StepData → List StepData → Outcome Empty (List MigData)
  | k, ssPrev, ss :: parent :: parents => do
      let mig ← migOf sol levels (ids k) ssPrev ss
      let migs ← migsFrom sol levels ids (k + 1) (some ss) (parent :: parents)
      .ok (migs ++ [mig])
  | _, _, _ => .ok []

/-- `get_migs`, with the ids drawn for them. -/
def getMigs (sol : MigrationSolution) (levels : ℕ) (ids : ℕ → Int32) :
    Outcome Empty (List MigData) := do
  Outcome.assert "get_migs called on a distance-0 solution" (decide (sol.leaf.parents ≠ []))
  migsFrom sol levels ids 0 none sol.leaf.chain

/-- `build_request_packet_prepare`. -/
def buildRequestPacketPrepare (mig : MigData) : RequestPacket where
  pktId := 0
  dest := mig.migGnode
  src := .default
  operation := .prepareMigration
  migrationId := mig.migrationId
  connGnodePos := -1
  hostGnode := .default
  realNewPos := -1
  realNewEldership := -1

/-- `build_request_packet_finish`: the farthest migration takes the solution's position, any other
the place and the eldership that the next one leaves. -/
def buildRequestPacketFinish (mig : MigData) (migNext : Option MigData) :
    Outcome Empty RequestPacket := do
  let (realNewPos, realNewEldership) ← match migNext with
    | none => do
        let pos ← Outcome.expect "the farthest migration hop always resolves a final position"
          mig.finalMigGnodeNewPos
        let eldership ← Outcome.expect
          "the farthest migration hop always resolves a final eldership"
          mig.finalMigGnodeNewEldership
        .ok (tryFromI32 pos, eldership)
    | some next => .ok ((mig.migGnodeNewPos.map asI32).getD (-1), next.prevMigGnodeNewEldership)
  .ok {
    pktId := 0
    dest := mig.migGnode
    src := .default
    operation := .finishMigration
    migrationId := mig.migrationId
    connGnodePos := mig.connGnodePos
    hostGnode := mig.hostGnode
    realNewPos
    realNewEldership }

/-- The requests sent so far, and whether all of them got through. -/
structure Sent where
  packets : List RequestPacket
  ok : Bool
  deriving DecidableEq

/-- Sends one request after the other, and stops at the first that fails. -/
def sendInOrder (router : SearchRouter) : List RequestPacket → Sent → Sent
  | [], sent => sent
  | p :: ps, sent =>
      if !sent.ok then sent
      else sendInOrder router ps
        ⟨sent.packets ++ [p], router.sendMigRequest sent.packets.length p⟩

/-- `execute_shortest_mig`: all the preparations, farthest first, then the migrations. -/
def executeShortestMig (view : QspnView) (router : SearchRouter) (ids : ℕ → Int32)
    (sol : MigrationSolution) : Outcome Empty Sent := do
  let migs ← getMigs sol view.levels ids
  let prepared := sendInOrder router (migs.reverse.map buildRequestPacketPrepare) ⟨[], true⟩
  if !prepared.ok then .ok prepared
  else do
    let farthest ← Outcome.expect "get_migs never returns an empty list for distance > 0"
      migs.getLast?
    let finish ← buildRequestPacketFinish farthest none
    let first := sendInOrder router [finish] prepared
    let rest ← (migs.zip migs.tail).reverse.mapM fun e => buildRequestPacketFinish e.1 (some e.2)
    .ok (sendInOrder router rest first)

/-- What the coordinator is asked to propagate to the members of a migrating g-node. -/
inductive CoordCall where
  | prepareMigration (lvl : ℕ) (migrationId : Int32)
  | finishMigration (lvl : ℕ) (data : FinishMigrationData)
  deriving DecidableEq

/-- `execute_mig`: a request with a negative position is dropped. -/
def executeMig (view : QspnView) (packet : RequestPacket) : Option CoordCall :=
  match packet.operation with
  | .prepareMigration =>
      some (.prepareMigration (packet.dest.level view.levels) packet.migrationId)
  | .finishMigration =>
      match tryFromU32 packet.realNewPos, tryFromU32 packet.connGnodePos with
      | some realNewPos, some connGnodePos =>
          some (.finishMigration (packet.dest.level view.levels) {
            migrationId := packet.migrationId
            migrationData := ⟨0, realNewPos :: packet.hostGnode.pos,
              packet.realNewEldership :: packet.hostGnode.eldership⟩
            goConnectivityPosition := connGnodePos })
      | _, _ => none

/-! ## The call of a guest -/

/-- Why a guest gets no entry. -/
inductive HookingServerError where
  | notBootstrapped
  | levelOutOfRange
  | noMigrationPathFound
  | migrationPathExecuteFailure
  deriving DecidableEq

/-- `search_migration_path`: the reservations released, the migration requests sent, and the entry.
A search that is cut off is a failure the guest may retry. -/
def searchMigrationPath (F : Type) [Float64 F] (fuel : ℕ) (view : QspnView)
    (router : SearchRouter) (reserveRequestId : Int32) (ids : ℕ → Int32) (lvl : ℕ) :
    Outcome HookingServerError (List TupleGNode × List RequestPacket × EntryData) :=
  if !view.isBootstrapped then Outcome.fail .notBootstrapped
  else if view.levels ≤ lvl then Outcome.fail .levelOutOfRange
  else
    match findShortestMig F fuel view router reserveRequestId (lvl + 1)
      (lvl + view.epsilon lvl) with
    | none => Outcome.fail .migrationPathExecuteFailure
    | some solutions =>
        match solutions.getLast? with
        | none => Outcome.fail .noMigrationPathFound
        | some sol => do
            let released := solutions.dropLast.filterMap fun s => s.cleanupTarget view.levels
            let sent ← if sol.distance = 0 then .ok ⟨[], true⟩
              else Outcome.unwrap "infallible" (executeShortestMig view router ids sol)
            if !sent.ok then Outcome.fail .migrationPathExecuteFailure
            else do
              let entry ← Outcome.unwrap "infallible" (sol.resolveEntryData view)
              .ok (released, sent.packets, entry)

end Netsukuku.Hooking
