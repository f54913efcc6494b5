import Mathlib
import Netsukuku.Qspn.State

/-!
# Merging candidates into the map

`update_map` takes the candidates a revision produced, groups them by destination and, one
destination after the other, decides which paths are stored from then on.  For one destination
the source runs, in this order:

1. `mergeKnown` — match each stored path with the first candidate of the same route;
2. a stable sort by total cost;
3. `pruneUnknown` — drop what passes through a g-node the node does not know;
4. `dedupOn` by route — the cheapest of each route stays;
5. `admitCandidates` — disjoint-path admission, with the mandatory paths let through;
6. `announceNew`, `announceKnown` — the paths to tell the neighbours about, and the events;
7. `commit`, then `splitCheck` on what is now stored.

Each step is a definition of its own, and `updateMapOneDestination` composes them.  The iteration
orders of the hash maps involved are a parameter (`MapOrder`).
-/

namespace Netsukuku

variable {F : Type} [Float64 F]

/-- The hash iteration orders one `update_map` call meets: of the candidates' destinations, and
of a level map after an insertion. -/
structure MapOrder where
  keys : HashOrder HCoord
  entries : HashOrder (UInt32 × Destination)

/-- Every hash map iterates in insertion order. -/
def MapOrder.asInserted : MapOrder := ⟨.asInserted, .asInserted⟩

/-- A detected fork of a destination: the eldest branch and a rival one. -/
structure SplitSignal where
  destination : HCoord
  fpEldest : Fp
  fp : Fp
  bpEldest : NodePath
  bp : NodePath
  deriving DecidableEq, Repr

structure OneDestOutcome where
  allPathsSet : List EtpPath
  firstDetectionSplit : Bool
  events : List QspnEvent
  splitSignals : List SplitSignal

structure UpdateMapOutcome where
  allPathsSet : List EtpPath
  bSet : List HCoord
  events : List QspnEvent
  splitSignals : List SplitSignal

/-! ## Merging with the stored paths -/

/-- A cost change worth telling: any. -/
def importantVariation (old new : Cost) : Bool := decide (old ≠ new)

/-- The size moved out of the tolerance band. -/
def nodesInsideChanged (tol : F) (old new : UInt32) : Bool :=
  Float64.lt (Float64.ofNat old.toNat * (Float64.ofNat 1 + tol)) (Float64.ofNat new.toNat) ||
    Float64.lt (Float64.ofNat new.toNat) (Float64.ofNat old.toNat * (Float64.ofNat 1 - tol))

/-- The candidate says something the stored path does not. -/
def variesFrom (tol : F) (stored candidate : EtpPath) : Bool :=
  !stored.fingerprint.identityEq candidate.fingerprint ||
    importantVariation stored.cost candidate.cost ||
    nodesInsideChanged tol stored.nodesInside candidate.nodesInside

/-- Candidates for storage, those among them that changed, and the candidates left over. -/
structure Merged where
  od : List NodePath
  vd : List NodePath
  rest : List NodePath

/-- The stored paths, each matched with the first candidate of its route. -/
def mergeKnown (tol : F) (aChanged : Option ArcId) : List NodePath → List NodePath → Merged
  | [], qd => ⟨[], [], qd⟩
  | p1 :: md, qd =>
      let touched := if aChanged = some p1.arc then [p1] else []
      match qd.find? fun p => p.hopsArcsEqual p1.path with
      | some p2 =>
          let r := mergeKnown tol aChanged md (qd.eraseP fun p => p.hopsArcsEqual p1.path)
          if variesFrom tol p1.path p2.path then ⟨p2 :: r.od, p2 :: r.vd, r.rest⟩
          else ⟨p1 :: r.od, touched ++ r.vd, r.rest⟩
      | none =>
          let r := mergeKnown tol aChanged md qd
          ⟨p1 :: r.od, touched ++ r.vd, r.rest⟩

/-! ## Dropping paths through unknown g-nodes -/

/-- Looks the intermediate hops of one path up: whether all are known, and their sizes. -/
def scanHops (s : QspnState F) : List HCoord → KeyedMap HCoord UInt32 →
    Outcome QspnError (Bool × KeyedMap HCoord UInt32)
  | [], nn => .ok (true, nn)
  | h :: hops, nn => do
      let m ← Outcome.index s.destinations h.level
      match m.get? h.pos with
      | none => .ok (false, nn)
      | some dest =>
          let (_, n, _) ← (dest.evaluate s.arcCost).mapErr QspnError.common
          scanHops s hops (nn.insert h n)

/-- Drops the candidates that pass through an unknown g-node. -/
def pruneUnknown (s : QspnState F) : List NodePath → KeyedMap HCoord UInt32 →
    Outcome QspnError (List NodePath × KeyedMap HCoord UInt32)
  | [], nn => .ok ([], nn)
  | p :: od, nn => do
      let (known, nn) ← scanHops s p.path.hops.dropLast nn
      let (od, nn) ← pruneUnknown s od nn
      .ok (if known then p :: od else od, nn)

/-! ## Disjoint-path admission -/

/-- Notes the g-node a peer sits in, if its address is known and it is not listed yet. -/
def noteNeighbor (s : QspnState F) (vnd : List HCoord) (e : ArcEntry) :
    Outcome QspnError (List HCoord) :=
  match e.peerNaddr with
  | none => .ok vnd
  | some peer => do
      match ← (s.myNaddr.hcoord peer).mapErr QspnError.common with
      | none => .ok vnd
      | some v => .ok (if v ∈ vnd then vnd else vnd ++ [v])

/-- The g-nodes reached over a direct arc. -/
def directNeighbors (s : QspnState F) : Outcome QspnError (List HCoord) :=
  s.arcs.values.foldlM (noteNeighbor s) []

/-- The overlap tolerance for one destination. -/
def overlapTolerance (s : QspnState F) (d : HCoord) : Outcome QspnError F := do
  let m ← Outcome.index s.destinations d.level
  match m.get? d.pos with
  | none => .ok s.config.maxCommonHopsRatio
  | some dest =>
      let (_, size, _) ← (dest.evaluate s.arcCost).mapErr QspnError.common
      let exposed ← s.exposedPaths d
      let availArcs := Scan.dedupOn id [] (exposed.map NodePath.arc)
      .ok (mchRatio s.config.maxCommonHopsRatio s.config.mchRatioTable size
        (availArcs.length % 2 ^ 32))

/-- The weight of the `i`-th intermediate hop of `p2`, and how much of it `p1` shares. -/
def overlapHop (s : QspnState F) (nn : KeyedMap HCoord UInt32) (p1 p2 : NodePath) (acc : F × F)
    (i : ℕ) : Outcome QspnError (F × F) := do
  let g2 ← Outcome.index p2.path.hops i
  let arcIn ← Outcome.index p2.path.arcs i
  let arcOut ← Outcome.index p2.path.arcs (i + 1)
  let size := ((nn.get? g2).getD 0).toNat
  let nNodes := Float64.floor
    (s.config.overlapWeights.intermediateCoeff * Float64.sqrt (Float64.ofNat size))
  let half := Float64.ceil (Float64.decimal 5 1 * nNodes)
  let common :=
    if g2 ∈ p1.path.hops then
      if arcIn ∈ p1.path.arcs then
        if arcOut ∈ p1.path.arcs then acc.2 + nNodes else acc.2 + half
      else if arcOut ∈ p1.path.arcs then acc.2 + half
      else acc.2
    else acc.2
  .ok (acc.1 + nNodes, common)

/-- The weight of the destination itself, above level 0. -/
def overlapDestination (s : QspnState F) (d : HCoord) (p1 p2 : NodePath) (acc : F × F) :
    Outcome QspnError (F × F) :=
  if d.level = 0 then .ok acc
  else do
    let m ← Outcome.index s.destinations d.level
    match m.get? d.pos with
    | none => .ok acc
    | some dest =>
        let (_, size, _) ← (dest.evaluate s.arcCost).mapErr QspnError.common
        let weight := Float64.floor (s.config.overlapWeights.destinationCoeff *
          Float64.sqrt (Float64.ofNat size.toNat))
        let nNodes := if Float64.lt (Float64.ofNat 0) weight then
          weight - s.config.overlapWeights.destinationOffset else weight
        if Float64.lt (Float64.ofNat 0) nNodes then
          let arcIn ← Outcome.index p2.path.arcs (p2.path.hops.length - 1)
          .ok (acc.1 + nNodes, if arcIn ∈ p1.path.arcs then acc.2 + nNodes else acc.2)
        else .ok acc

/-- `p1` shares too much of the admitted path `p2`. -/
def overlapExceeds (s : QspnState F) (d : HCoord) (nn : KeyedMap HCoord UInt32) (mch : F)
    (p1 p2 : NodePath) : Outcome QspnError Bool := do
  let hops ← (List.range (p2.path.hops.length - 1)).foldlM (overlapHop s nn p1 p2)
    (Float64.ofNat 0, Float64.ofNat 0)
  let (total, common) ← overlapDestination s d p1 p2 hops
  .ok (Float64.lt (Float64.ofNat 0) total && Float64.lt mch (common / total))

/-- `p1` shares too much of one of the admitted paths. -/
def overlapsAny (s : QspnState F) (d : HCoord) (nn : KeyedMap HCoord UInt32) (mch : F)
    (p1 : NodePath) : List NodePath → Outcome QspnError Bool
  | [] => .ok false
  | p2 :: rd => do
      if ← overlapExceeds s d nn mch p1 p2 then .ok true
      else overlapsAny s d nn mch p1 rd

/-- What the admission loop carries: fingerprints met, neighbours every admitted path passes,
siblings no admitted path passes, and the admitted paths. -/
structure Admission where
  fd : List Fp
  vnd : List HCoord
  z1d : List HCoord
  rd : List NodePath

/-- What a candidate covers: a new fingerprint, a neighbour every path so far goes through and it
avoids, a sibling none so far reaches.  Any of these makes it mandatory. -/
def Admission.cover (a : Admission) (p1 : NodePath) : Bool × Admission :=
  let newFp := !a.fd.any fun f => f.identityEq p1.path.fingerprint
  let vnd := a.vnd.filter fun g => decide (g ∈ p1.path.hops)
  let z1d := a.z1d.filter fun g => decide (g ∉ p1.path.hops)
  (newFp || decide (vnd.length ≠ a.vnd.length) || decide (z1d.length ≠ a.z1d.length),
    { a with fd := if newFp then a.fd ++ [p1.path.fingerprint] else a.fd, vnd, z1d })

/-- One candidate of the admission loop.  A mandatory one is held only to the hard bound. -/
def admitStep (s : QspnState F) (d : HCoord) (nn : KeyedMap HCoord UInt32) (mch : F)
    (a : Admission) (p1 : NodePath) : Outcome QspnError Admission :=
  let (mandatory, a) := a.cover p1
  if mandatory then
    let bound := min (s.config.maxPaths * mandatoryPathFactor) (2 ^ 64 - 1)
    .ok (if a.rd.length < bound then { a with rd := a.rd ++ [p1] } else a)
  else if s.config.maxPaths ≤ a.rd.length then .ok a
  else do
    let overlap ← overlapsAny s d nn mch p1 a.rd
    .ok (if overlap then a else { a with rd := a.rd ++ [p1] })

/-- The admission loop; the first withdrawn candidate ends it. -/
def admitCandidates (s : QspnState F) (d : HCoord) (nn : KeyedMap HCoord UInt32) (mch : F) :
    Admission → List NodePath → Outcome QspnError Admission
  | a, [] => .ok a
  | a, p1 :: od =>
      if p1.path.cost.isDead then .ok a
      else do
        let a' ← admitStep s d nn mch a p1
        admitCandidates s d nn mch a' od

/-! ## What is announced -/

/-- Admitted paths with their exposure settled, paths to forward, events. -/
structure Announced where
  od : List NodePath
  paths : List EtpPath
  events : List QspnEvent

/-- An admitted path that was not stored before. -/
def announceNew (arcCost : ArcId → Cost) (d : HCoord) (md : List NodePath) (validFp : Option Fp)
    (validNn : UInt32) : List NodePath → Outcome QspnError Announced
  | [] => .ok ⟨[], [], []⟩
  | p :: od => do
      if md.any fun q => q.hopsArcsEqual p.path then
        let r ← announceNew arcCost d md validFp validNn od
        .ok { r with od := p :: r.od }
      else
        let wire := prepareForSending p (arcCost p.arc)
        let added := QspnEvent.pathAdded (toRoutePath p (arcCost p.arc))
        if d.level = 0 then
          let r ← announceNew arcCost d md validFp validNn od
          .ok ⟨p :: r.od, wire :: r.paths, added :: r.events⟩
        else
          let valid ← Outcome.expect "d.level > 0" validFp
          if p.path.fingerprint.sameBranch valid p.path.nodesInside validNn then
            let r ← announceNew arcCost d md validFp validNn od
            .ok ⟨{ p with exposed := true } :: r.od, wire :: r.paths, added :: r.events⟩
          else
            let r ← announceNew arcCost d md validFp validNn od
            .ok ⟨p :: r.od, wire :: r.paths, r.events⟩

/-- One path that was stored before: removed, changed or untouched. -/
def announceKnownStep (arcCost : ArcId → Cost) (d : HCoord) (vd : List NodePath)
    (validFp : Option Fp) (validNn : UInt32) (od : List NodePath) (p : NodePath) :
    Outcome QspnError Announced :=
  match od.find? fun o => o.hopsArcsEqual p.path with
  | none =>
      .ok ⟨od, [deadPath (prepareForSending p (arcCost p.arc))],
        if d.level = 0 ∨ p.exposed then [.pathRemoved (toRoutePath p (arcCost p.arc))] else []⟩
  | some o =>
      if vd.any fun v => v.hopsArcsEqual p.path then do
        let wire := prepareForSending o (arcCost o.arc)
        let route := toRoutePath o (arcCost o.arc)
        if d.level = 0 then .ok ⟨od, [wire], [.pathChanged route]⟩
        else
          let valid ← Outcome.expect "d.level > 0" validFp
          let exposing := od.set (od.findIdx fun o => o.hopsArcsEqual p.path)
            { o with exposed := true }
          -- The stored path's own fingerprint is compared, not the replacement's.
          if p.path.fingerprint.sameBranch valid p.path.nodesInside validNn then
            .ok ⟨exposing, [wire], [if p.exposed then .pathChanged route else .pathAdded route]⟩
          else
            .ok ⟨od, [wire],
              if p.exposed then [.pathRemoved (toRoutePath p (arcCost p.arc))] else []⟩
      else .ok ⟨od, [], []⟩

/-- The paths that were stored before. -/
def announceKnown (arcCost : ArcId → Cost) (d : HCoord) (vd : List NodePath)
    (validFp : Option Fp) (validNn : UInt32) :
    List NodePath → List NodePath → Outcome QspnError Announced
  | [], od => .ok ⟨od, [], []⟩
  | p :: md, od => do
      let a ← announceKnownStep arcCost d vd validFp validNn od p
      let r ← announceKnown arcCost d vd validFp validNn md a.od
      .ok ⟨r.od, a.paths ++ r.paths, a.events ++ r.events⟩

/-! ## Forks -/

/-- The distinct branches among paths, first come first listed. -/
def branches (paths : List NodePath) : List (Fp × UInt32) :=
  paths.foldl (fun known np =>
    if known.any fun e => e.1.sameBranch np.path.fingerprint e.2 np.path.nodesInside then known
    else known ++ [(np.path.fingerprint, np.path.nodesInside)]) []

/-- The eldest of the branches; a tie keeps the current one. -/
def eldestBranch (eldest : Fp × UInt32) (b : Fp × UInt32) : Outcome QspnError (Fp × UInt32) :=
  match b.1.elderSeed eldest.1 with
  | .ok true => .ok b
  | .ok false => .ok eldest
  | .error (.err .indistinguishableFingerprints) => .ok eldest
  | .error (.err e) => Outcome.fail (.common e)
  | .error (.panic site) => .error (.panic site)

/-- The cheapest stored path of a branch. -/
def cheapestWith (arcCost : ArcId → Cost) (paths : List NodePath) (b : Fp × UInt32) :
    Outcome QspnError NodePath :=
  Outcome.expect "fp came from this destination's own path set"
    (Scan.firstMin (fun np => np.totalCost (arcCost np.arc))
      (paths.filter fun np => np.path.fingerprint.sameBranch b.1 np.path.nodesInside b.2))

/-- The fork check on a destination as now stored, given the branches known before. -/
def splitCheck (arcCost : ArcId → Cost) (d : HCoord) (f1 : List (Fp × UInt32))
    (paths : List NodePath) : Outcome QspnError (Bool × List SplitSignal) :=
  match branches paths with
  | [] => .ok (false, [])
  | [_] => .ok (false, [])
  | b :: b' :: more => do
      let f2 := b :: b' :: more
      let first := f2.any fun e => !f1.any fun f => f.1.sameBranch e.1 f.2 e.2
      let eldest ← (b' :: more).foldlM eldestBranch b
      let bpEldest ← cheapestWith arcCost paths eldest
      let signals ← (f2.filter fun e => !e.1.sameBranch eldest.1 e.2 eldest.2).mapM fun e => do
        let bp ← cheapestWith arcCost paths e
        .ok (⟨d, eldest.1, e.1, bpEldest, bp⟩ : SplitSignal)
      .ok (first, signals)

/-- The fork check; a level-0 destination is a single node and cannot fork. -/
def detectSplit (arcCost : ArcId → Cost) (d : HCoord) (f1 : List (Fp × UInt32)) :
    Option Destination → Outcome QspnError (Bool × List SplitSignal)
  | none => .ok (false, [])
  | some dest => if d.level = 0 then .ok (false, []) else splitCheck arcCost d f1 dest.paths

/-! ## One destination -/

/-- What is decided for a destination before anything is written. -/
structure Plan where
  od : List NodePath
  allPathsSet : List EtpPath
  events : List QspnEvent

/-- The paths admitted for `d`, given its stored paths and its candidates. -/
def admitted (s : QspnState F) (arcCost : ArcId → Cost) (zSet : List (List HCoord)) (d : HCoord)
    (merged : Merged) : Outcome QspnError (List NodePath) := do
  let sorted := (merged.od ++ merged.rest).insertionSort fun a b =>
    a.totalCost (arcCost a.arc) ≤ b.totalCost (arcCost b.arc)
  let (known, nn) ← pruneUnknown s sorted .empty
  let od := Scan.dedupOn (fun np => np.path.route) [] known
  let vnd ← directNeighbors s
  let mch ← overlapTolerance s d
  let a ← admitCandidates s d nn mch ⟨[], vnd, (zSet.take d.level).flatten, []⟩ od
  .ok a.rd

/-- The winning fingerprint of the admitted set; a level-0 destination needs none. -/
def validFingerprint (d : HCoord) (od : List NodePath) : Outcome QspnError (Option Fp) :=
  if d.level = 0 then .ok none else (winningFingerprint od).mapErr QspnError.common

/-- The size the winning fingerprint comes with. -/
def validNodesInside (validFp : Option Fp) (od : List NodePath) : UInt32 :=
  ((validFp.bind fun fp => od.find? fun o => o.path.fingerprint.identityEq fp).map
    fun o => o.path.nodesInside).getD 0

/-- Everything up to the commit. -/
def planDestination (s : QspnState F) (qd : List NodePath) (d : HCoord) (aChanged : Option ArcId)
    (zSet : List (List HCoord)) (arcCost : ArcId → Cost) : Outcome QspnError Plan := do
  let m ← Outcome.index s.destinations d.level
  let md := ((m.get? d.pos).map Destination.paths).getD []
  let merged := mergeKnown s.config.nodesInsideTolerance aChanged md qd
  let od ← admitted s arcCost zSet d merged
  let validFp ← validFingerprint d od
  let validNn := validNodesInside validFp od
  let fresh ← announceNew arcCost d md validFp validNn od
  let known ← announceKnown arcCost d merged.vd validFp validNn md fresh.od
  let events := fresh.events ++ known.events
  .ok {
    od := known.od
    allPathsSet := fresh.paths ++ known.paths
    events := (if md = [] ∧ known.od ≠ [] then [.destinationAdded d] else []) ++ events ++
      (if md ≠ [] ∧ known.od = [] then [.destinationRemoved d] else []) }

/-- Writes the decided paths to the map. -/
def commit (order : MapOrder) (s : QspnState F) (d : HCoord) (od : List NodePath) :
    QspnState F :=
  { s with
    destinations := s.destinations.modify d.level fun m =>
      if od = [] then m.erase d.pos else (m.insert d.pos ⟨d, od⟩).rearrange order.entries }

/-- The branches of a destination, which only exist above level 0. -/
def knownBranches (s : QspnState F) (d : HCoord) : List (Fp × UInt32) :=
  if d.level = 0 then []
  else branches (s.storedAt d)

/-- `update_map_one_destination`. -/
def updateMapOneDestination (order : MapOrder) (aChanged : Option ArcId)
    (zSet : List (List HCoord)) (arcCost : ArcId → Cost) (s : QspnState F) (qd : List NodePath)
    (d : HCoord) : QspnState F × Outcome QspnError OneDestOutcome :=
  match planDestination s qd d aChanged zSet arcCost with
  | .error e => (s, .error e)
  | .ok plan =>
      let s' := commit order s d plan.od
      (s', do
        let (first, signals) ←
          detectSplit arcCost d (knownBranches s d) (s'.destination d.level d.pos)
        .ok ⟨plan.allPathsSet, first, plan.events, signals⟩)

/-! ## All destinations -/

/-- The candidates for one destination, in the order they came. -/
def candidatesFor (q : List NodePath) (d : HCoord) : List NodePath :=
  q.filter fun np => decide (np.path.hops.getLast? = some d)

/-- How many hops of level `d.level` the cheapest candidate for `d` has. -/
def hopsInLevel (arcCost : ArcId → Cost) (q : List NodePath) (d : HCoord) : ℕ :=
  match Scan.firstMin (fun np => np.totalCost (arcCost np.arc)) (candidatesFor q d) with
  | some best => best.path.hops.countP fun h => decide (h.level = d.level)
  | none => 0

/-- The destinations of the candidates in processing order: by level, then by hop count of the
cheapest candidate. -/
def sortedKeys (order : MapOrder) (arcCost : ArcId → Cost) (q : List NodePath) :
    Outcome QspnError (List HCoord) := do
  let dests ← q.mapM fun np => Outcome.expect "path always has >= 1 hop" np.path.hops.getLast?
  let keys := order.keys.arrange (Scan.dedupOn id [] dests)
  .ok (keys.insertionSort fun d₀ d₁ =>
    toLex (d₀.level, hopsInLevel arcCost q d₀) ≤ toLex (d₁.level, hopsInLevel arcCost q d₁))

/-- The outcomes of the single destinations, put together. -/
def collectOutcomes (outs : List (HCoord × OneDestOutcome)) : UpdateMapOutcome where
  allPathsSet := outs.flatMap fun o => o.2.allPathsSet
  bSet := Scan.dedupOn id [] ((outs.filter fun o => o.2.firstDetectionSplit).map Prod.fst)
  events := outs.flatMap fun o => o.2.events
  splitSignals := outs.flatMap fun o => o.2.splitSignals

/-- The read-only start of `update_map`: my neighbours at every level, and the destinations. -/
def updateMapKeys (order : MapOrder) (s : QspnState F) (q : List NodePath) :
    Outcome QspnError (List (List HCoord) × List HCoord) := do
  let zSet ← (List.range s.levels).mapM s.myGnodeNeighbors
  let keys ← sortedKeys order s.arcCost q
  .ok (zSet, keys)

/-- The body of `update_map`'s loop. -/
def updateMapBody (order : MapOrder) (aChanged : Option ArcId) (zSet : List (List HCoord))
    (arcCost : ArcId → Cost) (q : List NodePath) (s : QspnState F) (d : HCoord) :
    QspnState F × Outcome QspnError (HCoord × OneDestOutcome) :=
  match updateMapOneDestination order aChanged zSet arcCost s (candidatesFor q d) d with
  | (s', .error e) => (s', .error e)
  | (s', .ok out) => (s', .ok (d, out))

/-- `update_map`. -/
def updateMap (order : MapOrder) (s : QspnState F) (q : List NodePath) (aChanged : Option ArcId) :
    QspnState F × Outcome QspnError UpdateMapOutcome :=
  match updateMapKeys order s q with
  | .error e => (s, .error e)
  | .ok (zSet, keys) =>
      -- The arc table is read once: costs do not change while the map is rewritten.
      let (s', r) := Outcome.loop (updateMapBody order aChanged zSet s.arcCost q) s keys
      (s', r.map collectOutcomes)

end Netsukuku
