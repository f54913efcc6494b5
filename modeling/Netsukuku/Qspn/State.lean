import Mathlib
import Netsukuku.Core.KeyedMap
import Netsukuku.Qspn.Revise
import Netsukuku.Qspn.Config

/-!
# The routing state of a node

`QspnState` is what the actor task owns: the node's address and fingerprint chain, its arcs, and
one destination map per level.  This module has the state and every operation on it except
`update_map`, which has a module of its own.

* `addArc`, `setArcCost`, `recordPeerNaddr`, `removeArc` — the arc table.
* `updateClusters` — climb the fingerprint chain from the stored destinations.
* `exposedPaths`, `snapshot` — what consumers see.
* `exitNetwork` — leave the g-nodes at and above a level.

An operation that mutates the state and may fail returns the new state beside its result, because
the part of the mutation done before a failure stays.  The destination maps are hash maps, listed
in iteration order.
-/

namespace Netsukuku

/-- What a node records about one of its arcs. -/
structure ArcEntry where
  cost : Cost
  peerNaddr : Option Naddr
  deriving DecidableEq

/-- The hooking phase of an identity that enters an existing network. -/
inductive Bootstrap where
  | complete
  | inProgress (guestGnodeLevel hostGnodeLevel : ℕ)
  deriving DecidableEq, Repr

structure QspnState (F : Type) where
  myNaddr : Naddr
  myFingerprints : List Fp
  myNodesInside : List UInt32
  arcs : KeyedMap ArcId ArcEntry
  destinations : List (KeyedMap UInt32 Destination)
  config : QspnConfig F
  bootstrap : Bootstrap

/-- What removing an arc took away. -/
structure RemoveArcOutcome where
  events : List QspnEvent
  deadPaths : List EtpPath

structure RouteEntry where
  destination : HCoord
  paths : List RoutePath
  deriving DecidableEq, Repr

/-- One list of entries per level. -/
abbrev RouteSnapshot := List (List RouteEntry)

namespace QspnState

variable {F : Type}

/-- The fingerprints above level 0 of a node alone in all its g-nodes. -/
def climbAlone (fp : Fp) : ℕ → Outcome QspnError (List Fp)
  | 0 => .ok []
  | n + 1 => do
      let next ← Outcome.unwrap "fingerprint must carry >= levels pending eldership entries"
        (fp.construct [] false)
      let rest ← climbAlone next n
      .ok (next :: rest)

/-- `QspnState::new`: a node that has created its own network. -/
def new (myNaddr : Naddr) (myFingerprint : Fp) (config : QspnConfig F) :
    Outcome QspnError (QspnState F) := do
  let levels := myNaddr.topology.levels
  let above ← climbAlone myFingerprint levels
  .ok {
    myNaddr
    myFingerprints := myFingerprint :: above
    myNodesInside := List.replicate (levels + 1) 1
    arcs := .empty
    destinations := List.replicate levels .empty
    config
    bootstrap := .complete }

def levels (s : QspnState F) : ℕ := s.myNaddr.topology.levels

def isBootstrapComplete (s : QspnState F) : Bool := decide (s.bootstrap = .complete)

def guestGnodeLevel (s : QspnState F) : ℕ :=
  match s.bootstrap with
  | .complete => s.levels
  | .inProgress guest _ => guest

def containsArc (s : QspnState F) (arc : ArcId) : Bool := s.arcs.contains arc

def destination (s : QspnState F) (level : ℕ) (pos : UInt32) : Option Destination :=
  s.destinations[level]?.bind fun m => m.get? pos

/-- The paths stored for `d`. -/
def storedAt (s : QspnState F) (d : HCoord) : List NodePath :=
  ((s.destination d.level d.pos).map Destination.paths).getD []

def peerNaddr (s : QspnState F) (arc : ArcId) : Option Naddr :=
  (s.arcs.get? arc).bind ArcEntry.peerNaddr

/-- The current cost of an arc; an arc that is gone costs `Dead`. -/
def arcCost (s : QspnState F) (arc : ArcId) : Cost :=
  match s.arcs.get? arc with
  | some e => e.cost
  | none => .dead

/-! ## The arc table -/

def addArc (s : QspnState F) (id : ArcId) (cost : Cost) : QspnState F :=
  { s with arcs := s.arcs.insertOrdered id ⟨cost, none⟩ }

def setArcCost (s : QspnState F) (arc : ArcId) (cost : Cost) : QspnState F :=
  match s.arcs.get? arc with
  | some e => { s with arcs := s.arcs.insertOrdered arc { e with cost } }
  | none => s

/-- Records the address of the peer over `arc` and returns the one recorded before. -/
def recordPeerNaddr (s : QspnState F) (arc : ArcId) (new : Naddr) :
    QspnState F × Option Naddr :=
  match s.arcs.get? arc with
  | some e => ({ s with arcs := s.arcs.insertOrdered arc { e with peerNaddr := some new } },
      e.peerNaddr)
  | none => (s, none)

/-- The stored paths of one level, in iteration order. -/
def allPathsAt (s : QspnState F) (level : ℕ) : List NodePath :=
  match s.destinations[level]? with
  | some m => m.values.flatMap Destination.paths
  | none => []

/-- Every stored path that starts with `arc`. -/
def pathsViaArc0 (s : QspnState F) (arc : ArcId) : List NodePath :=
  (s.destinations.flatMap fun m => m.values.flatMap Destination.paths).filter
    fun np => decide (np.path.arcs.head? = some arc)

/-- The first half of ingesting a message: record the peer's address, then revise against the
paths already known over the arc.  Only a full ETP needs those. -/
def reviseOver (s : QspnState F) (arc : ArcId) (m : EtpMessage) (isFull : Bool) :
    QspnState F × Outcome QspnError RevisedEtp :=
  let (s, oldPeer) := s.recordPeerNaddr arc m.nodeAddress
  let existing := if isFull then s.pathsViaArc0 arc else []
  (s, reviseEtp s.myNaddr m arc oldPeer isFull existing)

/-- A destination without the paths of the removed arc; dropped if none is left. -/
def withoutArc (arc : ArcId) (d : Destination) : Option Destination :=
  let paths := d.paths.filter fun np => decide (np.arc ≠ arc)
  if paths = [] then none else some { d with paths }

/-- The events of removing `arc` from one level map: the paths first, then the destinations that
are left without any. -/
def removalEvents (arc : ArcId) (m : KeyedMap UInt32 Destination) : List QspnEvent :=
  (m.values.flatMap fun d => (d.paths.filter fun np => decide (np.arc = arc)).map fun np =>
    QspnEvent.pathRemoved (toRoutePath np .dead)) ++
  (m.values.filter fun d => (withoutArc arc d).isNone).map fun d =>
    QspnEvent.destinationRemoved d.coord

/-- The paths of `arc` in one level map, as withdrawals. -/
def removalDeadPaths (arc : ArcId) (m : KeyedMap UInt32 Destination) : List EtpPath :=
  m.values.flatMap fun d => (d.paths.filter fun np => decide (np.arc = arc)).map fun np =>
    deadPath (prepareForSending np .dead)

def removeArc (s : QspnState F) (arc : ArcId) : QspnState F × RemoveArcOutcome :=
  if s.containsArc arc then
    ({ s with
        arcs := s.arcs.erase arc
        destinations := s.destinations.map (·.filterMapValues (withoutArc arc)) },
      ⟨s.destinations.flatMap (removalEvents arc), s.destinations.flatMap (removalDeadPaths arc)⟩)
  else (s, ⟨[], []⟩)

/-! ## Reading the map -/

/-- Where a trail enters level `i` from below. -/
def entryHop (i : ℕ) : List HCoord → Option HCoord
  | yPrev :: y :: hops =>
      if y.level = i ∧ yPrev.level < i then some y else entryHop i (y :: hops)
  | _ => none

/-- The neighbour of my level-`i` g-node that one stored path passes through, if any. -/
def neighborAlong (i : ℕ) (np : NodePath) : Outcome QspnError (Option HCoord) := do
  let y ← Outcome.index np.path.hops 0
  .ok (if y.level = i then some y else entryHop i np.path.hops)

/-- `my_gnode_neighbors`. -/
def myGnodeNeighbors (s : QspnState F) (i : ℕ) : Outcome QspnError (List HCoord) := do
  let maps ← (List.range' i (s.levels - i)).mapM fun l => Outcome.index s.destinations l
  let ys ← (maps.flatMap fun m => m.values.flatMap Destination.paths).mapM (neighborAlong i)
  .ok (Scan.dedupOn id [] (ys.filterMap id))

/-- The paths of a destination worth exposing: those of the winning branch. -/
def exposedPaths (s : QspnState F) (d : HCoord) : Outcome QspnError (List NodePath) :=
  match s.destination d.level d.pos with
  | none => .ok []
  | some dest =>
      if dest.paths = [] then .ok []
      else if d.level = 0 then .ok dest.paths
      else do
        let (validFp, validNn, _) ← (dest.evaluate s.arcCost).mapErr .common
        .ok (dest.paths.filter fun p =>
          p.path.fingerprint.sameBranch validFp p.path.nodesInside validNn)

/-- The snapshot entry of one destination, if it exposes anything. -/
def snapshotEntry (s : QspnState F) (d : Destination) : Outcome QspnError (Option RouteEntry) := do
  let exposed ← s.exposedPaths d.coord
  if exposed = [] then .ok none
  else
    let paths := exposed.map fun np => toRoutePath np (s.arcCost np.arc)
    .ok (some ⟨d.coord, paths.insertionSort fun a b => a.cost ≤ b.cost⟩)

def snapshot (s : QspnState F) : Outcome QspnError RouteSnapshot :=
  s.destinations.zipIdx.mapM fun e =>
    if s.guestGnodeLevel ≤ e.2 then .ok []
    else do
      let entries ← e.1.values.mapM s.snapshotEntry
      .ok (entries.filterMap id)

/-! ## The fingerprint chain -/

/-- Collects the fingerprint and the size of one destination. -/
def clusterSum (s : QspnState F) (childLevel : ℕ) (acc : List Fp × ℕ) (d : Destination) :
    Outcome QspnError (List Fp × ℕ) := do
  let (fp, nn, _) ← (d.evaluate s.arcCost).mapErr .common
  let total ← Outcome.checkedAdd 64 acc.2 (if childLevel = 0 then 1 else nn.toNat)
  .ok (acc.1 ++ [fp], total)

/-- One level of `update_clusters`: the g-node of level `i` from the destinations below it. -/
def clusterLevel (s : QspnState F) (i : ℕ) : Outcome QspnError (QspnState F × List QspnEvent) := do
  let childLevel := i - 1
  let children ← Outcome.index s.destinations childLevel
  let (fpSet, nnTot) ← children.values.foldlM (s.clusterSum childLevel) ([], 0)
  let isNullEldership := (s.myNaddr.isVirtualAt childLevel).getD false
  let childFp ← Outcome.index s.myFingerprints childLevel
  let newFp ← (childFp.construct fpSet isNullEldership).mapErr .common
  let oldFp ← Outcome.index s.myFingerprints i
  let childNn ← Outcome.index s.myNodesInside childLevel
  let total ← Outcome.checkedAdd 64 childNn.toNat nnTot
  let newNn := UInt32.ofNat (min total (2 ^ 32 - 1))
  let oldNn ← Outcome.index s.myNodesInside i
  .ok ({ s with
      myFingerprints := s.myFingerprints.set i newFp
      myNodesInside := s.myNodesInside.set i newNn },
    (if newFp.identityEq oldFp then [] else [.changedFingerprint i]) ++
      (if newNn = oldNn then [] else [.changedNodesInside i]))

/-- A level that fails leaves the chain as the levels below it made it. -/
def clusterStep (s : QspnState F) (i : ℕ) : QspnState F × Outcome QspnError (List QspnEvent) :=
  match s.clusterLevel i with
  | .error e => (s, .error e)
  | .ok (s', events) => (s', .ok events)

/-- `update_clusters`: climb all levels. -/
def updateClusters (s : QspnState F) : QspnState F × Outcome QspnError (List QspnEvent) :=
  let (s', r) := Outcome.loop clusterStep s (List.range' 1 s.levels)
  (s', r.map List.flatten)

/-! ## Leaving a network -/

/-- Drops every destination at or above `lvl`. -/
def stripDestinationsAtOrAbove (s : QspnState F) (lvl : ℕ) : QspnState F × List QspnEvent :=
  ({ s with
      destinations := s.destinations.take lvl ++
        List.replicate (s.destinations.length - lvl) .empty },
    (s.destinations.drop lvl).flatMap fun m => m.values.flatMap fun d =>
      (d.paths.map fun np => QspnEvent.pathRemoved (toRoutePath np .dead)) ++
        [.destinationRemoved d.coord])

/-- The arcs whose peer sits at or above `lvl`. -/
def arcsAtOrAbove (s : QspnState F) (lvl : ℕ) : List ArcId :=
  s.arcs.entries.filterMap fun e => do
    let peer ← e.2.peerNaddr
    let v ← (s.myNaddr.hcoord peer).toOption.join
    if lvl ≤ v.level then some e.1 else none

/-- Removes several arcs, one after the other. -/
def removeArcs (s : QspnState F) (arcs : List ArcId) : QspnState F × List QspnEvent :=
  arcs.foldl (fun acc arc =>
    let (s', removal) := acc.1.removeArc arc
    (s', acc.2 ++ removal.events ++ [.arcRemoved arc false])) (s, [])

/-- `exit_network`: events and the arcs removed. -/
def exitNetwork (s : QspnState F) (lvl : ℕ) :
    QspnState F × Outcome QspnError (List QspnEvent × List ArcId) :=
  let (s₁, stripped) := s.stripDestinationsAtOrAbove lvl
  match s₁.updateClusters with
  | (s₂, .error e) => (s₂, .error e)
  | (s₂, .ok climbed) =>
      let removedArcs := s₂.arcsAtOrAbove lvl
      let (s₃, removed) := s₂.removeArcs removedArcs
      match s₃.updateClusters with
      | (s₄, .error e) => (s₄, .error e)
      | (s₄, .ok climbed') => (s₄, .ok (stripped ++ climbed ++ removed ++ climbed', removedArcs))

lemma mem_storedAt {s : QspnState F} {d : HCoord} {np : NodePath} :
    np ∈ s.storedAt d ↔ ∃ dest, s.destination d.level d.pos = some dest ∧ np ∈ dest.paths := by
  unfold storedAt
  cases s.destination d.level d.pos <;> simp

end QspnState

end Netsukuku
