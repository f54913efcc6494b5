import Mathlib
import Netsukuku.Qspn.UpdateMap

/-!
# Building outgoing ETPs

A message carries the node's own address and fingerprint chain, a trail and a list of paths.
Before a path is sent, `setIgnoreOutsideForSending` marks for every level whether the fact is
worth telling outside the g-node of that level: it is not when another stored path is the
preferred way to the same exit gateway.
-/

namespace Netsukuku

variable {F : Type} {ε : Type}

/-- `prepare_new_etp`. -/
def prepareNewEtp (s : QspnState F) (paths : List EtpPath) (etpHops : List HCoord) :
    Outcome ε EtpMessage := do
  let fingerprints ← (List.range (s.levels + 1)).mapM fun l =>
    Outcome.expect "l <= levels" s.myFingerprints[l]?
  let nodesInside ← (List.range (s.levels + 1)).mapM fun l =>
    Outcome.expect "l <= levels" s.myNodesInside[l]?
  .ok ⟨s.myNaddr, fingerprints, nodesInside, etpHops, paths⟩

/-- The first `j` hops and arcs of `best` are those of `p`. -/
def samePrefix (best p : EtpPath) : ℕ → Outcome ε Bool
  | 0 => .ok true
  | k + 1 => do
      if ← samePrefix best p k then
        let bestHop ← Outcome.index best.hops k
        let hop ← Outcome.index p.hops k
        let bestArc ← Outcome.index best.arcs k
        let arc ← Outcome.index p.arcs k
        .ok (decide (bestHop = hop) && decide (bestArc = arc))
      else .ok false

/-- The preferred stored path to an exit gateway: the first cheapest one ending in `gateway`. -/
def preferredExit (s : QspnState F) (d : Destination) (gateway : ArcId) : Option NodePath :=
  Scan.firstMin (fun q => q.totalCost (s.arcCost q.arc))
    (d.paths.filter fun q => decide (q.path.arcs.getLast? = some gateway))

/-- Whether `p`'s fact is to be ignored outside level `i`. -/
def ignoreOutsideAt (s : QspnState F) (p : EtpPath) (lastLevel i : ℕ) : Outcome ε Bool :=
  if lastLevel < i then .ok true
  else do
    let j ← Outcome.expect "last_level >= i" (p.hops.findIdx? fun h => decide (i ≤ h.level))
    let hop ← Outcome.index p.hops j
    match s.destination hop.level hop.pos with
    | none => .ok false
    | some d =>
        let gateway ← Outcome.index p.arcs j
        match preferredExit s d gateway with
        | none => .ok false
        | some best =>
            if best.path.hops.length = j + 1 then
              let same ← samePrefix best.path p j
              .ok !same
            else .ok true

/-- `set_ignore_outside_for_sending`. -/
def setIgnoreOutsideForSending (s : QspnState F) (p : EtpPath) : Outcome ε EtpPath := do
  let last ← Outcome.expect "path always has >= 1 hop" p.hops.getLast?
  let flags ← (List.range' 1 (s.levels - 1)).mapM (ignoreOutsideAt s p last.level)
  .ok { p with ignoreOutside := false :: flags }

/-- `finalize_for_sending`. -/
def finalizeForSending (s : QspnState F) (paths : List EtpPath) : Outcome ε (List EtpPath) :=
  paths.mapM (setIgnoreOutsideForSending s)

/-- The stored paths of the given levels in wire form, flags not yet set. -/
def wirePaths (s : QspnState F) (levels : List ℕ) : List EtpPath :=
  (levels.flatMap s.allPathsAt).map fun np => prepareForSending np (s.arcCost np.arc)

/-- `prepare_full_etp`: every stored path of every level. -/
def prepareFullEtp (s : QspnState F) : Outcome ε EtpMessage := do
  let paths ← finalizeForSending s (wirePaths s (List.range s.levels))
  prepareNewEtp s paths []

end Netsukuku
