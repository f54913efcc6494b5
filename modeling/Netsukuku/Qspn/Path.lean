import Mathlib
import Netsukuku.Core.Scan
import Netsukuku.Common.Address
import Netsukuku.Common.Cost
import Netsukuku.Common.Fingerprint
import Netsukuku.Proto.Domain

/-!
# Paths, messages and destinations

The data an Extended Tracer Packet carries and a node stores.

* `EtpPath` — one path to one g-node: the coordinates visited, one arc id per coordinate, and the
  fact itself (cost, fingerprint, size).
* `EtpMessage` — a message: its sender's address and fingerprints, the trail it has travelled and
  the paths it tells about.
* `NodePath` — a path bound to the local arc it was learned from; the unit the map stores.
* `Destination.evaluate` — the winning fingerprint among the stored paths and the cheapest path
  carrying it.

Two paths are the same route when their hops and their arcs agree (`EtpPath.route`); everything
the map does with identity goes through that key.
-/

namespace Netsukuku

/-- A QSPN-local arc id. -/
structure ArcId where
  asU32 : UInt32
  deriving DecidableEq, Repr

instance : LinearOrder ArcId :=
  LinearOrder.lift' (fun a => a.asU32.toNat) fun a b h => by
    obtain ⟨x⟩ := a
    obtain ⟨y⟩ := b
    exact congrArg ArcId.mk (UInt32.toNat_inj.mp h)

/-- QSPN fixes the wire identity: a byte string. -/
abbrev Fp := Fingerprint (List UInt8)

/-- The errors of the QSPN crate. -/
inductive QspnError where
  | acyclic
  | etpFromSelf
  | malformedEtp (why : String)
  | bootstrapInProgress
  | notAnArc
  | unknownArc
  | common (e : CommonError)
  | domain (e : DomainDecodeError)
  deriving DecidableEq, Repr

/-- One path to one destination, as carried inside an ETP. -/
structure EtpPath where
  hops : List HCoord
  arcs : List ArcId
  cost : Cost
  fingerprint : Fp
  nodesInside : UInt32
  ignoreOutside : List Bool
  deriving DecidableEq, Repr

/-- A full or incremental ETP. -/
structure EtpMessage where
  nodeAddress : Naddr
  fingerprints : List Fp
  nodesInside : List UInt32
  hops : List HCoord
  paths : List EtpPath
  deriving DecidableEq

/-- A path bound to the local arc it was learned from. -/
structure NodePath where
  arc : ArcId
  path : EtpPath
  exposed : Bool
  deriving DecidableEq, Repr

/-- The identity of a path: its hops and its arcs. -/
def EtpPath.route (p : EtpPath) : List HCoord × List ArcId := (p.hops, p.arcs)

namespace NodePath

/-- A fresh, never exposed path. -/
def new (arc : ArcId) (path : EtpPath) : NodePath := ⟨arc, path, false⟩

/-- The arc's own cost plus the cost the path has accumulated. -/
def totalCost (np : NodePath) (arcCost : Cost) : Cost := arcCost.saturatingAdd np.path.cost

def hopsArcsEqual (np : NodePath) (other : EtpPath) : Bool :=
  decide (np.path.hops = other.hops) && decide (np.path.arcs = other.arcs)

lemma hopsArcsEqual_iff {np : NodePath} {p : EtpPath} :
    np.hopsArcsEqual p = true ↔ np.path.route = p.route := by
  simp [hopsArcsEqual, EtpPath.route]

end NodePath

/-- One hop of an exposed route. -/
structure Hop where
  arc : ArcId
  coord : HCoord
  deriving DecidableEq, Repr

/-- A path as exposed to consumers. -/
structure RoutePath where
  arc : ArcId
  hops : List Hop
  cost : Cost
  nodesInside : UInt32
  deriving DecidableEq, Repr

def toRoutePath (np : NodePath) (arcCost : Cost) : RoutePath where
  arc := np.arc
  hops := (np.path.hops.zip np.path.arcs).map fun e => ⟨e.2, e.1⟩
  cost := np.totalCost arcCost
  nodesInside := np.path.nodesInside

/-- The wire form of a stored path: its cost is the total cost, so that the next hop continues
to accumulate.  The pruning flags are filled in later. -/
def prepareForSending (np : NodePath) (arcCost : Cost) : EtpPath where
  hops := np.path.hops
  arcs := np.path.arcs
  cost := np.totalCost arcCost
  fingerprint := np.path.fingerprint
  nodesInside := np.path.nodesInside
  ignoreOutside := []

@[simp] lemma route_prepareForSending (np : NodePath) (c : Cost) :
    (prepareForSending np c).route = np.path.route := rfl

/-- The events a node publishes. -/
inductive QspnEvent where
  | arcRemoved (arc : ArcId) (badLink : Bool)
  | destinationAdded (d : HCoord)
  | destinationRemoved (d : HCoord)
  | pathAdded (r : RoutePath)
  | pathChanged (r : RoutePath)
  | pathRemoved (r : RoutePath)
  | changedFingerprint (level : ℕ)
  | changedNodesInside (level : ℕ)
  deriving DecidableEq, Repr

/-- All admitted paths to one destination. -/
structure Destination where
  coord : HCoord
  paths : List NodePath
  deriving DecidableEq, Repr

/-! ## The winning fingerprint -/

/-- One step of the election: the candidate replaces the winner if it outranks it.  A tie keeps
the winner; any other error of the comparison is passed on. -/
def electFingerprint : Option Fp → Fp → Outcome CommonError (Option Fp)
  | none, fp => .ok (some fp)
  | some w, fp =>
      if fp.identityEq w then .ok (some w)
      else
        match fp.elderSeed w with
        | .ok true => .ok (some fp)
        | .ok false => .ok (some w)
        | .error (.err .indistinguishableFingerprints) => .ok (some w)
        | .error e => .error e

/-- The elder among the fingerprints of `paths`. -/
def winningFingerprint (paths : List NodePath) : Outcome CommonError (Option Fp) :=
  paths.foldlM (fun winner p => electFingerprint winner p.path.fingerprint) none

/-- Winning fingerprint, its `nodes_inside`, and the index of the cheapest path carrying it. -/
def Destination.evaluate (dest : Destination) (arcCost : ArcId → Cost) :
    Outcome CommonError (Fp × UInt32 × ℕ) := do
  let total := fun e : NodePath × ℕ => e.1.totalCost (arcCost e.1.arc)
  Outcome.assert "Destination is never stored empty (qspn.vala:1728-1736)" (!dest.paths.isEmpty)
  if dest.coord.level = 0 then
    let best ← Outcome.expect "non-empty" (Scan.firstMin total dest.paths.zipIdx)
    .ok (best.1.path.fingerprint, best.1.path.nodesInside, best.2)
  else
    let winner? ← winningFingerprint dest.paths
    let winner ← Outcome.expect "non-empty" winner?
    let best ← Outcome.expect "winner fingerprint came from one of these paths"
      (Scan.firstMin total
        (dest.paths.zipIdx.filter fun e => e.1.path.fingerprint.identityEq winner))
    .ok (winner, best.1.path.nodesInside, best.2)

/-- An election among fingerprints of one aggregated level returns, and returns one of them. -/
lemma electFingerprint_ok {level : ℕ} (h₀ : level ≠ 0) {w : Option Fp} {fp : Fp}
    (hw : ∀ x, w = some x → x.level = level) (hfp : fp.level = level) :
    ∃ x, electFingerprint w fp = .ok (some x) ∧ (x = fp ∨ w = some x) := by
  cases w with
  | none => exact ⟨fp, rfl, Or.inl rfl⟩
  | some w =>
      rw [electFingerprint]
      split_ifs
      · exact ⟨w, rfl, Or.inr rfl⟩
      · have hlevel : fp.level = w.level := hfp.trans (hw w rfl).symm
        rcases Fingerprint.elderSeed_total (hfp ▸ h₀) hlevel with ⟨b, hb⟩ | hb
        · rw [hb]
          cases b with
          | true => exact ⟨fp, rfl, Or.inl rfl⟩
          | false => exact ⟨w, rfl, Or.inr rfl⟩
        · rw [hb]
          exact ⟨w, rfl, Or.inr rfl⟩

/-- **The election returns.**  Among paths whose fingerprints share one aggregated level there is
a winner as soon as there is a path, and it is the fingerprint of one of them. -/
theorem winningFingerprint_ok {level : ℕ} (h₀ : level ≠ 0) {paths : List NodePath}
    (hfp : ∀ p ∈ paths, p.path.fingerprint.level = level) :
    ∃ w, winningFingerprint paths = .ok w ∧ (w = none → paths = []) ∧
      ∀ x, w = some x → ∃ p ∈ paths, p.path.fingerprint = x := by
  -- The fold is generalised over the paths already met, which the winner comes from.
  have loop : ∀ (rest met : List NodePath) (w : Option Fp), met ++ rest = paths →
      (w = none → met = []) → (∀ x, w = some x → ∃ p ∈ met, p.path.fingerprint = x) →
      ∃ w', rest.foldlM (fun winner p => electFingerprint winner p.path.fingerprint) w = .ok w' ∧
        (w' = none → paths = []) ∧ ∀ x, w' = some x → ∃ p ∈ paths, p.path.fingerprint = x := by
    intro rest
    induction rest with
    | nil =>
        intro met w hmet hnone hsome
        rw [List.append_nil] at hmet
        exact ⟨w, rfl, hmet ▸ hnone, hmet ▸ hsome⟩
    | cons p rest ih =>
        intro met w hmet hnone hsome
        have hp : p ∈ paths := hmet ▸ List.mem_append_right _ List.mem_cons_self
        have hw : ∀ x, w = some x → x.level = level := by
          intro x hx
          obtain ⟨q, hq, rfl⟩ := hsome x hx
          exact hfp q (hmet ▸ List.mem_append_left _ hq)
        obtain ⟨x, hx, hfrom⟩ := electFingerprint_ok h₀ hw (hfp p hp)
        obtain ⟨w', hw', h⟩ := ih (met ++ [p]) (some x) (by simpa using hmet) (by simp) (by
          rintro y ⟨⟩
          rcases hfrom with rfl | hold
          · exact ⟨p, by simp, rfl⟩
          · obtain ⟨q, hq, hqx⟩ := hsome x hold
            exact ⟨q, List.mem_append_left _ hq, hqx⟩)
        exact ⟨w', by rw [List.foldlM_cons, hx, Outcome.ok_bind, hw'], h⟩
  exact loop paths [] none rfl (fun _ => rfl) (by simp)

/-- **Evaluation never fails on a well-formed destination.** -/
theorem Destination.evaluate_ok {dest : Destination} (hne : dest.paths ≠ [])
    (hfp : ∀ p ∈ dest.paths, p.path.fingerprint.level = dest.coord.level)
    (arcCost : ArcId → Cost) :
    ∃ r, dest.evaluate arcCost = .ok r := by
  have hassert : (!dest.paths.isEmpty) = true := by simpa using hne
  unfold evaluate
  rw [hassert, Outcome.assert_true, Outcome.ok_bind]
  split_ifs with h₀
  · have hz : dest.paths.zipIdx ≠ [] := by simpa using hne
    obtain ⟨best, hbest⟩ := Scan.exists_firstMin
      (fun e : NodePath × ℕ => e.1.totalCost (arcCost e.1.arc)) hz
    rw [hbest, Outcome.expect_some, Outcome.ok_bind]
    exact ⟨_, rfl⟩
  · obtain ⟨w, hw, hnone, hsome⟩ := winningFingerprint_ok h₀ hfp
    cases w with
    | none => exact absurd (hnone rfl) hne
    | some w =>
        obtain ⟨p, hp, hpw⟩ := hsome w rfl
        have hf : dest.paths.zipIdx.filter (fun e => e.1.path.fingerprint.identityEq w) ≠ [] := by
          obtain ⟨i, hi, hpi⟩ := List.mem_iff_getElem.mp hp
          refine List.ne_nil_of_mem (List.mem_filter.mpr ⟨List.mk_mem_zipIdx_iff_getElem?.mpr
            (List.getElem?_eq_getElem hi), ?_⟩)
          rw [hpi, hpw]
          exact Fingerprint.identityEq_self w
        obtain ⟨best, hbest⟩ := Scan.exists_firstMin
          (fun e : NodePath × ℕ => e.1.totalCost (arcCost e.1.arc)) hf
        rw [hw, Outcome.ok_bind, Outcome.expect_some, Outcome.ok_bind, hbest,
          Outcome.expect_some, Outcome.ok_bind]
        exact ⟨_, rfl⟩

end Netsukuku
