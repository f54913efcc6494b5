import Mathlib
import Netsukuku.Core.Float64

/-!
# Admission parameters

The part of the configuration that decides which paths a node keeps: the cap on disjoint paths,
the overlap tolerance and its two lookup ladders.  Every real-valued parameter is an `f64` of the
source, so the whole is stated over any `Float64`; timers are left to the actor's environment.
-/

namespace Netsukuku

/-- The two lookup ladders of `mch_ratio`. -/
structure MchRatioTable (F : Type) where
  /-- By gateway count, one entry for each of 1 to 7 gateways. -/
  gatewayRatio : List.Vector F 7
  gatewayRatioOverflow : F
  /-- `(exclusive upper bound on destination size, ratio)`, ascending. -/
  sizeRatioBands : List (UInt32 × F)
  sizeRatioOverflow : F

/-- Hop-overlap weights of the disjoint-path test. -/
structure OverlapWeights (F : Type) where
  intermediateCoeff : F
  destinationCoeff : F
  destinationOffset : F

structure QspnConfig (F : Type) where
  maxPaths : ℕ
  maxCommonHopsRatio : F
  nodesInsideTolerance : F
  overlapWeights : OverlapWeights F
  mchRatioTable : MchRatioTable F

/-- Hard bound on admitted paths per destination, as a multiple of `max_paths`. -/
def mandatoryPathFactor : ℕ := 4

variable {F : Type} [Float64 F]

/-- The default configuration. -/
def QspnConfig.default : QspnConfig F where
  maxPaths := 5
  maxCommonHopsRatio := Float64.decimal 6 1
  nodesInsideTolerance := Float64.decimal 10 2
  overlapWeights :=
    { intermediateCoeff := Float64.decimal 15 1
      destinationCoeff := Float64.decimal 75 2
      destinationOffset := Float64.decimal 10 1 }
  mchRatioTable :=
    { gatewayRatio := ⟨[Float64.decimal 45 2, Float64.decimal 35 2, Float64.decimal 27 2,
        Float64.decimal 20 2, Float64.decimal 15 2, Float64.decimal 12 2, Float64.decimal 10 2],
        rfl⟩
      gatewayRatioOverflow := Float64.decimal 8 2
      sizeRatioBands := [(10, Float64.decimal 10 1), (25, Float64.decimal 9 1),
        (75, Float64.decimal 8 1), (250, Float64.decimal 6 1), (750, Float64.decimal 3 1),
        (3000, Float64.decimal 1 1)]
      sizeRatioOverflow := Float64.decimal 1 4 }

/-- The hop-overlap ratio admissible for a destination of `size` nodes reached through `numgw`
gateways: more gateways or a bigger destination shrink it. -/
def mchRatio (maxCommonHopsRatio : F) (table : MchRatioTable F) (size : UInt32) (numgw : ℕ) : F :=
  let l :=
    match numgw with
    | 0 => table.gatewayRatioOverflow
    | n + 1 => (table.gatewayRatio.toList[n]?).getD table.gatewayRatioOverflow
  let e := maxCommonHopsRatio * l
  let g :=
    match table.sizeRatioBands.find? fun band => decide (size.toNat < band.1.toNat) with
    | some band => band.2
    | none => table.sizeRatioOverflow
  (maxCommonHopsRatio - e) * g + e

end Netsukuku
