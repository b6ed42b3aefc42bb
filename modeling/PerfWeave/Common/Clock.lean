/-
This file models `perfweave-common/src/clock.rs`: the affine mapping from a source clock to
host time and its Theil-Sen fit. The mapping computes in 128-bit integers, reduced after each
operation. The fit's floating-point steps are read as exact rational arithmetic, as
`Common.DoubleFit` reads them as the roundings they are; its casts to integers saturate.
-/

import PerfWeave.Library.MachineInt
import PerfWeave.Library.Median

namespace PerfWeave

/-- `ClockOffset`: the mapping `host_ns = offset_ns + slope_num / slope_den * src_ns`. Both
constructors the source has, `IDENTITY` and the fit, give a positive denominator. -/
structure ClockOffset where
  offsetNs : Int
  slopeNum : Int
  slopeDen : Int
  residualMaxNs : UInt64
  fittedAtHostNs : UInt64
  slopeDenPos : 0 < slopeDen

namespace ClockOffset

/-- `ClockOffset::IDENTITY`. -/
def identity : ClockOffset where
  offsetNs := 0
  slopeNum := 1
  slopeDen := 1
  residualMaxNs := 0
  fittedAtHostNs := 0
  slopeDenPos := by decide

/-- `ClockOffset::map`: a source timestamp in host nanoseconds. -/
def map (fit : ClockOffset) (srcNs : UInt64) : UInt64 :=
  let src : Int := srcNs.toNat
  let host := wrapI128 (fit.offsetNs + (wrapI128 (fit.slopeNum * src)).tdiv fit.slopeDen)
  truncateU64 (max host 0)

end ClockOffset

/-- `Pair`: one paired reading of the source and the host clock. -/
structure Pair where
  srcNs : UInt64
  hostNs : UInt64
  deriving DecidableEq

namespace Pair

/-- The source reading as a rational. -/
def src (pair : Pair) : ℚ := pair.srcNs.toNat

/-- The host reading as a rational. -/
def host (pair : Pair) : ℚ := pair.hostNs.toNat

/-- The slope between two pairs; none when the source clock did not move. -/
def slopeTo (first second : Pair) : Option ℚ :=
  let dSrc : Int := second.srcNs.toNat - first.srcNs.toNat
  if dSrc = 0 then
    none
  else
    let dHost : Int := second.hostNs.toNat - first.hostNs.toNat
    some (dHost / dSrc)

end Pair

/-- The slopes of all pairs `i < j`, in the order of the two loops. -/
def pairwiseSlopes : List Pair → List ℚ
  | [] => []
  | first :: rest => rest.filterMap first.slopeTo ++ pairwiseSlopes rest

/-- The intercepts `host - slope * src`. -/
def interceptsAt (slope : ℚ) (pairs : List Pair) : List ℚ :=
  pairs.map fun pair => pair.host - slope * pair.src

/-- The residual loop: the largest distance of a pair from the line. -/
def residualMax (offset slope : ℚ) (pairs : List Pair) : ℚ :=
  pairs.foldl (fun largest pair =>
    let residual := |pair.host - (offset + slope * pair.src)|
    if residual > largest then residual else largest) 0

/-- The published slope is a multiple of one over this. -/
def slopeDenominator : Int := 2 ^ 30

theorem slopeDenominator_pos : 0 < slopeDenominator := by decide

/-- The published form of a fitted line: the slope rounded to the fixed denominator, the
offset rounded to a nanosecond and the residual rounded up. -/
def ClockOffset.ofLine (now : UInt64) (slope offset resMax : ℚ) : ClockOffset where
  offsetNs := saturateI128 (roundAway offset)
  slopeNum := saturateI128 (roundAway (slope * slopeDenominator))
  slopeDen := slopeDenominator
  residualMaxNs := saturateU64 ⌈resMax⌉
  fittedAtHostNs := now
  slopeDenPos := slopeDenominator_pos

/-- `fit_theil_sen`: the median pairwise slope, the median intercept under it and the largest
residual. `now` is the reading of the host clock that stamps the fit. -/
def fitTheilSen (now : UInt64) (pairs : List Pair) : Option ClockOffset :=
  if pairs.length < 2 then
    none
  else
    let slopes := pairwiseSlopes pairs
    if slopes.isEmpty then
      none
    else do
      let slope ← upperMedian slopes
      let offset ← upperMedian (interceptsAt slope pairs)
      return .ofLine now slope offset (residualMax offset slope pairs)

end PerfWeave
