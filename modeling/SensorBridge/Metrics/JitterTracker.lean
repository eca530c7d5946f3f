import SensorBridge.Foundation.FloatOps
import Mathlib.Data.Rat.Floor

/-!
# The jitter tracker

A `JitterTracker` keeps a number of samples, their mean and the sum of the squares of their
distances from it, the last two in fixed point with 32 fractional bits, and updates them by
Welford's recurrence. `f64` is a type `F` with the operations of a float.
-/

namespace SensorBridge.Metrics

open Foundation
open scoped Foundation.Exact

universe u

/-- The cells of a `JitterTracker`. -/
structure JitterTracker where
  /-- Number of samples. -/
  count : ℕ
  /-- Running mean, in fixed point. -/
  meanFp : ℕ
  /-- Sum of squared differences from the mean, in fixed point. -/
  m2Fp : ℕ
  /-- Minimum value observed. -/
  min : ℕ
  /-- Maximum value observed. -/
  max : ℕ
  deriving DecidableEq

namespace JitterTracker

/-- `JitterTracker::new`. -/
def new : JitterTracker := ⟨0, 0, 0, 2 ^ 64 - 1, 0⟩

/-- `FP_BITS`. -/
def fpBits : ℕ := 32

variable (F : Type u) [FloatToU64 F]

/-- `FP_SCALE`. -/
def fpScale : F := ((2 ^ fpBits : ℕ) : F)

/-- `from_fixed_point`. -/
def fromFixedPoint (fp : ℕ) : F := (fp : F) / fpScale F

variable {F} in
/-- `to_fixed_point`: clamped first, so that it fits. -/
def toFixedPoint [DecidableLT F] (value : F) : ℕ :=
  FloatToU64.toU64 (clamp value 0.0 (((2 ^ 64 - 1) / 2 ^ fpBits : ℕ) : F) * fpScale F)

/-- What the loop of `record` makes of the count, the mean and the sum of squares it has loaded. -/
def welford [DecidableLT F] (oldCount oldMeanFp oldM2Fp latencyNs : ℕ) : ℕ × ℕ × ℕ :=
  let newCount := oldCount + 1
  let oldMean := fromFixedPoint F oldMeanFp
  let x : F := (latencyNs : F)
  let delta := x - oldMean
  let newMean := oldMean + delta / (newCount : F)
  let delta2 := x - newMean
  let oldM2 := fromFixedPoint F oldM2Fp
  let newM2 := oldM2 + delta * delta2
  (newCount, toFixedPoint newMean, toFixedPoint newM2)

/-- `record`, with nothing in between. -/
def record [DecidableLT F] (t : JitterTracker) (latencyNs : ℕ) : JitterTracker where
  count := (welford F t.count t.meanFp t.m2Fp latencyNs).1
  meanFp := (welford F t.count t.meanFp t.m2Fp latencyNs).2.1
  m2Fp := (welford F t.count t.meanFp t.m2Fp latencyNs).2.2
  min := Min.min t.min latencyNs
  max := Max.max t.max latencyNs

/-- `mean`. -/
def mean (t : JitterTracker) : F := fromFixedPoint F t.meanFp

/-- `variance`, with Bessel's correction. -/
def variance (t : JitterTracker) : F :=
  if t.count < 2 then 0.0 else fromFixedPoint F t.m2Fp / ((t.count - 1 : ℕ) : F)

/-- `min()`. -/
def min? (t : JitterTracker) : Option ℕ := if t.min = 2 ^ 64 - 1 then none else some t.min

/-- A tracker that has recorded a list of samples. -/
def recordAll [DecidableLT F] (samples : List ℕ) : JitterTracker := samples.foldl (record F) new

@[simp] theorem recordAll_nil [DecidableLT F] : recordAll F [] = new := rfl

theorem recordAll_concat [DecidableLT F] (samples : List ℕ) (latencyNs : ℕ) :
    recordAll F (samples ++ [latencyNs]) = record F (recordAll F samples) latencyNs := by
  rw [recordAll, List.foldl_append]
  rfl

/-- The test of the source: the samples 2, 4, 4, 4, 5, 5, 7, 9 have the mean 5. -/
example : (recordAll ℚ [2, 4, 4, 4, 5, 5, 7, 9]).count = 8 ∧
    |(recordAll ℚ [2, 4, 4, 4, 5, 5, 7, 9]).mean ℚ - 5| < 1 / 100 := by decide +kernel

end JitterTracker

end SensorBridge.Metrics
