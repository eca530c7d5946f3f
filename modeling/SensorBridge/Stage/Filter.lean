import SensorBridge.Stage.Traits
import SensorBridge.Foundation.FloatOps

/-!
# Filters

The filters of the source, each a structure with its constructors, `process` and `reset`, and a
stage with the default `tick` and `flush`. A constructor that asserts something of its arguments
gives nothing where it panics.

`f32` and `f64` are types `F` and `G` with the operations of a float. The samples of a
`Filterable` filter are of a type with sums, differences, and products and quotients by an `F`.
-/

namespace SensorBridge.Stage

open Foundation

universe u

/-- `Filterable`: values that can be used in numeric filters. -/
class Filterable (F T : Type u) extends Inhabited T, Add T, Sub T, HMul T F T, HDiv T F T

variable {F G T : Type u} {window : ℕ}

/-! ### Moving average -/

/-- A moving average over the last samples, with a running sum. -/
structure MovingAverage (T : Type u) (window : ℕ) where
  buffer : Fin window → T
  sum : T
  index : Fin window
  count : ℕ

namespace MovingAverage

/-- `MovingAverage::new`. -/
def new [Inhabited T] [NeZero window] : MovingAverage T window := ⟨fun _ => default, default, 0, 0⟩

variable (F) in
/-- `process`: a full window gives up its oldest sample. -/
def process [FloatOps F] [Filterable F T] [NeZero window] (s : MovingAverage T window) (input : T) :
    MovingAverage T window × Option T :=
  let sum := (if window ≤ s.count then s.sum - s.buffer s.index else s.sum) + input
  let count := if window ≤ s.count then s.count else s.count + 1
  (⟨Function.update s.buffer s.index input, sum, s.index + 1, count⟩, some (sum / (count : F)))

variable (F) in
/-- `current`. -/
def current [FloatOps F] [Filterable F T] (s : MovingAverage T window) : Option T :=
  if s.count = 0 then none else some (s.sum / (s.count : F))

/-- `len`. -/
def len (s : MovingAverage T window) : ℕ := s.count

/-- `reset`. -/
def reset [Inhabited T] [NeZero window] (_ : MovingAverage T window) : MovingAverage T window :=
  ⟨fun _ => default, default, 0, 0⟩

variable (F T window) in
/-- The stage. -/
def stage [FloatOps F] [Filterable F T] [NeZero window] : Stage T T :=
  .ofProcess (new : MovingAverage T window) (process F) reset

end MovingAverage

/-! ### Exponential moving average -/

/-- An exponential moving average. -/
structure ExponentialMovingAverage (F T : Type u) where
  /-- The smoothing factor. -/
  alpha : F
  value : Option T

namespace ExponentialMovingAverage

variable [FloatOps F]

/-- `ExponentialMovingAverage::new`, which panics unless `alpha` is in (0, 1]. -/
def new [DecidableLT F] [DecidableLE F] (alpha : F) : Option (ExponentialMovingAverage F T) :=
  if (0.0 : F) < alpha ∧ alpha ≤ 1.0 then some ⟨alpha, none⟩ else none

/-- `from_time_constant`. -/
def fromTimeConstant [DecidableLT F] [DecidableLE F] (tau sampleRateHz : F) :
    Option (ExponentialMovingAverage F T) :=
  let dt := 1.0 / sampleRateHz
  new (dt / (tau + dt))

/-- `from_cutoff_frequency`. -/
def fromCutoffFrequency [DecidableLT F] [DecidableLE F] (cutoffHz sampleRateHz : F) :
    Option (ExponentialMovingAverage F T) :=
  let dt := 1.0 / sampleRateHz
  let rc := 1.0 / (2.0 * 3.14159265358979323846264338327950288 * cutoffHz)
  new (dt / (rc + dt))

/-- `process`: the first sample is passed through. -/
def process [Filterable F T] (s : ExponentialMovingAverage F T) (input : T) :
    ExponentialMovingAverage F T × Option T :=
  let newValue := match s.value with
    | some prev => input * s.alpha + prev * (1.0 - s.alpha)
    | none => input
  ({ s with value := some newValue }, some newValue)

/-- `reset`. -/
def reset (s : ExponentialMovingAverage F T) : ExponentialMovingAverage F T := { s with value := none }

/-- The stage, as constructed. -/
def stage [Filterable F T] (s : ExponentialMovingAverage F T) : Stage T T := .ofProcess s process reset

end ExponentialMovingAverage

/-! ### Low pass and high pass -/

/-- A low-pass filter: an exponential moving average with a cutoff frequency. -/
structure LowPassFilter (F T : Type u) where
  ema : ExponentialMovingAverage F T

namespace LowPassFilter

variable [FloatOps F]

/-- `LowPassFilter::new`. -/
def new [DecidableLT F] [DecidableLE F] (cutoffHz sampleRateHz : F) : Option (LowPassFilter F T) :=
  (ExponentialMovingAverage.fromCutoffFrequency cutoffHz sampleRateHz).map LowPassFilter.mk

/-- `process`. -/
def process [Filterable F T] (s : LowPassFilter F T) (input : T) : LowPassFilter F T × Option T :=
  (⟨(s.ema.process input).1⟩, (s.ema.process input).2)

/-- `reset`. -/
def reset (s : LowPassFilter F T) : LowPassFilter F T := ⟨s.ema.reset⟩

/-- The stage, as constructed. -/
def stage [Filterable F T] (s : LowPassFilter F T) : Stage T T := .ofProcess s process reset

end LowPassFilter

/-- A high-pass filter. -/
structure HighPassFilter (F T : Type u) where
  alpha : F
  prevInput : Option T
  prevOutput : Option T

namespace HighPassFilter

variable [FloatOps F]

/-- `HighPassFilter::new`. -/
def new (cutoffHz sampleRateHz : F) : HighPassFilter F T :=
  let dt := 1.0 / sampleRateHz
  let rc := 1.0 / (2.0 * 3.14159265358979323846264338327950288 * cutoffHz)
  ⟨rc / (rc + dt), none, none⟩

/-- `process`: the first sample is passed through. -/
def process [Filterable F T] (s : HighPassFilter F T) (input : T) : HighPassFilter F T × Option T :=
  let output := match s.prevInput, s.prevOutput with
    | some prevIn, some prevOut => (prevOut + input - prevIn) * s.alpha
    | _, _ => input
  ({ s with prevInput := some input, prevOutput := some output }, some output)

/-- `reset`. -/
def reset (s : HighPassFilter F T) : HighPassFilter F T := { s with prevInput := none, prevOutput := none }

/-- The stage, as constructed. -/
def stage [Filterable F T] (s : HighPassFilter F T) : Stage T T := .ofProcess s process reset

end HighPassFilter

/-! ### Median -/

/-- A median filter. An array is a function of its index, of which the indices below `window` are
used. -/
structure MedianFilter (T : Type u) where
  buffer : ℕ → T
  /-- Where the window is sorted; never cleared. -/
  sorted : ℕ → T
  index : ℕ
  count : ℕ

namespace MedianFilter

/-- `MedianFilter::new`. -/
def new [Inhabited T] : MedianFilter T := ⟨fun _ => default, fun _ => default, 0, 0⟩

/-- The inner loop of the insertion sort: `key` goes down from position `j` past what is more. -/
def sink [LT T] [DecidableLT T] (key : T) : ℕ → (ℕ → T) → ℕ → T
  | 0, a => Function.update a 0 key
  | j + 1, a =>
    if key < a j then sink key j (Function.update a (j + 1) (a j)) else Function.update a (j + 1) key

/-- The insertion sort of the first `len` entries. -/
def sort [LT T] [DecidableLT T] (len : ℕ) (a : ℕ → T) : ℕ → T :=
  (List.range' 1 (len - 1)).foldl (fun a i => sink (a i) i a) a

/-- `compute_median`: the window is copied and sorted. -/
def computeMedian [LT T] [DecidableLT T] (window : ℕ) (s : MedianFilter T) : MedianFilter T × T :=
  let len := min s.count window
  let sorted := sort len fun i => if i < len then s.buffer i else s.sorted i
  ({ s with sorted }, sorted (len / 2))

/-- `process`. -/
def process [LT T] [DecidableLT T] (window : ℕ) (s : MedianFilter T) (input : T) :
    MedianFilter T × Option T :=
  let added : MedianFilter T :=
    { s with
      buffer := Function.update s.buffer s.index input
      index := (s.index + 1) % window
      count := if s.count < window then s.count + 1 else s.count }
  ((added.computeMedian window).1, some (added.computeMedian window).2)

/-- `reset`. -/
def reset [Inhabited T] (s : MedianFilter T) : MedianFilter T :=
  { s with buffer := fun _ => default, index := 0, count := 0 }

variable (T) in
/-- The stage. -/
def stage [Inhabited T] [LT T] [DecidableLT T] (window : ℕ) : Stage T T :=
  .ofProcess (new : MedianFilter T) (process window) reset

end MedianFilter

/-! ### Kalman filter -/

/-- A Kalman filter of one dimension. -/
structure KalmanFilter1D (G : Type u) where
  estimate : G
  errorCovariance : G
  /-- The process noise covariance. -/
  processNoise : G
  /-- The measurement noise covariance. -/
  measurementNoise : G

namespace KalmanFilter1D

/-- `KalmanFilter1D::new`. -/
def new (initialEstimate initialError processNoise measurementNoise : G) : KalmanFilter1D G :=
  ⟨initialEstimate, initialError, processNoise, measurementNoise⟩

variable [FloatOps G]

/-- `default_params`. -/
def defaultParams : KalmanFilter1D G := new 0.0 1.0 0.01 0.1

/-- `kalman_gain`, from the covariance that is stored. -/
def kalmanGain (s : KalmanFilter1D G) : G := s.errorCovariance / (s.errorCovariance + s.measurementNoise)

/-- `update`. -/
def update (s : KalmanFilter1D G) (measurement : G) : KalmanFilter1D G :=
  let predictedCovariance := s.errorCovariance + s.processNoise
  let kalmanGain := predictedCovariance / (predictedCovariance + s.measurementNoise)
  { s with
    estimate := s.estimate + kalmanGain * (measurement - s.estimate)
    errorCovariance := (1.0 - kalmanGain) * predictedCovariance }

/-- `set_process_noise`. -/
def setProcessNoise (s : KalmanFilter1D G) (q : G) : KalmanFilter1D G := { s with processNoise := q }

/-- `set_measurement_noise`. -/
def setMeasurementNoise (s : KalmanFilter1D G) (r : G) : KalmanFilter1D G := { s with measurementNoise := r }

/-- `process`. -/
def process (s : KalmanFilter1D G) (input : G) : KalmanFilter1D G × Option G :=
  (s.update input, some (s.update input).estimate)

/-- `reset`: to the two values of `default_params`, whatever it was constructed with. -/
def reset (s : KalmanFilter1D G) : KalmanFilter1D G := { s with estimate := 0.0, errorCovariance := 1.0 }

/-- The stage, as constructed. -/
def stage (s : KalmanFilter1D G) : Stage G G := .ofProcess s process reset

end KalmanFilter1D

end SensorBridge.Stage
