import SensorBridge.Stage.Reset
import SensorBridge.Foundation.Recurrence

/-!
# The Kalman filter

An update adds the process noise to the covariance, takes from that the gain, moves the estimate by
the gain towards the measurement, and makes the covariance the gain times the measurement noise
(`errorCovariance_update_eq`). With noises in their ranges the gain stays below one, so the
estimate stays between the values it started with and was moved to (`bounded`), also when the
noises change between updates.

`kalman_gain` computes a gain from the covariance that an update has left. That is not the gain
the update has used, unless both are zero (`kalmanGain_eq_gain_iff`).
-/

namespace SensorBridge.Stage.KalmanFilter1D

open Foundation Foundation.Recurrence
open scoped Foundation.Exact

universe u

variable {G K : Type u}

/-! ### Calls -/

/-- A call that changes the filter. -/
inductive Op (G : Type u) where
  | update (measurement : G)
  | setProcessNoise (q : G)
  | setMeasurementNoise (r : G)

/-- What a call makes of the filter. -/
def apply [FloatOps G] (s : KalmanFilter1D G) : Op G → KalmanFilter1D G
  | .update measurement => s.update measurement
  | .setProcessNoise q => s.setProcessNoise q
  | .setMeasurementNoise r => s.setMeasurementNoise r

/-- The filter after some calls. -/
def run [FloatOps G] (s : KalmanFilter1D G) (ops : List (Op G)) : KalmanFilter1D G := ops.foldl apply s

/-- The measurements so far. -/
def measurements (ops : List (Op G)) : List G :=
  ops.filterMap fun
    | .update measurement => some measurement
    | _ => none

/-- The gain that the next update uses. -/
def gain [FloatOps G] (s : KalmanFilter1D G) : G :=
  (s.errorCovariance + s.processNoise) / (s.errorCovariance + s.processNoise + s.measurementNoise)

section
variable [FloatOps G]

theorem run_concat (s : KalmanFilter1D G) (ops : List (Op G)) (op : Op G) :
    s.run (ops ++ [op]) = (s.run ops).apply op := by
  rw [run, List.foldl_append]
  rfl

theorem estimate_update_eq (s : KalmanFilter1D G) (measurement : G) :
    (s.update measurement).estimate = s.estimate + s.gain * (measurement - s.estimate) := rfl

end

variable [Field K] [LinearOrder K]

/-- The ranges of the noises. -/
def Allowed : Op K → Prop
  | .update _ => True
  | .setProcessNoise q => 0 ≤ q
  | .setMeasurementNoise r => 0 < r

/-! ### One update -/

/-- The covariance and the noises are in their ranges. -/
structure InRange (s : KalmanFilter1D K) : Prop where
  errorCovariance_nonneg : 0 ≤ s.errorCovariance
  processNoise_nonneg : 0 ≤ s.processNoise
  measurementNoise_pos : 0 < s.measurementNoise

namespace InRange

variable [IsStrictOrderedRing K] {s : KalmanFilter1D K}

theorem predicted_nonneg (h : s.InRange) : 0 ≤ s.errorCovariance + s.processNoise :=
  add_nonneg h.errorCovariance_nonneg h.processNoise_nonneg

/-- No update divides by zero. -/
theorem denominator_pos (h : s.InRange) : 0 < s.errorCovariance + s.processNoise + s.measurementNoise :=
  add_pos_of_nonneg_of_pos h.predicted_nonneg h.measurementNoise_pos

theorem gain_nonneg (h : s.InRange) : 0 ≤ s.gain := div_nonneg h.predicted_nonneg h.denominator_pos.le

theorem gain_lt_one (h : s.InRange) : s.gain < 1 :=
  (div_lt_one h.denominator_pos).2 (lt_add_of_pos_right _ h.measurementNoise_pos)

/-- The gain is zero only if nothing is uncertain. -/
theorem gain_eq_zero_iff (h : s.InRange) : s.gain = 0 ↔ s.errorCovariance = 0 ∧ s.processNoise = 0 := by
  rw [gain, div_eq_zero_iff, or_iff_left h.denominator_pos.ne',
    add_eq_zero_iff_of_nonneg h.errorCovariance_nonneg h.processNoise_nonneg]

/-- **The covariance after an update** is the gain times the measurement noise. -/
theorem errorCovariance_update_eq (h : s.InRange) (measurement : K) :
    (s.update measurement).errorCovariance = s.gain * s.measurementNoise := by
  have hdenominator := h.denominator_pos.ne'
  rw [errorCovariance_update, gain]
  field_simp
  ring

theorem errorCovariance_update_mem (h : s.InRange) (measurement : K) :
    (s.update measurement).errorCovariance ∈ Set.Icc 0 s.measurementNoise := by
  rw [h.errorCovariance_update_eq]
  exact ⟨mul_nonneg h.gain_nonneg h.measurementNoise_pos.le,
    mul_le_of_le_one_left h.measurementNoise_pos.le h.gain_lt_one.le⟩

theorem update (h : s.InRange) (measurement : K) : (s.update measurement).InRange :=
  ⟨(h.errorCovariance_update_mem measurement).1, h.processNoise_nonneg, h.measurementNoise_pos⟩

/-- A call keeps the ranges. -/
theorem apply (h : s.InRange) {op : Op K} (hop : Allowed op) : (s.apply op).InRange := by
  cases op with
  | update measurement => exact h.update measurement
  | setProcessNoise q => exact ⟨h.errorCovariance_nonneg, hop, h.measurementNoise_pos⟩
  | setMeasurementNoise r => exact ⟨h.errorCovariance_nonneg, h.processNoise_nonneg, hop⟩

end InRange

/-! ### Runs -/

section
variable [IsStrictOrderedRing K]

theorem measurements_concat (ops : List (Op G)) (op : Op G) :
    measurements (ops ++ [op]) = measurements ops ++ measurements [op] := List.filterMap_append

/-- In range, and between the values it has been moved to. -/
structure Bounded (initialEstimate : K) (ops : List (Op K)) (s : KalmanFilter1D K) : Prop extends s.InRange where
  within : Within (initialEstimate :: measurements ops) s.estimate

variable {initialEstimate : K} {ops : List (Op K)} {s : KalmanFilter1D K}

theorem Bounded.apply (h : Bounded initialEstimate ops s) {op : Op K} (hop : Allowed op) :
    Bounded initialEstimate (ops ++ [op]) (s.apply op) := by
  refine ⟨h.toInRange.apply hop, ?_⟩
  rw [measurements_concat]
  cases op with
  | update measurement => exact h.within.blend h.gain_nonneg h.gain_lt_one.le measurement
  | setProcessNoise q | setMeasurementNoise r => exact h.within.mono fun x hx => by simpa [measurements] using hx

theorem Bounded.run (hs : s.InRange) (h : ∀ op ∈ ops, Allowed op) : Bounded s.estimate ops (s.run ops) := by
  induction ops using List.reverseRecOn with
  | nil => exact ⟨hs, within_of_mem (List.mem_singleton_self s.estimate)⟩
  | append_singleton ops op ih =>
    rw [run_concat]
    exact (ih fun op hop => h op (List.mem_append_left _ hop)).apply
      (h op (List.mem_append_right _ (List.mem_singleton_self op)))

/-- **The filter stays bounded**: at every update of every run with the noises in their ranges, the
gain, by which the update moves the estimate, is a quotient by something positive and in `[0, 1)`, it
leaves a covariance in `[0, R]`, and an estimate between the least and the greatest of the initial
estimate and the measurements. -/
theorem bounded (initialEstimate initialError q r : K) (hP : 0 ≤ initialError) (hQ : 0 ≤ q) (hR : 0 < r)
    (ops : List (Op K)) (h : ∀ op ∈ ops, Allowed op) (measurement : K) :
    let s := (new initialEstimate initialError q r).run ops
    0 < s.errorCovariance + s.processNoise + s.measurementNoise ∧ s.gain ∈ Set.Ico 0 1 ∧
      (s.update measurement).estimate = s.estimate + s.gain * (measurement - s.estimate) ∧
      (s.update measurement).errorCovariance ∈ Set.Icc 0 s.measurementNoise ∧
      Within (initialEstimate :: (measurements ops ++ [measurement])) (s.update measurement).estimate := by
  have hbounded := Bounded.run (s := new initialEstimate initialError q r) ⟨hP, hQ, hR⟩ h
  exact ⟨hbounded.denominator_pos, ⟨hbounded.gain_nonneg, hbounded.gain_lt_one⟩,
    estimate_update_eq _ measurement, hbounded.errorCovariance_update_mem measurement,
    hbounded.within.blend hbounded.gain_nonneg hbounded.gain_lt_one.le measurement⟩

/-- Measurements, with less and then more noise between them. -/
def tuned : List (Op ℚ) := [.update 3, .setMeasurementNoise (1 / 10), .update 5, .setProcessNoise 0, .update (-1)]

theorem bounded_tuned :
    let s := (new (0 : ℚ) 1 (1 / 100) 1).run tuned
    0 < s.errorCovariance + s.processNoise + s.measurementNoise ∧ s.gain ∈ Set.Ico 0 1 ∧
      (s.update 4).estimate = s.estimate + s.gain * (4 - s.estimate) ∧
      (s.update 4).errorCovariance ∈ Set.Icc 0 s.measurementNoise ∧
      Within (0 :: (measurements tuned ++ [4])) (s.update 4).estimate :=
  bounded 0 1 (1 / 100) 1 (by norm_num) (by norm_num) (by norm_num) tuned (by simp [tuned, Allowed]) 4

/-! ### The gain that is reported -/

/-- `kalman_gain` gives the gain of the last update, which has moved the estimate by it. -/
def ReportsGain (s : KalmanFilter1D K) (measurement : K) : Prop :=
  (s.update measurement).kalmanGain = s.gain ∧
    (s.update measurement).estimate =
      s.estimate + (s.update measurement).kalmanGain * (measurement - s.estimate)

omit [IsStrictOrderedRing K] in
theorem reportsGain_iff_kalmanGain_eq (s : KalmanFilter1D K) (measurement : K) :
    s.ReportsGain measurement ↔ (s.update measurement).kalmanGain = s.gain := by
  constructor
  · exact fun h => h.1
  · intro h
    exact ⟨h, by rw [h, estimate_update_eq]⟩

/-- What is reported is too little, by a factor of one more than the gain. -/
theorem InRange.kalmanGain_update (h : s.InRange) (measurement : K) :
    (s.update measurement).kalmanGain = s.gain / (s.gain + 1) := by
  have hnoise : (s.update measurement).measurementNoise = s.measurementNoise := rfl
  have hsum : s.gain * s.measurementNoise + s.measurementNoise = (s.gain + 1) * s.measurementNoise := by ring
  rw [kalmanGain, h.errorCovariance_update_eq, hnoise, hsum, mul_div_mul_right _ _ h.measurementNoise_pos.ne']

theorem InRange.kalmanGain_eq_gain_iff (h : s.InRange) (measurement : K) :
    (s.update measurement).kalmanGain = s.gain ↔ s.errorCovariance = 0 ∧ s.processNoise = 0 := by
  have hpos : 0 < s.gain + 1 := add_pos_of_nonneg_of_pos h.gain_nonneg one_pos
  rw [h.kalmanGain_update, div_eq_iff hpos.ne', ← h.gain_eq_zero_iff]
  constructor
  · intro heq
    have hsquare : s.gain * s.gain = 0 := by linear_combination -heq
    exact mul_self_eq_zero.1 hsquare
  · intro hzero
    rw [hzero, zero_mul]

/-- An update makes nothing certain that was not. -/
theorem InRange.certain_update_iff (h : s.InRange) (measurement : K) :
    ((s.update measurement).errorCovariance = 0 ∧ (s.update measurement).processNoise = 0) ↔
      s.errorCovariance = 0 ∧ s.processNoise = 0 := by
  have hnoise : (s.update measurement).processNoise = s.processNoise := rfl
  rw [h.errorCovariance_update_eq, mul_eq_zero, or_iff_left h.measurementNoise_pos.ne', h.gain_eq_zero_iff, hnoise]
  exact ⟨fun hzero => hzero.1, fun hzero => ⟨hzero, hzero.2⟩⟩

/-- Nor do any number of them. -/
theorem InRange.certain_updates_iff (h : s.InRange) (ms : List K) : (ms.foldl KalmanFilter1D.update s).InRange ∧
    ((ms.foldl KalmanFilter1D.update s).errorCovariance = 0 ∧ (ms.foldl KalmanFilter1D.update s).processNoise = 0 ↔
      s.errorCovariance = 0 ∧ s.processNoise = 0) := by
  induction ms using List.reverseRecOn with
  | nil => exact ⟨h, Iff.rfl⟩
  | append_singleton ms m ih =>
    rw [List.foldl_append]
    exact ⟨ih.1.update m, (ih.1.certain_update_iff m).trans ih.2⟩

/-- **When `kalman_gain` reports the gain of the last update**: if nothing is uncertain from the start,
so that every gain is zero, and never otherwise. -/
theorem reportsGain_iff (initialEstimate initialError q r : K) (hP : 0 ≤ initialError) (hQ : 0 ≤ q) (hR : 0 < r)
    (ms : List K) (measurement : K) :
    (ms.foldl update (new initialEstimate initialError q r)).ReportsGain measurement ↔ initialError = 0 ∧ q = 0 := by
  have hnew : (new initialEstimate initialError q r).InRange := ⟨hP, hQ, hR⟩
  obtain ⟨hrange, hcertain⟩ := hnew.certain_updates_iff ms
  rw [reportsGain_iff_kalmanGain_eq, hrange.kalmanGain_eq_gain_iff, hcertain]
  rfl

theorem reportsGain_iff_certain :
    ([1, 2].foldl update (new (0 : ℚ) 0 0 1)).ReportsGain 3 ↔ (0 : ℚ) = 0 ∧ (0 : ℚ) = 0 :=
  reportsGain_iff 0 0 0 1 le_rfl le_rfl one_pos [1, 2] 3

/-- One measurement, weighed by a half, of which a third is reported. -/
theorem not_reportsGain : ¬ ∀ (initialEstimate initialError q r : ℚ), 0 ≤ initialError → 0 ≤ q → 0 < r →
    ∀ (ms : List ℚ) (measurement : ℚ),
      (ms.foldl update (new initialEstimate initialError q r)).ReportsGain measurement := by
  intro h
  have hgain := (h 0 1 0 1 zero_le_one le_rfl one_pos [] 1).1
  have hreported : ((new (0 : ℚ) 1 0 1).update 1).kalmanGain = 1 / 3 := by decide +kernel
  have hused : (new (0 : ℚ) 1 0 1).gain = 1 / 2 := by decide +kernel
  rw [List.foldl_nil, hreported, hused] at hgain
  norm_num at hgain

end

end SensorBridge.Stage.KalmanFilter1D
