import SensorBridge.Stage.Kalman

/-!
# What a Kalman filter comes to

Of what there was before, an update leaves a part that is no more than `retention`. So two filters that
differ in how they were constructed forget it when there is process noise: their covariances, gains and
estimates come together, whatever is measured (`forgets_initial`).

Without process noise nothing is forgotten. The estimate is then the one that fits the initial estimate
and all measurements best, each square weighed by how certain it is (`fits_best`).

All of this is exact arithmetic.
-/

namespace SensorBridge.Stage.KalmanFilter1D

universe u

variable {K : Type u} [Field K]

/-- How badly a value fits the initial estimate and the measurements: the squares, each weighed by how certain it
is. -/
def misfit (initialEstimate initialError measurementNoise : K) (ms : List K) (x : K) : K :=
  (x - initialEstimate) ^ 2 / initialError + (ms.map fun z => (z - x) ^ 2 / measurementNoise).sum

theorem misfit_concat (x P r : K) (ms : List K) (z y : K) :
    misfit x P r (ms ++ [z]) y = misfit x P r ms y + (z - y) ^ 2 / r := by
  rw [misfit, misfit, List.map_append, List.sum_append, List.map_singleton, List.sum_singleton, add_assoc]

variable [LinearOrder K] [IsStrictOrderedRing K]

open scoped Foundation.Exact

/-- A filter that has been fed the measurements. -/
def filtered (initialEstimate initialError processNoise measurementNoise : K) (ms : List K) : KalmanFilter1D K :=
  ms.foldl update (new initialEstimate initialError processNoise measurementNoise)

omit [IsStrictOrderedRing K] in
theorem filtered_concat (x P q r : K) (ms : List K) (z : K) :
    filtered x P q r (ms ++ [z]) = (filtered x P q r ms).update z := by
  simp [filtered]

omit [IsStrictOrderedRing K] in
@[simp]
theorem noises_filtered (x P q r : K) (ms : List K) :
    (filtered x P q r ms).processNoise = q ∧ (filtered x P q r ms).measurementNoise = r := by
  induction ms using List.reverseRecOn with
  | nil => exact ⟨rfl, rfl⟩
  | append_singleton ms z ih =>
    rw [filtered_concat]
    exact ih

/-! ### What an update leaves -/

/-- The most that an update leaves of what was there. -/
def retention (s : KalmanFilter1D K) : K := s.measurementNoise / (s.processNoise + s.measurementNoise)

namespace InRange

variable {s t : KalmanFilter1D K}

theorem one_sub_gain (h : s.InRange) :
    1 - s.gain = s.measurementNoise / (s.errorCovariance + s.processNoise + s.measurementNoise) := by
  rw [gain, eq_div_iff h.denominator_pos.ne', sub_mul, one_mul, div_mul_cancel₀ _ h.denominator_pos.ne',
    add_sub_cancel_left]

theorem one_sub_gain_nonneg (h : s.InRange) : 0 ≤ 1 - s.gain := sub_nonneg.2 h.gain_lt_one.le

theorem noises_pos (h : s.InRange) : 0 < s.processNoise + s.measurementNoise :=
  add_pos_of_nonneg_of_pos h.processNoise_nonneg h.measurementNoise_pos

theorem one_sub_gain_le (h : s.InRange) : 1 - s.gain ≤ s.retention := by
  rw [h.one_sub_gain, retention, add_assoc]
  exact div_le_div_of_nonneg_left h.measurementNoise_pos.le h.noises_pos
    (le_add_of_nonneg_left h.errorCovariance_nonneg)

theorem retention_nonneg (h : s.InRange) : 0 ≤ s.retention := h.one_sub_gain_nonneg.trans h.one_sub_gain_le

theorem retention_le_one (h : s.InRange) : s.retention ≤ 1 :=
  (div_le_one h.noises_pos).2 (le_add_of_nonneg_left h.processNoise_nonneg)

/-- By how much two gains differ, when the noises are the same. -/
theorem gain_sub_gain (hs : s.InRange) (ht : t.InRange) (hq : t.processNoise = s.processNoise)
    (hr : t.measurementNoise = s.measurementNoise) :
    s.gain - t.gain =
      (1 - s.gain) * (1 - t.gain) * ((s.errorCovariance - t.errorCovariance) / s.measurementNoise) := by
  have hne := hs.denominator_pos.ne'
  have hne' := ht.denominator_pos.ne'
  have hnoise := hs.measurementNoise_pos.ne'
  rw [hs.one_sub_gain, ht.one_sub_gain, gain, gain]
  rw [hq, hr] at hne' ⊢
  field_simp
  ring

theorem abs_gain_sub_gain_le (hs : s.InRange) (ht : t.InRange) (hq : t.processNoise = s.processNoise)
    (hr : t.measurementNoise = s.measurementNoise) :
    |s.gain - t.gain| ≤ s.retention ^ 2 * (|s.errorCovariance - t.errorCovariance| / s.measurementNoise) := by
  have hretention : t.retention = s.retention := by rw [retention, retention, hq, hr]
  have hproduct : (1 - s.gain) * (1 - t.gain) ≤ s.retention ^ 2 := by
    rw [pow_two]
    exact mul_le_mul hs.one_sub_gain_le (hretention ▸ ht.one_sub_gain_le) ht.one_sub_gain_nonneg hs.retention_nonneg
  rw [hs.gain_sub_gain ht hq hr, abs_mul, abs_div, abs_of_pos hs.measurementNoise_pos,
    abs_of_nonneg (mul_nonneg hs.one_sub_gain_nonneg ht.one_sub_gain_nonneg)]
  exact mul_le_mul_of_nonneg_right hproduct (div_nonneg (abs_nonneg _) hs.measurementNoise_pos.le)

/-- The estimate goes a part of the way to the measurement. -/
theorem estimate_update_mem (h : s.InRange) {lo hi z : K} (hs : s.estimate ∈ Set.Icc lo hi)
    (hz : z ∈ Set.Icc lo hi) : (s.update z).estimate ∈ Set.Icc lo hi := by
  have hblend : (s.update z).estimate = (1 - s.gain) * s.estimate + s.gain * z := by
    rw [estimate_update_eq]
    ring
  have hleft := h.one_sub_gain_nonneg
  have hmoved := h.gain_nonneg
  have hlo := add_le_add (mul_le_mul_of_nonneg_left hs.1 hleft) (mul_le_mul_of_nonneg_left hz.1 hmoved)
  have hhi := add_le_add (mul_le_mul_of_nonneg_left hs.2 hleft) (mul_le_mul_of_nonneg_left hz.2 hmoved)
  rw [← add_mul, sub_add_cancel, one_mul] at hlo hhi
  rw [hblend]
  exact ⟨hlo, hhi⟩

end InRange

/-! ### How a filter was constructed -/

/-- Two filters that began with so much between their estimates and their covariances, after `n`
updates. -/
structure Forgets (lo hi apart apartCovariance : K) (n : ℕ) (s t : KalmanFilter1D K) : Prop where
  left : s.InRange
  right : t.InRange
  processNoise : t.processNoise = s.processNoise
  measurementNoise : t.measurementNoise = s.measurementNoise
  estimate_mem : t.estimate ∈ Set.Icc lo hi
  apart_nonneg : 0 ≤ apartCovariance
  errorCovariance : |s.errorCovariance - t.errorCovariance| ≤ s.retention ^ (2 * n) * apartCovariance
  estimate : |s.estimate - t.estimate| ≤ s.retention ^ n *
    (apart + n * s.retention * ((hi - lo) * (apartCovariance / s.measurementNoise)))

variable {lo hi apart apartCovariance : K} {n : ℕ} {s t : KalmanFilter1D K}

/-- The gains come together as the covariances do. -/
theorem Forgets.gain (h : Forgets lo hi apart apartCovariance n s t) :
    |s.gain - t.gain| ≤ s.retention ^ (2 * n + 2) * (apartCovariance / s.measurementNoise) := by
  have hnoise := h.left.measurementNoise_pos
  calc |s.gain - t.gain|
      ≤ s.retention ^ 2 * (|s.errorCovariance - t.errorCovariance| / s.measurementNoise) :=
        h.left.abs_gain_sub_gain_le h.right h.processNoise h.measurementNoise
    _ ≤ s.retention ^ 2 * (s.retention ^ (2 * n) * apartCovariance / s.measurementNoise) :=
        mul_le_mul_of_nonneg_left ((div_le_div_iff_of_pos_right hnoise).2 h.errorCovariance) (sq_nonneg _)
    _ = s.retention ^ (2 * n + 2) * (apartCovariance / s.measurementNoise) := by ring

omit [IsStrictOrderedRing K] in
/-- What is between the estimates: a part of what was, and what the gains make of the measurement. -/
theorem estimate_update_sub (s t : KalmanFilter1D K) (z : K) :
    (s.update z).estimate - (t.update z).estimate =
      (1 - s.gain) * (s.estimate - t.estimate) + (s.gain - t.gain) * (z - t.estimate) := by
  rw [estimate_update_eq, estimate_update_eq]
  ring

/-- The covariances come together as the gains do: an update makes them the gains, times the same noise. -/
theorem Forgets.errorCovariance_update (h : Forgets lo hi apart apartCovariance n s t) (z : K) :
    |(s.update z).errorCovariance - (t.update z).errorCovariance| ≤
      s.retention ^ (2 * (n + 1)) * apartCovariance := by
  have hpos := h.left.measurementNoise_pos
  calc |(s.update z).errorCovariance - (t.update z).errorCovariance|
      = |s.gain - t.gain| * s.measurementNoise := by
        rw [h.left.errorCovariance_update_eq, h.right.errorCovariance_update_eq, h.measurementNoise, ← sub_mul,
          abs_mul, abs_of_pos hpos]
    _ ≤ s.retention ^ (2 * n + 2) * (apartCovariance / s.measurementNoise) * s.measurementNoise :=
        mul_le_mul_of_nonneg_right h.gain hpos.le
    _ = s.retention ^ (2 * (n + 1)) * apartCovariance := by
        rw [mul_assoc, div_mul_cancel₀ _ hpos.ne', mul_add, mul_one]

/-- The estimates come together: what is left of what was between them is less by a factor, and the gains add
less and less. -/
theorem Forgets.estimate_update (h : Forgets lo hi apart apartCovariance n s t) {z : K} (hz : z ∈ Set.Icc lo hi) :
    |(s.update z).estimate - (t.update z).estimate| ≤ s.retention ^ (n + 1) *
      (apart + (n + 1 : ℕ) * s.retention * ((hi - lo) * (apartCovariance / s.measurementNoise))) := by
  have hrho := h.left.retention_nonneg
  have hspread : |z - t.estimate| ≤ hi - lo := abs_sub_le_of_le_of_le hz.1 hz.2 h.estimate_mem.1 h.estimate_mem.2
  have hquotient : 0 ≤ apartCovariance / s.measurementNoise :=
    div_nonneg h.apart_nonneg h.left.measurementNoise_pos.le
  have hproduct : 0 ≤ apartCovariance / s.measurementNoise * (hi - lo) :=
    mul_nonneg hquotient ((abs_nonneg _).trans hspread)
  have hpow : s.retention ^ (2 * n + 2) ≤ s.retention ^ (n + 2) :=
    pow_le_pow_of_le_one hrho h.left.retention_le_one (by omega)
  rw [estimate_update_sub]
  calc |(1 - s.gain) * (s.estimate - t.estimate) + (s.gain - t.gain) * (z - t.estimate)|
      ≤ |(1 - s.gain) * (s.estimate - t.estimate)| + |(s.gain - t.gain) * (z - t.estimate)| := abs_add_le _ _
    _ = (1 - s.gain) * |s.estimate - t.estimate| + |s.gain - t.gain| * |z - t.estimate| := by
      rw [abs_mul, abs_mul, abs_of_nonneg h.left.one_sub_gain_nonneg]
    _ ≤ s.retention * (s.retention ^ n *
          (apart + n * s.retention * ((hi - lo) * (apartCovariance / s.measurementNoise)))) +
        s.retention ^ (2 * n + 2) * (apartCovariance / s.measurementNoise) * (hi - lo) :=
      add_le_add (mul_le_mul h.left.one_sub_gain_le h.estimate (abs_nonneg _) hrho)
        (mul_le_mul h.gain hspread (abs_nonneg _) (mul_nonneg (pow_nonneg hrho _) hquotient))
    _ ≤ s.retention * (s.retention ^ n *
          (apart + n * s.retention * ((hi - lo) * (apartCovariance / s.measurementNoise)))) +
        s.retention ^ (n + 2) * (apartCovariance / s.measurementNoise * (hi - lo)) := by
      rw [mul_assoc (s.retention ^ (2 * n + 2))]
      exact add_le_add_right (mul_le_mul_of_nonneg_right hpow hproduct) _
    _ = s.retention ^ (n + 1) * (apart + (n + 1 : ℕ) * s.retention *
          ((hi - lo) * (apartCovariance / s.measurementNoise))) := by
      push_cast
      ring

theorem Forgets.update (h : Forgets lo hi apart apartCovariance n s t) {z : K} (hz : z ∈ Set.Icc lo hi) :
    Forgets lo hi apart apartCovariance (n + 1) (s.update z) (t.update z) where
  left := h.left.update z
  right := h.right.update z
  processNoise := h.processNoise
  measurementNoise := h.measurementNoise
  estimate_mem := h.right.estimate_update_mem h.estimate_mem hz
  apart_nonneg := h.apart_nonneg
  errorCovariance := h.errorCovariance_update z
  estimate := h.estimate_update hz

theorem forgets_filtered {x x' P P' q r : K} (hP : 0 ≤ P) (hP' : 0 ≤ P') (hQ : 0 ≤ q) (hR : 0 < r)
    (hx : x' ∈ Set.Icc lo hi) {ms : List K} (hms : ∀ z ∈ ms, z ∈ Set.Icc lo hi) :
    Forgets lo hi |x - x'| |P - P'| ms.length (filtered x P q r ms) (filtered x' P' q r ms) := by
  induction ms using List.reverseRecOn with
  | nil =>
    refine ⟨⟨hP, hQ, hR⟩, ⟨hP', hQ, hR⟩, rfl, rfl, hx, abs_nonneg _, ?_, ?_⟩
    · simp [filtered, new]
    · simp [filtered, new]
  | append_singleton ms z ih =>
    have hbefore := ih fun z hz => hms z (List.mem_append_left _ hz)
    rw [filtered_concat, filtered_concat, List.length_append]
    exact hbefore.update (hms z (List.mem_append_right _ (List.mem_singleton_self z)))

/-- **How a filter was constructed is forgotten**: whatever is measured, the covariances of two filters with
the same noises come together like `ρ ^ (2 n)`, and their estimates, but for a factor that grows
like `n`, as `ρ ^ n`, where `ρ` is the `retention`, which is less than one when there is
process noise. -/
theorem forgets_initial (x x' P P' q r lo hi : K) (hP : 0 ≤ P) (hP' : 0 ≤ P') (hQ : 0 ≤ q) (hR : 0 < r)
    (hx : x' ∈ Set.Icc lo hi) (ms : List K) (hms : ∀ z ∈ ms, z ∈ Set.Icc lo hi) :
    |(filtered x P q r ms).errorCovariance - (filtered x' P' q r ms).errorCovariance| ≤
      (r / (q + r)) ^ (2 * ms.length) * |P - P'| ∧
    |(filtered x P q r ms).estimate - (filtered x' P' q r ms).estimate| ≤
      (r / (q + r)) ^ ms.length * (|x - x'| + ms.length * (r / (q + r)) * ((hi - lo) * (|P - P'| / r))) ∧
    (0 < q → r / (q + r) < 1) := by
  have h : Forgets lo hi |x - x'| |P - P'| ms.length (filtered x P q r ms) (filtered x' P' q r ms) :=
    forgets_filtered hP hP' hQ hR hx hms
  obtain ⟨hprocess, hmeasurement⟩ := noises_filtered x P q r ms
  have hcovariance := h.errorCovariance
  have hestimate := h.estimate
  rw [retention, hprocess, hmeasurement] at hcovariance hestimate
  refine ⟨hcovariance, hestimate, fun hpos => ?_⟩
  exact (div_lt_one (add_pos hpos hR)).2 (lt_add_of_pos_left r hpos)

theorem forgets_initial_default :
    |(filtered (0 : ℚ) 1 0.01 0.1 [2, 3, 4]).errorCovariance - (filtered 5 3 0.01 0.1 [2, 3, 4]).errorCovariance| ≤
      (0.1 / (0.01 + 0.1)) ^ (2 * 3) * |1 - 3| ∧
    |(filtered (0 : ℚ) 1 0.01 0.1 [2, 3, 4]).estimate - (filtered 5 3 0.01 0.1 [2, 3, 4]).estimate| ≤
      (0.1 / (0.01 + 0.1)) ^ 3 * (|0 - 5| + (3 : ℕ) * (0.1 / (0.01 + 0.1)) * ((5 - 0) * (|1 - 3| / 0.1))) ∧
    (0 < (0.01 : ℚ) → (0.1 : ℚ) / (0.01 + 0.1) < 1) :=
  forgets_initial 0 5 1 3 0.01 0.1 0 5 (by norm_num) (by norm_num) (by norm_num) (by norm_num) (by norm_num)
    [2, 3, 4] (by norm_num)

/-! ### Without process noise -/

/-- The misfit of a value is a square more than that of the estimate. -/
structure Fits (x P r : K) (ms : List K) (s : KalmanFilter1D K) : Prop where
  inRange : s.InRange
  processNoise : s.processNoise = 0
  measurementNoise : s.measurementNoise = r
  errorCovariance_pos : 0 < s.errorCovariance
  information : 1 / s.errorCovariance = 1 / P + ms.length / r
  misfit_eq : ∀ y, misfit x P r ms y = misfit x P r ms s.estimate + (y - s.estimate) ^ 2 / s.errorCovariance

variable {x P r : K} {ms : List K}

/-- **The squares are completed** by the update. -/
theorem Fits.update (h : Fits x P r ms s) (z : K) : Fits x P r (ms ++ [z]) (s.update z) := by
  have hnoise := h.measurementNoise ▸ h.inRange.measurementNoise_pos
  have hP := h.errorCovariance_pos
  have hsum : s.errorCovariance + r ≠ 0 := (add_pos hP hnoise).ne'
  have hgain : s.gain = s.errorCovariance / (s.errorCovariance + r) := by
    rw [gain, h.processNoise, h.measurementNoise, add_zero]
  have hcovariance : (s.update z).errorCovariance = s.errorCovariance * r / (s.errorCovariance + r) := by
    rw [h.inRange.errorCovariance_update_eq, hgain, h.measurementNoise, div_mul_eq_mul_div]
  have hestimate : (s.update z).estimate =
      s.estimate + s.errorCovariance / (s.errorCovariance + r) * (z - s.estimate) := by
    rw [estimate_update_eq, hgain]
  have hsquare : ∀ y, (y - s.estimate) ^ 2 / s.errorCovariance + (z - y) ^ 2 / r =
      (z - s.estimate) ^ 2 / (s.errorCovariance + r) +
        (y - (s.update z).estimate) ^ 2 / (s.update z).errorCovariance := by
    intro y
    rw [hcovariance, hestimate]
    field_simp
    ring
  refine ⟨h.inRange.update z, h.processNoise, h.measurementNoise, ?_, ?_, fun y => ?_⟩
  · rw [hcovariance]
    exact div_pos (mul_pos hP hnoise) (add_pos hP hnoise)
  · have hmore : 1 / (s.update z).errorCovariance = 1 / s.errorCovariance + 1 / r := by
      rw [hcovariance]
      field_simp
      ring
    rw [hmore, h.information, List.length_append, List.length_singleton]
    push_cast
    ring
  · have hbest := hsquare (s.update z).estimate
    rw [sub_self, zero_pow two_ne_zero, zero_div, add_zero] at hbest
    rw [misfit_concat, misfit_concat, h.misfit_eq y, h.misfit_eq (s.update z).estimate]
    linear_combination hsquare y - hbest

theorem fits_filtered (hP : 0 < P) (hR : 0 < r) (ms : List K) : Fits x P r ms (filtered x P 0 r ms) := by
  induction ms using List.reverseRecOn with
  | nil =>
    refine ⟨⟨hP.le, le_rfl, hR⟩, rfl, rfl, hP, by simp [filtered, new], fun y => ?_⟩
    simp [filtered, misfit, new]
  | append_singleton ms z ih =>
    rw [filtered_concat]
    exact ih.update z

/-- **The best fit**: without process noise the estimate is the one value that fits the initial estimate and all
measurements best, and its certainty is the sum of theirs. -/
theorem fits_best (x P r : K) (hP : 0 < P) (hR : 0 < r) (ms : List K) :
    1 / (filtered x P 0 r ms).errorCovariance = 1 / P + ms.length / r ∧
      ∀ y, y ≠ (filtered x P 0 r ms).estimate →
        misfit x P r ms (filtered x P 0 r ms).estimate < misfit x P r ms y := by
  have h := fits_filtered (x := x) hP hR ms
  refine ⟨h.information, fun y hy => ?_⟩
  rw [h.misfit_eq y]
  exact lt_add_of_pos_right _ (div_pos (sq_pos_of_ne_zero (sub_ne_zero.2 hy)) h.errorCovariance_pos)

theorem fits_best_three :
    1 / (filtered (0 : ℚ) 1 0 1 [2, 3, 7]).errorCovariance = 1 / 1 + (3 : ℕ) / 1 ∧
      ∀ y, y ≠ (filtered (0 : ℚ) 1 0 1 [2, 3, 7]).estimate →
        misfit 0 1 1 [2, 3, 7] (filtered (0 : ℚ) 1 0 1 [2, 3, 7]).estimate < misfit 0 1 1 [2, 3, 7] y :=
  fits_best 0 1 1 one_pos one_pos [2, 3, 7]

end SensorBridge.Stage.KalmanFilter1D
