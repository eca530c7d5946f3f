import SensorBridge.Stage.Kalman
import SensorBridge.Stage.Median
import SensorBridge.Stage.Related
import SensorBridge.Stage.Smoothing

/-!
# What filters do to errors and to units

A smoothing filter passes on no more of an error than was in its inputs. When each input is at most so
much more than it should be, so is each output (`Smooth.related`), hence the filters are monotone
and do not enlarge errors; and so does no chain of them (`Smooth.nonexpansive`).

The filters do not mind the unit that the inputs are in. To scale the inputs, and to take off a bias,
is to do so to the outputs, and a calibration can stand before a chain of filters or after it
(`Calibrated.calibration_commutes`). A high-pass filter has no bias to take off, and commutes with `Scale` only.
-/

namespace SensorBridge.Stage

open Foundation Foundation.Replies

universe u

section
variable {F T : Type u}

/-- `Scale`. -/
def scale [HMul T F T] (factor : F) : Stage T T := map (· * factor)

/-- `BiasCorrection`. -/
def biasCorrection [Sub T] (bias : T) : Stage T T := map (· - bias)

/-- What the two make of a value. -/
def calibrate [Mul T] [Sub T] (factor bias y : T) : T := y * factor - bias

end

variable {K : Type u} [Field K] [LinearOrder K]

open scoped Exact Filterable

/-! ### What a filter keeps -/

omit [Field K] [LinearOrder K] in
theorem forall₂_rtake {R : K → K → Prop} {xs ys : List K} (h : List.Forall₂ R xs ys) (n : ℕ) :
    List.Forall₂ R (xs.rtake n) (ys.rtake n) := by
  rw [List.rtake, List.rtake, h.length_eq]
  exact List.forall₂_drop _ h

omit [Field K] [LinearOrder K] in
theorem length_rtake_pos {xs : List K} (hne : xs ≠ []) {window : ℕ} (hpos : 0 < window) :
    0 < min xs.length window ∧ (xs.rtake window).length = min xs.length window := by
  have := List.length_pos_iff.2 hne
  rw [List.rtake, List.length_drop]
  omega

/-- A moving average keeps what sums keep, divided by their length. -/
theorem related_movingAverage {R : K → K → Prop} {window : ℕ} [NeZero window]
    (hR : ∀ xs ys : List K, xs ≠ [] → List.Forall₂ R xs ys → R (xs.sum / xs.length) (ys.sum / xs.length)) :
    Related (MovingAverage.stage K K window) (MovingAverage.stage K K window) R R := by
  refine MovingAverage.computes_stage.related MovingAverage.computes_stage fun xs ys hne h => ?_
  obtain ⟨hpos, hlength⟩ := length_rtake_pos hne (Nat.pos_of_neZero window)
  have hmean := hR _ _ (List.ne_nil_of_length_pos (hlength ▸ hpos)) (forall₂_rtake h window)
  rw [MovingAverage.windowedMean, MovingAverage.windowedMean, ← h.length_eq]
  rwa [hlength] at hmean

/-- An exponential moving average keeps what its blends keep. -/
theorem related_exponentialMovingAverage [IsStrictOrderedRing K] {R : K → K → Prop} {alpha : K}
    (hR : ∀ x y p q, R x y → R p q → R (x * alpha + p * (1 - alpha)) (y * alpha + q * (1 - alpha))) :
    Related (ExponentialMovingAverage.stage ⟨alpha, none⟩ : Stage K K) (ExponentialMovingAverage.stage ⟨alpha, none⟩)
      R R := by
  have hone : (1.0 : K) = 1 := by norm_num
  refine ⟨fun s t => (s : ExponentialMovingAverage K K).alpha = alpha ∧
      (t : ExponentialMovingAverage K K).alpha = alpha ∧ Option.Rel R s.value t.value,
    ⟨rfl, rfl, .none⟩, ?_, fun _ _ h => ⟨h, .none⟩, fun _ _ h => ⟨h.1, h.2.1, .none⟩,
    fun _ _ h => ⟨h, .none⟩⟩
  rintro ⟨_, v⟩ ⟨_, w⟩ x y ⟨rfl, rfl, hvalue⟩ hxy
  cases hvalue with
  | none => exact ⟨⟨rfl, rfl, .some hxy⟩, .some hxy⟩
  | some hpq =>
    have hnew := hR _ _ _ _ hxy hpq
    rw [← hone] at hnew
    exact ⟨⟨rfl, rfl, .some hnew⟩, .some hnew⟩

/-- A low-pass filter keeps what its average keeps. -/
theorem related_lowPassFilter {R : K → K → Prop} {ema : ExponentialMovingAverage K K}
    (h : Related ema.stage ema.stage R R) :
    Related (LowPassFilter.mk ema).stage (LowPassFilter.mk ema).stage R R := by
  obtain ⟨I, hI⟩ := h
  exact ⟨fun s t => I (LowPassFilter.ema s) (LowPassFilter.ema t), hI.init, fun s t => hI.process s.ema t.ema,
    fun s t => hI.tick s.ema t.ema, fun s t => hI.reset s.ema t.ema, fun s t => hI.flush s.ema t.ema⟩

/-- A median filter keeps what a monotone function bounds. -/
theorem related_medianFilter {R : K → K → Prop} {window : ℕ} (hpos : 0 < window)
    (hR : ∀ (xs ys : List K) k, k < xs.length → List.Forall₂ R xs ys →
      R (OrderStatistic.kth xs k) (OrderStatistic.kth ys k)) :
    Related (MedianFilter.stage K window) (MedianFilter.stage K window) R R := by
  refine (MedianFilter.computes_stage hpos).related (MedianFilter.computes_stage hpos) fun xs ys hne h => ?_
  obtain ⟨hpos', hlength⟩ := length_rtake_pos hne hpos
  rw [MedianFilter.windowedMedian, MedianFilter.windowedMedian, ← h.length_eq]
  exact hR _ _ _ (by omega) (forall₂_rtake h window)

variable [IsStrictOrderedRing K]

/-! ### Errors -/

/-- The filters that smooth, as their constructors make them, and chains of them. -/
inductive Smooth : Stage K K → Prop
  | movingAverage {window : ℕ} [NeZero window] : Smooth (MovingAverage.stage K K window)
  | exponentialMovingAverage {alpha : K} {s : ExponentialMovingAverage K K}
    (h : ExponentialMovingAverage.new alpha = some s) : Smooth s.stage
  | lowPassFilter {cutoffHz sampleRateHz : K} {s : LowPassFilter K K}
    (h : LowPassFilter.new cutoffHz sampleRateHz = some s) : Smooth s.stage
  | medianFilter {window : ℕ} (h : 0 < window) : Smooth (MedianFilter.stage K window)
  | kalmanFilter1D {k : KalmanFilter1D K} (h : k.InRange) : Smooth k.stage
  | biasCorrection (bias : K) : Smooth (Stage.biasCorrection bias)
  | identity : Smooth Stage.identity
  | chain {S₁ S₂ : Stage K K} (h₁ : Smooth S₁) (h₂ : Smooth S₂) : Smooth (S₁.chain S₂)

/-- The one is at most so much more than the other. -/
def AtMost (δ x y : K) : Prop := x ≤ y + δ

variable {δ : K}

theorem sum_le_of_forall₂ {xs ys : List K} (h : List.Forall₂ (AtMost δ) xs ys) :
    xs.sum ≤ ys.sum + xs.length * δ := by
  induction h with
  | nil => simp
  | cons hxy _ ih =>
    rw [List.sum_cons, List.sum_cons, List.length_cons, Nat.cast_succ]
    have := hxy
    rw [AtMost] at this
    linarith

theorem atMost_mean {xs ys : List K} (hne : xs ≠ []) (h : List.Forall₂ (AtMost δ) xs ys) :
    AtMost δ (xs.sum / xs.length) (ys.sum / xs.length) := by
  have hpos : (0 : K) < xs.length := Nat.cast_pos.2 (List.length_pos_iff.2 hne)
  rw [AtMost, div_add' _ _ _ hpos.ne', div_le_div_iff_of_pos_right hpos, mul_comm]
  exact sum_le_of_forall₂ h

theorem AtMost.blend {a x y p q : K} (h0 : 0 ≤ a) (h1 : a ≤ 1) (hxy : AtMost δ x y) (hpq : AtMost δ p q) :
    AtMost δ (x * a + p * (1 - a)) (y * a + q * (1 - a)) := by
  have hx := mul_le_mul_of_nonneg_right hxy h0
  have hp := mul_le_mul_of_nonneg_right hpq (sub_nonneg.2 h1)
  rw [AtMost]
  linarith

theorem atMost_kth {xs ys : List K} {k : ℕ} (hk : k < xs.length) (h : List.Forall₂ (AtMost δ) xs ys) :
    AtMost δ (OrderStatistic.kth xs k) (OrderStatistic.kth ys k) := by
  refine OrderStatistic.kth_le_of_forall₂ (g := fun v => v + δ) h (fun x y v hxy hv => ?_) hk
  exact hxy.trans (add_le_add_left hv δ)

/-- Two Kalman filters that differ in their estimates have the same gain, which is less than one. -/
theorem atMost_update {s t : KalmanFilter1D K} (hs : s.InRange) (hgain : t.gain = s.gain)
    (hestimate : AtMost δ s.estimate t.estimate) {x y : K} (hxy : AtMost δ x y) :
    AtMost δ (s.update x).estimate (t.update y).estimate := by
  have hblend := hxy.blend hs.gain_nonneg hs.gain_lt_one.le hestimate
  rw [KalmanFilter1D.estimate_update_eq, KalmanFilter1D.estimate_update_eq, hgain]
  rw [AtMost] at hblend ⊢
  linarith

/-- The covariances of two runs of a Kalman filter are the same, and so are the gains. -/
theorem related_kalmanFilter1D {k : KalmanFilter1D K} (h : k.InRange) (hδ : 0 ≤ δ) :
    Related k.stage k.stage (AtMost δ) (AtMost δ) := by
  have hself : ∀ v : K, AtMost δ v v := fun v => le_add_of_nonneg_right hδ
  have hone : (0 : K) ≤ 1.0 := by norm_num
  refine ⟨fun s t : KalmanFilter1D K =>
      s.InRange ∧ (∃ e, t = { s with estimate := e }) ∧ AtMost δ s.estimate t.estimate,
    ⟨h, ⟨_, rfl⟩, hself _⟩, ?_, fun _ _ hst => ⟨hst, .none⟩, ?_, fun _ _ hst => ⟨hst, .none⟩⟩
  · rintro s t x y ⟨hs, ⟨e, rfl⟩, hestimate⟩ hxy
    have hnew := atMost_update (t := { s with estimate := e }) hs rfl hestimate hxy
    exact ⟨⟨hs.update x, ⟨_, rfl⟩, hnew⟩, .some hnew⟩
  · rintro s t ⟨hs, ⟨e, rfl⟩, -⟩
    exact ⟨⟨hone, hs.processNoise_nonneg, hs.measurementNoise_pos⟩, ⟨_, rfl⟩, hself _⟩

theorem Smooth.related {S : Stage K K} (h : Smooth S) (hδ : 0 ≤ δ) : Related S S (AtMost δ) (AtMost δ) := by
  induction h with
  | movingAverage => exact related_movingAverage fun xs ys hne h => atMost_mean hne h
  | exponentialMovingAverage h =>
    obtain ⟨⟨h0, h1⟩, rfl⟩ := ExponentialMovingAverage.new_eq_some_iff.1 h
    exact related_exponentialMovingAverage fun x y p q => AtMost.blend h0.le h1
  | lowPassFilter h =>
    obtain ⟨ema, hema, rfl⟩ := Option.map_eq_some_iff.1 h
    obtain ⟨⟨h0, h1⟩, rfl⟩ := ExponentialMovingAverage.new_eq_some_iff.1 hema
    exact related_lowPassFilter (related_exponentialMovingAverage fun x y p q => AtMost.blend h0.le h1)
  | medianFilter h => exact related_medianFilter h fun xs ys k hk h => atMost_kth hk h
  | kalmanFilter1D h => exact related_kalmanFilter1D h hδ
  | biasCorrection bias => exact .map fun x y hxy => by rw [AtMost] at *; linarith
  | identity => exact .map fun x y hxy => hxy
  | chain _ _ ih₁ ih₂ => exact ih₁.chain ih₂

/-- A smoothing filter is monotone. -/
theorem Smooth.monotone {S : Stage K K} (h : Smooth S) {cs ds : List (Call K)}
    (hcs : List.Forall₂ (Call.Rel (AtMost 0)) cs ds) :
    List.Forall₂ (Option.Rel (AtMost 0)) (replies S.call S.init cs) (replies S.call S.init ds) :=
  (h.related le_rfl).replies hcs

/-- The one is off the other by so much. -/
def WithinBy (ε x y : K) : Prop := |x - y| ≤ ε

theorem withinBy_iff {ε : K} : WithinBy ε = fun x y => AtMost ε x y ∧ AtMost ε y x := by
  funext x y
  rw [WithinBy, AtMost, AtMost, abs_le', sub_le_iff_le_add', neg_sub, sub_le_iff_le_add']

/-- **No chain of smoothing filters enlarges errors**: fed the same calls with inputs that are off by
no more than `ε`, it replies the same with outputs that are off by no more than `ε`. -/
theorem Smooth.nonexpansive {S : Stage K K} (h : Smooth S) {ε : K} (hε : 0 ≤ ε) {cs ds : List (Call K)}
    (hcs : List.Forall₂ (Call.Rel (WithinBy ε)) cs ds) :
    List.Forall₂ (Option.Rel (WithinBy ε)) (replies S.call S.init cs) (replies S.call S.init ds) := by
  rw [withinBy_iff] at hcs ⊢
  exact ((h.related hε).inf (h.related hε).swap).replies hcs

/-- Some calls, with a sample that is off. -/
def offBy (ε : ℚ) : List (Call ℚ) := [.process 1, .process (7 + ε), .tick, .process 3, .flush, .reset, .process 2]

theorem nonexpansive_offBy :
    let S := (MedianFilter.stage ℚ 3).chain (KalmanFilter1D.defaultParams : KalmanFilter1D ℚ).stage
    List.Forall₂ (Option.Rel (WithinBy 1)) (replies S.call S.init (offBy 1)) (replies S.call S.init (offBy 0)) := by
  refine ((Smooth.medianFilter (by decide)).chain (.kalmanFilter1D ?_)).nonexpansive zero_le_one ?_
  · exact ⟨by decide +kernel, by decide +kernel, by decide +kernel⟩
  · have hself : ∀ x : ℚ, WithinBy 1 x x := fun x => by simp [WithinBy]
    exact .cons (.process (hself 1)) (.cons (.process (by simp [WithinBy])) (.cons .tick (.cons (.process (hself 3))
      (.cons .flush (.cons .reset (.cons (.process (hself 2)) .nil))))))

/-! ### Units -/

/-- The filters that commute with a calibration that takes off the bias, as their constructors make
them, and chains of them. -/
inductive Calibrated (bias : K) : Stage K K → Prop
  | movingAverage {window : ℕ} [NeZero window] : Calibrated bias (MovingAverage.stage K K window)
  | exponentialMovingAverage {alpha : K} {s : ExponentialMovingAverage K K}
    (h : ExponentialMovingAverage.new alpha = some s) : Calibrated bias s.stage
  | lowPassFilter {cutoffHz sampleRateHz : K} {s : LowPassFilter K K}
    (h : LowPassFilter.new cutoffHz sampleRateHz = some s) : Calibrated bias s.stage
  | highPassFilter (h : bias = 0) (cutoffHz sampleRateHz : K) :
    Calibrated bias (HighPassFilter.new cutoffHz sampleRateHz).stage
  | medianFilter {window : ℕ} (h : 0 < window) : Calibrated bias (MedianFilter.stage K window)
  | identity : Calibrated bias Stage.identity
  | scale (h : bias = 0) (factor : K) : Calibrated bias (Stage.scale factor)
  | chain {S₁ S₂ : Stage K K} (h₁ : Calibrated bias S₁) (h₂ : Calibrated bias S₂) : Calibrated bias (S₁.chain S₂)

variable {factor bias : K}

omit [IsStrictOrderedRing K] in
theorem sum_calibrate (ys : List K) :
    (ys.map (calibrate factor bias)).sum = ys.sum * factor - ys.length * bias := by
  induction ys with
  | nil => simp
  | cons y ys ih =>
    rw [List.map_cons, List.sum_cons, ih, calibrate, List.sum_cons, List.length_cons, Nat.cast_succ]
    ring

omit [Field K] [LinearOrder K] [IsStrictOrderedRing K] in
theorem eq_map_of_forall₂ {f : K → K} {xs ys : List K} (h : List.Forall₂ (fun x y => x = f y) xs ys) :
    xs = ys.map f := by
  induction h with
  | nil => rfl
  | cons hxy _ ih => rw [List.map_cons, hxy, ih]

theorem calibrate_mean {xs ys : List K} (hne : xs ≠ [])
    (h : List.Forall₂ (fun x y => x = calibrate factor bias y) xs ys) :
    xs.sum / xs.length = calibrate factor bias (ys.sum / xs.length) := by
  have hpos : (xs.length : K) ≠ 0 := Nat.cast_ne_zero.2 (List.length_pos_iff.2 hne).ne'
  have hsum : xs.sum = ys.sum * factor - xs.length * bias := by
    rw [eq_map_of_forall₂ h, sum_calibrate, List.length_map]
  rw [hsum, calibrate]
  field_simp

theorem calibrate_kth (hfactor : 0 ≤ factor) {xs ys : List K} {k : ℕ} (hk : k < xs.length)
    (h : List.Forall₂ (fun x y => x = calibrate factor bias y) xs ys) :
    OrderStatistic.kth xs k = calibrate factor bias (OrderStatistic.kth ys k) := by
  have hmono : Monotone (calibrate factor bias) :=
    fun y v hy => sub_le_sub_right (mul_le_mul_of_nonneg_right hy hfactor) bias
  refine le_antisymm ?_ ?_
  · exact OrderStatistic.kth_le_of_forall₂ h (fun x y v hxy hv => hxy.trans_le (hmono hv)) hk
  · exact OrderStatistic.le_kth_of_forall₂ h (fun x y v hxy hv => (hmono hv).trans_eq hxy.symm) hk

omit [IsStrictOrderedRing K] in
/-- The changes scale, and so does what the filter makes of them. -/
theorem highPass_calibrate {alpha : K} {xs ys : List K}
    (h : List.Forall₂ (fun x y => x = calibrate factor 0 y) xs ys) :
    HighPassFilter.highPass alpha xs = calibrate factor 0 (HighPassFilter.highPass alpha ys) := by
  rw [eq_map_of_forall₂ h]
  clear h xs
  induction ys using List.reverseRecOn with
  | nil => simp [HighPassFilter.highPass, calibrate]
  | append_singleton ys y ih =>
    rw [List.map_append, List.map_singleton]
    cases hlast : ys.getLast? with
    | none =>
      rw [List.getLast?_eq_none_iff.1 hlast]
      rfl
    | some prevIn =>
      have hlast' : (ys.map (calibrate factor 0)).getLast? = some (calibrate factor 0 prevIn) := by
        rw [List.getLast?_map, hlast, Option.map_some]
      rw [HighPassFilter.highPass_concat alpha hlast, HighPassFilter.highPass_concat alpha hlast', ih]
      simp only [calibrate]
      ring

theorem Calibrated.related {S : Stage K K} (h : Calibrated bias S) (hfactor : 0 ≤ factor) :
    Related S S (fun x y => x = calibrate factor bias y) (fun x y => x = calibrate factor bias y) := by
  have hblend : ∀ alpha x y p q : K, x = calibrate factor bias y → p = calibrate factor bias q →
      x * alpha + p * (1 - alpha) = calibrate factor bias (y * alpha + q * (1 - alpha)) := by
    rintro alpha _ y _ q rfl rfl
    simp only [calibrate]
    ring
  induction h with
  | movingAverage => exact related_movingAverage fun xs ys hne h => calibrate_mean hne h
  | exponentialMovingAverage h =>
    obtain ⟨-, rfl⟩ := ExponentialMovingAverage.new_eq_some_iff.1 h
    exact related_exponentialMovingAverage (hblend _)
  | lowPassFilter h =>
    obtain ⟨ema, hema, rfl⟩ := Option.map_eq_some_iff.1 h
    obtain ⟨-, rfl⟩ := ExponentialMovingAverage.new_eq_some_iff.1 hema
    exact related_lowPassFilter (related_exponentialMovingAverage (hblend _))
  | highPassFilter h =>
    subst h
    exact (HighPassFilter.computes_stage _).related (HighPassFilter.computes_stage _) fun xs ys _ h =>
      highPass_calibrate h
  | medianFilter h => exact related_medianFilter h fun xs ys k hk h => calibrate_kth hfactor hk h
  | identity => exact .map fun x y hxy => hxy
  | scale h factor' =>
    subst h
    refine .map fun x y hxy => ?_
    rw [hxy, calibrate, calibrate]
    ring
  | chain _ _ ih₁ ih₂ => exact ih₁.chain ih₂

/-- **A calibration commutes with filtering**: a `Scale` and a `BiasCorrection` can stand before a
chain of filters, or after it. -/
theorem Calibrated.calibration_commutes {S : Stage K K} (h : Calibrated bias S) (hfactor : 0 ≤ factor)
    (cs : List (Call K)) :
    replies (((Stage.scale factor).chain (Stage.biasCorrection bias)).chain S).call
        (((Stage.scale factor).chain (Stage.biasCorrection bias)).chain S).init cs =
      replies (S.chain ((Stage.scale factor).chain (Stage.biasCorrection bias))).call
        (S.chain ((Stage.scale factor).chain (Stage.biasCorrection bias))).init cs := by
  have hcalibrate : Related ((Stage.scale factor).chain (Stage.biasCorrection bias))
      (Stage.map (calibrate factor bias)) Eq Eq :=
    .map_chain_map (· * factor) (· - bias)
  have hbefore := hcalibrate.chain (.refl S)
  have hafter := (Related.refl S).chain hcalibrate
  rw [hbefore.replies_eq, hafter.replies_eq, (h.related hfactor).commutes.replies_eq]

theorem calibration_commutes_offBy :
    let S := (MedianFilter.stage ℚ 3).chain (MovingAverage.stage ℚ ℚ 2)
    let C := (Stage.scale (980665 / 100000 : ℚ)).chain (Stage.biasCorrection (1 / 10))
    replies (C.chain S).call (C.chain S).init (offBy 1) = replies (S.chain C).call (S.chain C).init (offBy 1) :=
  ((Calibrated.medianFilter (by decide)).chain .movingAverage).calibration_commutes (by norm_num) (offBy 1)

end SensorBridge.Stage
