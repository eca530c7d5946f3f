import SensorBridge.Metrics.JitterTracker
import SensorBridge.Foundation.Welford
import Mathlib.Tactic.Linarith
import Mathlib.Tactic.NormNum
import Mathlib.Tactic.Positivity

/-!
# How accurate a jitter tracker is

A tracker that records a list of samples, in exact arithmetic but for what the code does to
store a number: it clamps it to `2 ^ 32 - 1` and cuts it off after 32 fractional bits.

Cutting off makes the mean a little too small, by less than `2 ^ -32` for each sample
(`mean_error`), and changes what a sample adds to the sum of squares by a two-hundredth and a few
times `2 ^ -32` at most (`squares_error`). Clamping does nothing to the mean. The sum of squares it
stops at `2 ^ 32 - 1`, which it passes at once when latencies differ by a fraction of a
millisecond. So the variance is accurate exactly when the sum of squares is at most that, or more by
no more than is tolerated (`accurate_iff`).
-/

namespace SensorBridge.Metrics.JitterAccuracy

open Foundation
open scoped Foundation.Exact
open JitterTracker hiding min max

/-! ### Fixed point -/

/-- The last place of a stored number. -/
def ulp : ℚ := 1 / 2 ^ 32

/-- The greatest number that is not clamped. -/
def maxValue : ℚ := 2 ^ 32 - 1

/-- A number as it is stored, and loaded again. -/
def stored (value : ℚ) : ℚ := fromFixedPoint ℚ (toFixedPoint value)

theorem toFixedPoint_eq (value : ℚ) :
    toFixedPoint value = min ⌊max 0 (min value maxValue) * 2 ^ 32⌋₊ (2 ^ 64 - 1) := by
  have hzero : (0.0 : ℚ) = 0 := by norm_num
  have hscale : fpScale ℚ = 2 ^ 32 := by norm_num [fpScale, fpBits]
  have hmax : (((2 ^ 64 - 1) / 2 ^ fpBits : ℕ) : ℚ) = maxValue := by norm_num [maxValue, fpBits]
  have hle : (0 : ℚ) ≤ maxValue := by norm_num [maxValue]
  rw [toFixedPoint, hzero, hscale, hmax, clamp_eq hle]
  rfl

/-- What is cut off is less than the last place. -/
theorem stored_eq (value : ℚ) :
    stored value ≤ max 0 (min value maxValue) ∧ max 0 (min value maxValue) - ulp < stored value := by
  have hmax : (0 : ℚ) ≤ maxValue := by norm_num [maxValue]
  have hright : max 0 (min value maxValue) ≤ maxValue := max_le hmax (min_le_right _ _)
  have hproduct : 0 ≤ max 0 (min value maxValue) * 2 ^ 32 := mul_nonneg (le_max_left _ _) (by positivity)
  have hfits : ⌊max 0 (min value maxValue) * 2 ^ 32⌋₊ ≤ 2 ^ 64 - 1 := by
    have hle : max 0 (min value maxValue) * 2 ^ 32 ≤ ((2 ^ 64 - 2 ^ 32 : ℕ) : ℚ) := by
      calc max 0 (min value maxValue) * 2 ^ 32 ≤ maxValue * 2 ^ 32 := mul_le_mul_of_nonneg_right hright (by positivity)
        _ = ((2 ^ 64 - 2 ^ 32 : ℕ) : ℚ) := by norm_num [maxValue]
    have hfloor := Nat.floor_le_floor hle
    rw [Nat.floor_natCast] at hfloor
    exact hfloor.trans (by norm_num)
  have hstored : stored value = (⌊max 0 (min value maxValue) * 2 ^ 32⌋₊ : ℚ) / 2 ^ 32 := by
    have hscale : fpScale ℚ = 2 ^ 32 := by norm_num [fpScale, fpBits]
    rw [stored, fromFixedPoint, toFixedPoint_eq, min_eq_left hfits, hscale]
  have hfloor := Nat.floor_le hproduct
  have hceil := Nat.lt_floor_add_one (max 0 (min value maxValue) * 2 ^ 32)
  rw [hstored, ulp]
  constructor
  · rw [div_le_iff₀ (by positivity)]
    exact hfloor
  · rw [lt_div_iff₀ (by positivity)]
    have hsplit : (max 0 (min value maxValue) - 1 / 2 ^ 32) * 2 ^ 32 =
        max 0 (min value maxValue) * 2 ^ 32 - 1 := by ring
    rw [hsplit]
    exact sub_lt_iff_lt_add.2 hceil

theorem stored_le {value : ℚ} (hpos : 0 ≤ value) : stored value ≤ value :=
  (stored_eq value).1.trans (max_le hpos (min_le_left _ _))

theorem stored_le_maxValue (value : ℚ) : stored value ≤ maxValue := by
  have hmax : (0 : ℚ) ≤ maxValue := by norm_num [maxValue]
  exact (stored_eq value).1.trans (max_le hmax (min_le_right _ _))

theorem lt_stored {value : ℚ} (hpos : 0 ≤ value) (hle : value ≤ maxValue) : value - ulp < stored value := by
  have hstored := (stored_eq value).2
  rwa [min_eq_left hle, max_eq_right hpos] at hstored

theorem stored_nonneg (value : ℚ) : 0 ≤ stored value := by
  have hscale : fpScale ℚ = 2 ^ 32 := by norm_num [fpScale, fpBits]
  rw [stored, fromFixedPoint, hscale]
  positivity

/-- A number that is clamped is stored as the greatest, with nothing cut off. -/
theorem stored_of_le {value : ℚ} (h : maxValue ≤ value) : stored value = maxValue := by
  have hmax : (0 : ℚ) ≤ maxValue := by norm_num [maxValue]
  have hscale : fpScale ℚ = 2 ^ 32 := by norm_num [fpScale, fpBits]
  have hproduct : maxValue * 2 ^ 32 = ((2 ^ 64 - 2 ^ 32 : ℕ) : ℚ) := by norm_num [maxValue]
  have hcast : ((2 ^ 64 - 2 ^ 32 : ℕ) : ℚ) / 2 ^ 32 = maxValue := by
    rw [← hproduct, mul_div_cancel_right₀ _ (by positivity)]
  rw [stored, fromFixedPoint, toFixedPoint_eq, min_eq_right h, max_eq_right hmax, hscale, hproduct,
    Nat.floor_natCast, min_eq_left (by norm_num), hcast]

/-! ### One more sample -/

/-- The samples as numbers. -/
def exact (samples : List ℕ) : List ℚ := samples.map Nat.cast

/-- The sum of squares that a tracker has stored. -/
def squares (t : JitterTracker) : ℚ := fromFixedPoint ℚ t.m2Fp

theorem count_recordAll (samples : List ℕ) : (recordAll ℚ samples).count = samples.length := by
  induction samples using List.reverseRecOn with
  | nil => rfl
  | append_singleton samples x ih =>
    rw [recordAll_concat, List.length_append, List.length_singleton, ← ih]
    rfl

/-- The count that a sample is divided by. -/
theorem length_add_one (samples : List ℕ) :
    ((samples.length : ℚ) + 1) = (((recordAll ℚ samples).count + 1 : ℕ) : ℚ) := by
  rw [count_recordAll]
  push_cast
  rfl

theorem mean_recordAll_concat (samples : List ℕ) (x : ℕ) :
    (recordAll ℚ (samples ++ [x])).mean ℚ =
      stored ((recordAll ℚ samples).mean ℚ + (x - (recordAll ℚ samples).mean ℚ) / (samples.length + 1)) := by
  rw [recordAll_concat, length_add_one]
  rfl

theorem squares_recordAll_concat (samples : List ℕ) (x : ℕ) :
    squares (recordAll ℚ (samples ++ [x])) =
      stored (squares (recordAll ℚ samples) + (x - (recordAll ℚ samples).mean ℚ) *
        (x - ((recordAll ℚ samples).mean ℚ + (x - (recordAll ℚ samples).mean ℚ) / (samples.length + 1)))) := by
  rw [recordAll_concat, length_add_one]
  rfl

/-! ### The mean -/

/-- A mean that a sample moves: it stays within the bounds, and is off by one more last place. -/
theorem mean_step {n mean exactMean x : ℚ} (hn : 0 ≤ n) (hmean : 0 ≤ mean ∧ mean ≤ maxValue)
    (herror : 0 ≤ exactMean - mean ∧ exactMean - mean ≤ n * ulp) (hx : 0 ≤ x ∧ x ≤ maxValue) :
    (0 ≤ stored (mean + (x - mean) / (n + 1)) ∧ stored (mean + (x - mean) / (n + 1)) ≤ maxValue) ∧
      0 ≤ exactMean + (x - exactMean) / (n + 1) - stored (mean + (x - mean) / (n + 1)) ∧
      exactMean + (x - exactMean) / (n + 1) - stored (mean + (x - mean) / (n + 1)) ≤ (n + 1) * ulp := by
  have hsucc : 0 < n + 1 := by linarith
  -- a weighted mean of the two, and so is the error
  have hweighted : mean + (x - mean) / (n + 1) = (n * mean + x) / (n + 1) := by
    field_simp
    ring
  have hdiff : exactMean + (x - exactMean) / (n + 1) - (mean + (x - mean) / (n + 1)) =
      n * (exactMean - mean) / (n + 1) := by
    field_simp
    ring
  have hpos : 0 ≤ mean + (x - mean) / (n + 1) := by
    rw [hweighted]
    exact div_nonneg (add_nonneg (mul_nonneg hn hmean.1) hx.1) hsucc.le
  have hle : mean + (x - mean) / (n + 1) ≤ maxValue := by
    rw [hweighted, div_le_iff₀ hsucc]
    have := mul_le_mul_of_nonneg_left hmean.2 hn
    linarith [hx.2]
  have herrorPos : 0 ≤ n * (exactMean - mean) / (n + 1) := div_nonneg (mul_nonneg hn herror.1) hsucc.le
  have herrorLe : n * (exactMean - mean) / (n + 1) ≤ exactMean - mean := by
    rw [div_le_iff₀ hsucc]
    linarith [herror.1]
  have hstored := stored_le hpos
  have hcut := lt_stored hpos hle
  refine ⟨⟨stored_nonneg _, hstored.trans hle⟩, ?_, ?_⟩
  · linarith
  · linarith [herror.2]

theorem exact_concat (samples : List ℕ) (x : ℕ) : exact (samples ++ [x]) = exact samples ++ [(x : ℚ)] := by
  simp [exact]

theorem length_exact (samples : List ℕ) : (exact samples).length = samples.length := by
  rw [exact, List.length_map]

theorem le_maxValue {x : ℕ} (h : x < 2 ^ 32) : (x : ℚ) ≤ maxValue := by
  have hcast : (x : ℚ) ≤ ((2 ^ 32 - 1 : ℕ) : ℚ) := by exact_mod_cast Nat.le_sub_one_of_lt h
  have hmax : ((2 ^ 32 - 1 : ℕ) : ℚ) = maxValue := by norm_num [maxValue]
  exact hcast.trans hmax.le

/-- **The mean is too small by less than a last place for each sample.** -/
theorem mean_error {samples : List ℕ} (hlt : ∀ x ∈ samples, x < 2 ^ 32) :
    (0 ≤ (recordAll ℚ samples).mean ℚ ∧ (recordAll ℚ samples).mean ℚ ≤ maxValue) ∧
      0 ≤ Welford.mean (exact samples) - (recordAll ℚ samples).mean ℚ ∧
      Welford.mean (exact samples) - (recordAll ℚ samples).mean ℚ ≤ samples.length * ulp := by
  induction samples using List.reverseRecOn with
  | nil =>
    have hmean : new.mean ℚ = 0 := by decide +kernel
    have hmax : (0 : ℚ) ≤ maxValue := by norm_num [maxValue]
    simp [hmean, exact, hmax]
  | append_singleton samples x ih =>
    have hx : x < 2 ^ 32 := hlt x (by simp)
    obtain ⟨hmean, herror⟩ := ih fun y hy => hlt y (List.mem_append_left _ hy)
    have hstep := mean_step (Nat.cast_nonneg samples.length) hmean herror ⟨Nat.cast_nonneg x, le_maxValue hx⟩
    rw [mean_recordAll_concat, exact_concat, Welford.mean_concat, length_exact, List.length_append,
      List.length_singleton]
    push_cast
    exact hstep

/-! ### The sum of squares -/

/-- What a sample adds to the sum of squares, when the mean is too small by `error`. -/
theorem increment_error {n d error : ℚ} (hn : 0 ≤ n) (herror : error ^ 2 ≤ ulp) :
    n / (n + 1) * (d + error) ^ 2 ≤ n / (n + 1) * d ^ 2 + n / (n + 1) * d ^ 2 / 200 + 201 * ulp ∧
      n / (n + 1) * d ^ 2 - n / (n + 1) * d ^ 2 / 200 - 201 * ulp ≤
        n / (n + 1) * (d + error) ^ 2 := by
  have hpart : 0 ≤ n / (n + 1) := div_nonneg hn (by linarith)
  have hpart' : n / (n + 1) ≤ 1 := div_le_one_of_le₀ (by linarith) (by linarith)
  have hulp : 0 ≤ ulp := by norm_num [ulp]
  have hsmall : n / (n + 1) * (201 * ulp) ≤ 201 * ulp := mul_le_of_le_one_left (by linarith) hpart'
  -- twice a product is at most a part of one square and a multiple of the other
  have hupper : (d + error) ^ 2 ≤ d ^ 2 + d ^ 2 / 200 + 201 * ulp := by
    have := sq_nonneg (d - 200 * error)
    linarith [herror]
  have hlower : d ^ 2 - d ^ 2 / 200 - 201 * ulp ≤ (d + error) ^ 2 := by
    have := sq_nonneg (d + 200 * error)
    have := sq_nonneg error
    linarith [herror]
  have hscaled := mul_le_mul_of_nonneg_left hupper hpart
  have hscaled' := mul_le_mul_of_nonneg_left hlower hpart
  constructor
  · calc n / (n + 1) * (d + error) ^ 2
        ≤ n / (n + 1) * (d ^ 2 + d ^ 2 / 200 + 201 * ulp) := hscaled
      _ = n / (n + 1) * d ^ 2 + n / (n + 1) * d ^ 2 / 200 + n / (n + 1) * (201 * ulp) := by ring
      _ ≤ _ := by linarith
  · calc n / (n + 1) * d ^ 2 - n / (n + 1) * d ^ 2 / 200 - 201 * ulp
        ≤ n / (n + 1) * d ^ 2 - n / (n + 1) * d ^ 2 / 200 - n / (n + 1) * (201 * ulp) := by linarith
      _ = n / (n + 1) * (d ^ 2 - d ^ 2 / 200 - 201 * ulp) := by ring
      _ ≤ _ := hscaled'

/-- A sum of squares that a sample is added to, while that is not off by much. -/
theorem squares_step {n squares exactSquares added exactAdded : ℚ} (hpos : 0 ≤ squares) (haddedPos : 0 ≤ added)
    (hupper : squares ≤ exactSquares + exactSquares / 200 + n * (202 * ulp))
    (hlower : squares = maxValue ∨ exactSquares - exactSquares / 200 - n * (202 * ulp) ≤ squares)
    (hadded : added ≤ exactAdded + exactAdded / 200 + 201 * ulp ∧
      exactAdded - exactAdded / 200 - 201 * ulp ≤ added) :
    stored (squares + added) ≤
        exactSquares + exactAdded + (exactSquares + exactAdded) / 200 + (n + 1) * (202 * ulp) ∧
      (stored (squares + added) = maxValue ∨
        exactSquares + exactAdded - (exactSquares + exactAdded) / 200 - (n + 1) * (202 * ulp) ≤
          stored (squares + added)) := by
  have hulp : 0 ≤ ulp := by norm_num [ulp]
  have hsum : 0 ≤ squares + added := by linarith
  have hstored := stored_le hsum
  refine ⟨by linarith [hadded.1], ?_⟩
  rcases le_total maxValue (squares + added) with hclamped | hfits
  · exact .inl (stored_of_le hclamped)
  · rcases hlower with hmax | hlower
    · -- clamped before, clamped again
      exact .inl (stored_of_le (by linarith))
    · have hcut := lt_stored hsum hfits
      exact .inr (by linarith [hadded.2])

/-- The error of the mean is small enough for its square to be less than a last place. -/
theorem sq_error_le {n error : ℚ} (hn : n ≤ 2 ^ 16) (hpos : 0 ≤ error) (hle : error ≤ n * ulp) : error ^ 2 ≤ ulp := by
  have hulp : 0 ≤ ulp := by norm_num [ulp]
  have hbound : error ≤ 2 ^ 16 * ulp := hle.trans (mul_le_mul_of_nonneg_right hn hulp)
  calc error ^ 2 ≤ (2 ^ 16 * ulp) ^ 2 := pow_le_pow_left₀ hpos hbound 2
    _ = ulp := by norm_num [ulp]

/-- **The sum of squares is off by a two-hundredth and a few last places**, or has been clamped. -/
theorem squares_error {samples : List ℕ} (hlt : ∀ x ∈ samples, x < 2 ^ 32) (hlength : samples.length ≤ 2 ^ 16) :
    0 ≤ squares (recordAll ℚ samples) ∧
      squares (recordAll ℚ samples) ≤ Welford.sumSq (exact samples) + Welford.sumSq (exact samples) / 200 +
        samples.length * (202 * ulp) ∧
      (squares (recordAll ℚ samples) = maxValue ∨
        Welford.sumSq (exact samples) - Welford.sumSq (exact samples) / 200 - samples.length * (202 * ulp) ≤
          squares (recordAll ℚ samples)) := by
  induction samples using List.reverseRecOn with
  | nil =>
    have hsquares : squares new = 0 := by decide +kernel
    simp [hsquares, exact]
  | append_singleton samples x ih =>
    rw [List.length_append, List.length_singleton] at hlength
    have hsamples : ∀ y ∈ samples, y < 2 ^ 32 := fun y hy => hlt y (List.mem_append_left _ hy)
    obtain ⟨hpos, hupper, hlower⟩ := ih hsamples (by omega)
    obtain ⟨-, herrorPos, herrorLe⟩ := mean_error hsamples
    have hn : (0 : ℚ) ≤ samples.length := Nat.cast_nonneg _
    have hn' : (samples.length : ℚ) ≤ 2 ^ 16 := by exact_mod_cast (by omega : samples.length ≤ 2 ^ 16)
    have hsucc : (samples.length : ℚ) + 1 ≠ 0 := by linarith
    have hincrement := increment_error (d := x - Welford.mean (exact samples)) hn
      (sq_error_le hn' herrorPos herrorLe)
    -- what the code adds, and what Welford's recurrence adds
    have hadded : (x - (recordAll ℚ samples).mean ℚ) * (x - ((recordAll ℚ samples).mean ℚ +
        (x - (recordAll ℚ samples).mean ℚ) / (samples.length + 1))) =
        samples.length / (samples.length + 1) * (x - Welford.mean (exact samples) +
          (Welford.mean (exact samples) - (recordAll ℚ samples).mean ℚ)) ^ 2 := by
      field_simp
      ring
    have hexact : ((x : ℚ) - Welford.mean (exact samples)) * (x - Welford.mean (exact samples ++ [(x : ℚ)])) =
        samples.length / (samples.length + 1) * (x - Welford.mean (exact samples)) ^ 2 := by
      rw [Welford.sub_mean_concat, length_exact]
      ring
    have haddedPos : 0 ≤ (samples.length : ℚ) / (samples.length + 1) * (x - Welford.mean (exact samples) +
        (Welford.mean (exact samples) - (recordAll ℚ samples).mean ℚ)) ^ 2 := by positivity
    rw [squares_recordAll_concat, exact_concat, Welford.sumSq_concat, hadded, hexact, List.length_append,
      List.length_singleton]
    push_cast
    exact ⟨stored_nonneg _, squares_step hpos haddedPos hupper hlower hincrement⟩

theorem squares_le_maxValue (samples : List ℕ) : squares (recordAll ℚ samples) ≤ maxValue := by
  rcases List.eq_nil_or_concat' samples with rfl | ⟨samples, x, rfl⟩
  · have hsquares : squares new = 0 := by decide +kernel
    rw [recordAll_nil, hsquares]
    norm_num [maxValue]
  · rw [squares_recordAll_concat]
    exact stored_le_maxValue _

/-! ### Mean and variance -/

/-- The mean that is reported is within 1 ns, and the variance within 1 ns² or a hundredth. -/
structure Accurate (samples : List ℕ) : Prop where
  mean_close : |(recordAll ℚ samples).mean ℚ - Welford.mean (exact samples)| ≤ 1
  variance_close : 2 ≤ samples.length →
    |(recordAll ℚ samples).variance ℚ - Welford.variance (exact samples)| ≤
      max 1 (Welford.variance (exact samples) / 100)

theorem mean_close {samples : List ℕ} (hlt : ∀ x ∈ samples, x < 2 ^ 32) (hlength : samples.length ≤ 2 ^ 16) :
    |(recordAll ℚ samples).mean ℚ - Welford.mean (exact samples)| ≤ 1 := by
  obtain ⟨-, hpos, hle⟩ := mean_error hlt
  have hlength' : (samples.length : ℚ) ≤ 2 ^ 16 := by exact_mod_cast hlength
  have hsmall : (samples.length : ℚ) * ulp ≤ 1 := by
    rw [ulp]
    linarith
  rw [abs_le]
  constructor <;> linarith

theorem variance_recordAll {samples : List ℕ} (h : 2 ≤ samples.length) :
    (recordAll ℚ samples).variance ℚ = squares (recordAll ℚ samples) / (samples.length - 1) := by
  have hcast : ((samples.length - 1 : ℕ) : ℚ) = samples.length - 1 := by
    rw [Nat.cast_sub (by omega)]
    norm_num
  rw [JitterTracker.variance, count_recordAll, if_neg (by omega), hcast]
  rfl

/-- An error of a variance, in sums of squares. -/
theorem variance_close_iff {samples : List ℕ} (h : 2 ≤ samples.length) :
    |(recordAll ℚ samples).variance ℚ - Welford.variance (exact samples)| ≤
        max 1 (Welford.variance (exact samples) / 100) ↔
      |squares (recordAll ℚ samples) - Welford.sumSq (exact samples)| ≤
        max ((samples.length : ℚ) - 1) (Welford.sumSq (exact samples) / 100) := by
  have hlength : (2 : ℚ) ≤ samples.length := by exact_mod_cast h
  have hpos : 0 < (samples.length : ℚ) - 1 := by linarith
  have hone : (1 : ℚ) = ((samples.length : ℚ) - 1) / (samples.length - 1) := (div_self hpos.ne').symm
  have hpercent : Welford.sumSq (exact samples) / (samples.length - 1) / 100 =
      Welford.sumSq (exact samples) / 100 / (samples.length - 1) := div_right_comm _ _ _
  rw [variance_recordAll h, Welford.variance, length_exact, ← sub_div, abs_div, abs_of_pos hpos, hpercent]
  nth_rewrite 2 [hone]
  rw [max_div_div_right hpos.le, div_le_div_iff_of_pos_right hpos]

/-- **When a jitter tracker is accurate**: when the sum of the squared distances from the mean is no
more than what can be stored, but for what is tolerated. -/
theorem accurate_iff (samples : List ℕ) (hlt : ∀ x ∈ samples, x < 2 ^ 32) (hlength : samples.length ≤ 2 ^ 16) :
    Accurate samples ↔ (2 ≤ samples.length → Welford.sumSq (exact samples) ≤
      2 ^ 32 - 1 + max ((samples.length : ℚ) - 1) (Welford.sumSq (exact samples) / 100)) := by
  obtain ⟨-, hupper, hlower⟩ := squares_error hlt hlength
  constructor
  · intro h htwo
    have hclose := (abs_le.1 ((variance_close_iff htwo).1 (h.variance_close htwo))).1
    have hle := squares_le_maxValue samples
    rw [maxValue] at hle
    linarith
  · intro h
    refine ⟨mean_close hlt hlength, fun htwo => (variance_close_iff htwo).2 (abs_le.2 ?_)⟩
    have hlength' : (samples.length : ℚ) ≤ 2 ^ 16 := by exact_mod_cast hlength
    have htwo' : (2 : ℚ) ≤ samples.length := by exact_mod_cast htwo
    have hsmall : (samples.length : ℚ) * (202 * ulp) ≤ 1 / 2 := by
      rw [ulp]
      linarith
    -- half of either part of the tolerance is enough for what has been cut off
    have htolerance : 1 / 2 + Welford.sumSq (exact samples) / 200 ≤
        max ((samples.length : ℚ) - 1) (Welford.sumSq (exact samples) / 100) := by
      have hleft := le_max_left ((samples.length : ℚ) - 1) (Welford.sumSq (exact samples) / 100)
      have hright := le_max_right ((samples.length : ℚ) - 1) (Welford.sumSq (exact samples) / 100)
      linarith
    constructor
    · rcases hlower with hmax | hlower
      · have hcondition := h htwo
        rw [hmax, maxValue]
        linarith
      · linarith
    · linarith

/-- The samples of the source's test. -/
theorem accurate_known_values : Accurate [2, 4, 4, 4, 5, 5, 7, 9] :=
  (accurate_iff [2, 4, 4, 4, 5, 5, 7, 9] (by decide) (by decide)).2 fun _ => by decide +kernel

/-- Of 0 and 1 ms the sum of squares is clamped: the variance is reported as less than a hundredth of
what it is. -/
theorem not_forall_close : ¬ ∀ samples : List ℕ, samples ≠ [] → (∀ x ∈ samples, x < 2 ^ 32) →
    samples.length ≤ 2 ^ 16 → Accurate samples := by
  intro h
  have hclose := (h [0, 1000000] (by decide) (by decide) (by decide)).variance_close (by decide)
  revert hclose
  decide +kernel

end SensorBridge.Metrics.JitterAccuracy
