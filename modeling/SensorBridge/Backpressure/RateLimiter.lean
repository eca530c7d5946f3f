import Mathlib.Data.Rat.Floor
import Mathlib.Tactic.Linarith
import Mathlib.Tactic.NormNum
import Mathlib.Tactic.Positivity
import Mathlib.Tactic.FieldSimp

/-!
# The token bucket

A `RateLimiter` keeps its tokens in fixed point, 32 bits of a `u64` after the point, with the
time of the last refill beside them. Every call first refills: the time since the last refill
is swapped for whole tokens, the bucket is filled up to its capacity, and what is over a whole
token is forgotten. All arithmetic on the cell saturates at `u64::MAX`.

The clock is the nanoseconds since the limiter was created, handed to each call; the refill
rate is an exact rational. `tokens` is the whole tokens in the bucket, and the lemmas say what
a refill and an acquisition make of them.
-/

namespace SensorBridge.Backpressure

/-! ### `u64` arithmetic -/

/-- `u64::MAX`. -/
def u64Max : ℕ := 2 ^ 64 - 1

/-- `a.saturating_mul(b)`. -/
def saturatingMul (a b : ℕ) : ℕ := min (a * b) u64Max

/-- `a.saturating_add(b)`. -/
def saturatingAdd (a b : ℕ) : ℕ := min (a + b) u64Max

/-- `x as u64`, which truncates and saturates. -/
def toU64 (x : ℚ) : ℕ := min ⌊x⌋₊ u64Max

theorem toU64_le_floor (x : ℚ) : toU64 x ≤ ⌊x⌋₊ := min_le_left _ _

theorem toU64_le {x : ℚ} (hx : 0 ≤ x) : (toU64 x : ℚ) ≤ x :=
  (Nat.cast_le.mpr (toU64_le_floor x)).trans (Nat.floor_le hx)

/-! ### The limiter -/

/-- Configuration for the rate limiter. -/
structure RateLimiterConfig where
  /-- Maximum number of tokens in the bucket. -/
  capacity : ℕ
  /-- Rate at which tokens are refilled (tokens per second). -/
  refillRate : ℚ
  /-- Initial number of tokens. -/
  initialTokens : ℕ

namespace RateLimiterConfig

/-- `RateLimiterConfig::default`. -/
def default : RateLimiterConfig := ⟨100, 1000, 100⟩

/-- `RateLimiterConfig::new`: 100 ms worth of burst. -/
def new (ratePerSecond : ℚ) : RateLimiterConfig :=
  ⟨toU64 (ratePerSecond * (1 / 10)), ratePerSecond, toU64 (ratePerSecond * (1 / 10))⟩

/-- `.capacity(capacity)`: sets the bucket capacity, and nothing else. -/
def withCapacity (c : RateLimiterConfig) (capacity : ℕ) : RateLimiterConfig := { c with capacity }

/-- `.initial_tokens(tokens)`. -/
def withInitialTokens (c : RateLimiterConfig) (tokens : ℕ) : RateLimiterConfig :=
  { c with initialTokens := tokens }

/-- `.refill_rate(rate)`. -/
def withRefillRate (c : RateLimiterConfig) (rate : ℚ) : RateLimiterConfig := { c with refillRate := rate }

end RateLimiterConfig

/-- A token bucket rate limiter. -/
structure RateLimiter where
  config : RateLimiterConfig
  /-- Available tokens (fixed point with 32 fractional bits). -/
  tokensFp : ℕ
  /-- Last update time in nanoseconds since creation. -/
  lastUpdateNs : ℕ
  /-- Number of acquisitions. -/
  acquiredCount : ℕ
  /-- Number of rejections. -/
  rejectedCount : ℕ

namespace RateLimiter

/-- Fixed-point scale factor. -/
def fpScale : ℕ := 2 ^ 32

/-- `RateLimiter::new`. -/
def new (config : RateLimiterConfig) : RateLimiter :=
  ⟨config, saturatingMul config.initialTokens fpScale, 0, 0, 0⟩

/-- What `elapsedNs` are worth, in tokens. -/
def worth (config : RateLimiterConfig) (elapsedNs : ℕ) : ℚ :=
  config.refillRate * (elapsedNs / 1000000000)

/-- `tokens_to_add`: the whole tokens of that. -/
def tokensToAdd (config : RateLimiterConfig) (elapsedNs : ℕ) : ℕ := toU64 (worth config elapsedNs)

/-- The `fetch_update` of `refill`: tokens are added, up to the capacity. -/
def addTokens (config : RateLimiterConfig) (tokens current : ℕ) : ℕ :=
  min (saturatingAdd current (saturatingMul tokens fpScale)) (saturatingMul config.capacity fpScale)

/-- The cell after the tokens for `elapsedNs` have been added, if there are any. -/
def credit (config : RateLimiterConfig) (elapsedNs current : ℕ) : ℕ :=
  if tokensToAdd config elapsedNs = 0 then current
  else addTokens config (tokensToAdd config elapsedNs) current

/-- `RateLimiter::refill`, at `nowNs`. -/
def refill (l : RateLimiter) (nowNs : ℕ) : RateLimiter :=
  if nowNs ≤ l.lastUpdateNs then { l with lastUpdateNs := nowNs }
  else { l with lastUpdateNs := nowNs, tokensFp := credit l.config (nowNs - l.lastUpdateNs) l.tokensFp }

/-- `RateLimiter::try_acquire_n`, at `nowNs`, by the only thread. -/
def tryAcquireN (l : RateLimiter) (nowNs n : ℕ) : Bool × RateLimiter :=
  let r := l.refill nowNs
  if r.tokensFp < saturatingMul n fpScale then (false, { r with rejectedCount := r.rejectedCount + 1 })
  else (true, { r with tokensFp := r.tokensFp - saturatingMul n fpScale
                       acquiredCount := r.acquiredCount + 1 })

/-- `RateLimiter::available_tokens`, at `nowNs`. -/
def availableTokens (l : RateLimiter) (nowNs : ℕ) : ℚ × RateLimiter :=
  ((l.refill nowNs).tokensFp / fpScale, l.refill nowNs)

/-- `RateLimiter::reset`. The clock goes on from the creation. -/
def reset (l : RateLimiter) : RateLimiter :=
  { l with tokensFp := saturatingMul l.config.initialTokens fpScale, lastUpdateNs := 0
           acquiredCount := 0, rejectedCount := 0 }

/-- The whole tokens in the bucket. -/
def tokens (l : RateLimiter) : ℕ := l.tokensFp / fpScale

theorem tokensFp_new (config : RateLimiterConfig) :
    (new config).tokensFp = saturatingMul config.initialTokens fpScale := rfl

/-- What `reset` stores is what a limiter begins with. -/
theorem reset_eq (l : RateLimiter) : l.reset = new l.config := rfl

/-! ### Refilling -/

@[simp] theorem config_refill (l : RateLimiter) (now : ℕ) : (l.refill now).config = l.config := by
  unfold refill
  split_ifs <;> rfl

@[simp] theorem lastUpdateNs_refill (l : RateLimiter) (now : ℕ) : (l.refill now).lastUpdateNs = now := by
  unfold refill
  split_ifs <;> rfl

theorem tokensFp_refill (l : RateLimiter) {now : ℕ} (h : l.lastUpdateNs < now) :
    (l.refill now).tokensFp = credit l.config (now - l.lastUpdateNs) l.tokensFp := by
  unfold refill
  rw [if_neg (Nat.not_le.mpr h)]

theorem tokensFp_refill_of_le (l : RateLimiter) {now : ℕ} (h : now ≤ l.lastUpdateNs) :
    (l.refill now).tokensFp = l.tokensFp := by
  unfold refill
  rw [if_pos h]

theorem fpScale_pos : 0 < fpScale := by decide

theorem addTokens_le (config : RateLimiterConfig) (n current : ℕ) :
    addTokens config n current ≤ current + n * fpScale :=
  (min_le_left _ _).trans ((min_le_left _ _).trans (Nat.add_le_add_left (min_le_left _ _) _))

/-- A refill adds no more whole tokens than the time is worth. -/
theorem credit_div_le (config : RateLimiterConfig) (elapsed current : ℕ) :
    credit config elapsed current / fpScale ≤ current / fpScale + tokensToAdd config elapsed := by
  unfold credit
  split_ifs with h
  · exact Nat.le_add_right _ _
  · rw [← Nat.add_mul_div_right _ _ fpScale_pos]
    exact Nat.div_le_div_right (addTokens_le config _ _)

/-- A refill does not fill the bucket beyond its capacity. -/
theorem credit_div_le_capacity {config : RateLimiterConfig} {current : ℕ}
    (h : current / fpScale ≤ config.capacity) (elapsed : ℕ) :
    credit config elapsed current / fpScale ≤ config.capacity := by
  unfold credit
  split_ifs
  · exact h
  · have hle : addTokens config (tokensToAdd config elapsed) current ≤ config.capacity * fpScale :=
      (min_le_right _ _).trans (min_le_left _ _)
    exact (Nat.div_le_div_right hle).trans (Nat.mul_div_cancel _ fpScale_pos).le

/-- A cell that is not full stays so, when the capacity is less than a full cell. -/
theorem tokensFp_refill_lt {l : RateLimiter} (hcap : l.config.capacity < 2 ^ 32)
    (h : l.tokensFp < u64Max) (now : ℕ) : (l.refill now).tokensFp < u64Max := by
  rcases Nat.lt_or_ge l.lastUpdateNs now with hlt | hge
  · rw [tokensFp_refill l hlt, credit]
    split_ifs
    · exact h
    · have hle : l.config.capacity * fpScale < u64Max := by
        simp only [fpScale, u64Max]
        omega
      exact (min_le_right _ _).trans_lt ((min_le_left _ _).trans_lt hle)
  · rw [tokensFp_refill_of_le l hge]
    exact h

theorem worth_nonneg {config : RateLimiterConfig} (h : 0 ≤ config.refillRate) (elapsed : ℕ) :
    0 ≤ worth config elapsed := by
  unfold worth
  positivity

/-- What a refill at a later time makes of the whole tokens. -/
theorem tokens_refill {l : RateLimiter} (hrate : 0 ≤ l.config.refillRate) {now : ℕ}
    (h : l.lastUpdateNs ≤ now) :
    ((l.refill now).tokens : ℚ) ≤ l.tokens + worth l.config (now - l.lastUpdateNs) := by
  rcases h.eq_or_lt with rfl | hlt
  · rw [tokens, tokensFp_refill_of_le l le_rfl, Nat.sub_self]
    simp [worth, tokens]
  · have hle : (l.refill now).tokens ≤ l.tokens + tokensToAdd l.config (now - l.lastUpdateNs) := by
      rw [tokens, tokensFp_refill l hlt]
      exact credit_div_le _ _ _
    calc ((l.refill now).tokens : ℚ)
        ≤ (l.tokens + tokensToAdd l.config (now - l.lastUpdateNs) : ℕ) := Nat.cast_le.mpr hle
      _ = l.tokens + (tokensToAdd l.config (now - l.lastUpdateNs) : ℚ) := Nat.cast_add _ _
      _ ≤ l.tokens + worth l.config (now - l.lastUpdateNs) :=
        add_le_add_right (toU64_le (worth_nonneg hrate _)) _

theorem tokens_refill_le {l : RateLimiter} (h : l.tokens ≤ l.config.capacity) (now : ℕ) :
    (l.refill now).tokens ≤ l.config.capacity := by
  rcases Nat.lt_or_ge l.lastUpdateNs now with hlt | hge
  · rw [tokens, tokensFp_refill l hlt]
    exact credit_div_le_capacity h _
  · rw [tokens, tokensFp_refill_of_le l hge]
    exact h

/-- What a new bucket holds: the cell has room for fewer than `2 ^ 32` tokens. -/
theorem tokens_new (config : RateLimiterConfig) :
    (new config).tokens = min config.initialTokens (2 ^ 32 - 1) := by
  simp only [tokens, new, saturatingMul, fpScale, u64Max]
  omega

/-! ### Acquiring -/

/-- What a call of `try_acquire_n` does: when there are too few tokens it takes nothing, else
what `n` tokens are in fixed point. -/
theorem tryAcquireN_cases (l : RateLimiter) (now n : ℕ) :
    (∃ l', l.tryAcquireN now n = (false, l') ∧ l'.config = l.config ∧ l'.lastUpdateNs = now ∧
      (l.refill now).tokensFp < saturatingMul n fpScale ∧ l'.tokensFp = (l.refill now).tokensFp) ∨
    ∃ l', l.tryAcquireN now n = (true, l') ∧ l'.config = l.config ∧ l'.lastUpdateNs = now ∧
      saturatingMul n fpScale ≤ (l.refill now).tokensFp ∧
      l'.tokensFp = (l.refill now).tokensFp - saturatingMul n fpScale := by
  by_cases h : (l.refill now).tokensFp < saturatingMul n fpScale
  · refine .inl ⟨_, if_pos h, ?_, ?_, h, rfl⟩ <;> simp
  · refine .inr ⟨_, if_neg h, ?_, ?_, Nat.not_lt.mp h, rfl⟩ <;> simp

@[simp] theorem config_tryAcquireN (l : RateLimiter) (now n : ℕ) : (l.tryAcquireN now n).2.config = l.config := by
  rcases l.tryAcquireN_cases now n with ⟨l', hl, hconfig, -⟩ | ⟨l', hl, hconfig, -⟩
  · rw [hl, hconfig]
  · rw [hl, hconfig]

@[simp] theorem lastUpdateNs_tryAcquireN (l : RateLimiter) (now n : ℕ) :
    (l.tryAcquireN now n).2.lastUpdateNs = now := by
  rcases l.tryAcquireN_cases now n with ⟨l', hl, -, hlast, -⟩ | ⟨l', hl, -, hlast, -⟩
  · rw [hl, hlast]
  · rw [hl, hlast]

/-- What is asked for is granted exactly when the refilled cell holds it. -/
theorem granted_iff (l : RateLimiter) (now n : ℕ) :
    (l.tryAcquireN now n).1 = true ↔ saturatingMul n fpScale ≤ (l.refill now).tokensFp := by
  rcases l.tryAcquireN_cases now n with ⟨l', hl, -, -, hlt, -⟩ | ⟨l', hl, -, -, hle, -⟩
  · rw [hl]
    exact iff_of_false Bool.false_ne_true (Nat.not_le.mpr hlt)
  · rw [hl]
    exact iff_of_true rfl hle

/-- What a grant leaves in the cell, and what a refusal does. -/
theorem tokensFp_tryAcquireN (l : RateLimiter) (now n : ℕ) :
    (l.tryAcquireN now n).2.tokensFp =
      if (l.tryAcquireN now n).1 = true then (l.refill now).tokensFp - saturatingMul n fpScale
      else (l.refill now).tokensFp := by
  rcases l.tryAcquireN_cases now n with ⟨l', hl, -, -, -, hfp⟩ | ⟨l', hl, -, -, -, hfp⟩
  · rw [hl, if_neg Bool.false_ne_true, hfp]
  · rw [hl, if_pos rfl, hfp]

theorem saturatingMul_le_saturatingMul {a b : ℕ} (h : a ≤ b) (c : ℕ) :
    saturatingMul a c ≤ saturatingMul b c := min_le_min_right _ (Nat.mul_le_mul_right c h)

/-- Fewer than `2 ^ 32` tokens are what they are in fixed point. -/
theorem saturatingMul_fpScale {n : ℕ} (h : n < 2 ^ 32) : saturatingMul n fpScale = n * fpScale := by
  simp only [saturatingMul, fpScale, u64Max]
  omega

/-- `2 ^ 32` tokens or more are all the cell can hold. -/
theorem saturatingMul_fpScale_of_le {n : ℕ} (h : 2 ^ 32 ≤ n) : saturatingMul n fpScale = u64Max := by
  simp only [saturatingMul, fpScale, u64Max]
  omega

end RateLimiter

end SensorBridge.Backpressure
