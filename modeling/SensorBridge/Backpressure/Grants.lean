import SensorBridge.Backpressure.RateLimiter

/-!
# Exact grants

A limiter that represents `a` tokens after its refill should grant `n` of them exactly when
`n ≤ a`, and represent `a - n` then. With fewer than `2 ^ 32` tokens to be had it does: these
are a whole number in fixed point, and nothing saturates. More are asked for in vain, as they
should be, unless the cell is `u64::MAX`: that is what they come to themselves when they are
multiplied with saturation, and so they are granted, for all the cell holds
(`grantsExactly_iff`).
-/

namespace SensorBridge.Backpressure.RateLimiter

/-! ### A limiter in the hands of one thread -/

/-- What calls make of a limiter: the states it can have when the last call was at a time. -/
inductive Reached (config : RateLimiterConfig) : ℕ → RateLimiter → Prop
  | new : Reached config 0 (new config)
  | tryAcquireN {t now : ℕ} {l : RateLimiter} (h : Reached config t l) (hle : t ≤ now) (n : ℕ) :
    Reached config now (l.tryAcquireN now n).2
  | availableTokens {t now : ℕ} {l : RateLimiter} (h : Reached config t l) (hle : t ≤ now) :
    Reached config now (l.availableTokens now).2
  | reset {t now : ℕ} {l : RateLimiter} (h : Reached config t l) (hle : t ≤ now) :
    Reached config now l.reset

/-- The configuration stays, and the cell is one of 64 bits. -/
structure Fits (config : RateLimiterConfig) (l : RateLimiter) : Prop where
  config_eq : l.config = config
  tokensFp_le : l.tokensFp ≤ u64Max

variable {config : RateLimiterConfig} {l : RateLimiter} {t now n : ℕ}

theorem saturatingMul_le (a b : ℕ) : saturatingMul a b ≤ u64Max := min_le_right _ _

theorem tokensFp_refill_le (h : l.tokensFp ≤ u64Max) (now : ℕ) : (l.refill now).tokensFp ≤ u64Max := by
  rcases Nat.lt_or_ge l.lastUpdateNs now with hlt | hge
  · rw [tokensFp_refill l hlt, credit]
    split_ifs
    · exact h
    · exact (min_le_right _ _).trans (saturatingMul_le _ _)
  · rw [tokensFp_refill_of_le l hge]
    exact h

theorem Fits.refill (h : Fits config l) (now : ℕ) : Fits config (l.refill now) :=
  ⟨(config_refill l now).trans h.config_eq, tokensFp_refill_le h.tokensFp_le now⟩

theorem Fits.tryAcquireN (h : Fits config l) (now n : ℕ) : Fits config (l.tryAcquireN now n).2 := by
  have hrefill := h.refill now
  refine ⟨(config_tryAcquireN l now n).trans h.config_eq, ?_⟩
  rw [tokensFp_tryAcquireN]
  split_ifs
  · exact (Nat.sub_le _ _).trans hrefill.tokensFp_le
  · exact hrefill.tokensFp_le

theorem fits_new (config : RateLimiterConfig) : Fits config (new config) :=
  ⟨rfl, (tokensFp_new config).trans_le (saturatingMul_le _ _)⟩

theorem Reached.fits (h : Reached config t l) : Fits config l := by
  induction h with
  | new => exact fits_new config
  | tryAcquireN _ _ n ih => exact ih.tryAcquireN _ n
  | availableTokens _ _ ih => exact ih.refill _
  | reset _ _ ih =>
    rw [reset_eq, ih.config_eq]
    exact fits_new config

/-! ### Granting -/

/-- What the cell represents, in tokens. -/
def represented (l : RateLimiter) : ℚ := l.tokensFp / fpScale

/-- **An exact grant**: `n` tokens are granted exactly when the refilled bucket represents as many;
they are then removed, and else nothing is. -/
structure GrantsExactly (l : RateLimiter) (now n : ℕ) : Prop where
  granted_iff : (l.tryAcquireN now n).1 = true ↔ (n : ℚ) ≤ (l.refill now).represented
  of_granted : (l.tryAcquireN now n).1 = true →
    (l.tryAcquireN now n).2.represented = (l.refill now).represented - n
  of_not_granted : (l.tryAcquireN now n).1 = false →
    (l.tryAcquireN now n).2.represented = (l.refill now).represented

theorem le_represented_iff : (n : ℚ) ≤ l.represented ↔ n * fpScale ≤ l.tokensFp := by
  have hscale : (0 : ℚ) < (fpScale : ℚ) := Nat.cast_pos.2 fpScale_pos
  rw [represented, le_div_iff₀ hscale]
  exact_mod_cast Iff.rfl

/-- A refusal removes nothing. -/
theorem represented_of_not_granted (h : (l.tryAcquireN now n).1 = false) :
    (l.tryAcquireN now n).2.represented = (l.refill now).represented := by
  rw [represented, tokensFp_tryAcquireN, h, if_neg Bool.false_ne_true, represented]

/-- Without saturation, a grant is exact. -/
theorem grantsExactly_of_eq (h : saturatingMul n fpScale = n * fpScale) : GrantsExactly l now n := by
  have hscale : (fpScale : ℚ) ≠ 0 := Nat.cast_ne_zero.2 fpScale_pos.ne'
  refine ⟨?_, ?_, represented_of_not_granted⟩
  · rw [granted_iff, le_represented_iff, h]
  · intro hgranted
    have hle := (granted_iff l now n).1 hgranted
    rw [h] at hle
    rw [represented, tokensFp_tryAcquireN, if_pos hgranted, h, Nat.cast_sub hle, Nat.cast_mul, sub_div,
      mul_div_cancel_right₀ _ hscale, represented]

/-- What is more than the cell can hold is refused exactly, as long as the cell is not full. -/
theorem grantsExactly_of_lt (hn : 2 ^ 32 ≤ n) (hlt : (l.refill now).tokensFp < u64Max) : GrantsExactly l now n := by
  have hneeded := saturatingMul_fpScale_of_le hn
  have hrefused : (l.tryAcquireN now n).1 = false := by
    rw [Bool.eq_false_iff, Ne, granted_iff, hneeded]
    exact Nat.not_le.2 hlt
  refine ⟨?_, ?_, represented_of_not_granted⟩
  · rw [hrefused, le_represented_iff]
    refine iff_of_false Bool.false_ne_true (Nat.not_le.2 (hlt.trans_le ?_))
    rw [← hneeded]
    exact min_le_left _ _
  · rw [hrefused]
    exact fun htrue => absurd htrue Bool.false_ne_true

/-- A full cell grants it. -/
theorem not_grantsExactly (hn : 2 ^ 32 ≤ n) (hfull : (l.refill now).tokensFp = u64Max) : ¬ GrantsExactly l now n := by
  intro h
  have hgranted : (l.tryAcquireN now n).1 = true := by
    rw [granted_iff, saturatingMul_fpScale_of_le hn, hfull]
  have hle := h.granted_iff.1 hgranted
  rw [le_represented_iff, hfull] at hle
  simp only [fpScale, u64Max] at hle
  omega

/-- **When a grant is exact**, whatever calls have been made: exactly when fewer than `2 ^ 32` tokens
are asked for, or the refilled cell is not full. -/
theorem grantsExactly_iff (h : Reached config t l) (now n : ℕ) :
    GrantsExactly l now n ↔ n < 2 ^ 32 ∨ (l.refill now).tokensFp < u64Max := by
  have hle := (h.fits.refill now).tokensFp_le
  constructor
  · intro hexact
    by_contra hneither
    rw [not_or, Nat.not_lt, Nat.not_lt] at hneither
    exact not_grantsExactly hneither.1 (le_antisymm hle hneither.2) hexact
  · rintro (hn | hlt)
    · exact grantsExactly_of_eq (saturatingMul_fpScale hn)
    · rcases Nat.lt_or_ge n (2 ^ 32) with hn | hn
      · exact grantsExactly_of_eq (saturatingMul_fpScale hn)
      · exact grantsExactly_of_lt hn hlt

/-- By default 30 tokens are granted at once, and then 90 are asked for. -/
theorem grantsExactly_iff_default :
    GrantsExactly ((new .default).tryAcquireN 5 30).2 5000000 90 ↔
      90 < 2 ^ 32 ∨ (((new .default).tryAcquireN 5 30).2.refill 5000000).tokensFp < u64Max :=
  grantsExactly_iff (.tryAcquireN .new (Nat.zero_le 5) 30) 5000000 90

/-- A bucket of `2 ^ 32` tokens has room for a little less, and grants them all. -/
theorem not_forall_grantsExactly : ¬ ∀ (config : RateLimiterConfig) (t : ℕ) (l : RateLimiter) (now n : ℕ),
    config.capacity < 2 ^ 64 → config.initialTokens < 2 ^ 64 → n < 2 ^ 64 → Reached config t l → t ≤ now →
      GrantsExactly l now n := by
  intro h
  have hone := (h ⟨2 ^ 32, 1000, 2 ^ 32⟩ 0 _ 0 (2 ^ 32) (by decide) (by decide) (by decide) .new le_rfl).granted_iff
  rw [le_represented_iff] at hone
  exact absurd hone (by decide)

end SensorBridge.Backpressure.RateLimiter
