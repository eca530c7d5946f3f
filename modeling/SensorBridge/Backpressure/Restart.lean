import SensorBridge.Backpressure.Grants
import SensorBridge.Foundation.Replies

/-!
# Resetting a limiter

`reset` stores the initial tokens, and zero for the time of the last refill, as a new limiter has
it. But the clock goes on from the creation: for a limiter created now, zero would be now. So
the first refill after a reset at time `s` is credited with all the time since the creation,
`s` more than it should be (`acquire_reset`).

That shows unless it makes no difference: at time zero, if nothing is ever refilled, and if the
bucket is full anyway, with no more initial tokens than it has room for and no less
(`restored_iff`). Then the first refill leaves it so, and later ones measure from the one before.
-/

namespace SensorBridge.Backpressure.RateLimiter

open Foundation.Replies

/-- A call of `try_acquire_n`: when, and for how many tokens. -/
def acquire (l : RateLimiter) (call : ℕ × ℕ) : RateLimiter × Bool := (l.tryAcquireN call.1 call.2).swap

/-- What `try_acquire_n` returns, at these offsets from time `s`. -/
def results (l : RateLimiter) (s : ℕ) (calls : List (ℕ × ℕ)) : List Bool :=
  replies acquire l (calls.map fun call => (s + call.1, call.2))

/-- **The initial state is restored**: reset at time `s`, the limiter answers calls at any later times
as one that was created then. -/
def Restored (config : RateLimiterConfig) (l : RateLimiter) (s : ℕ) : Prop :=
  ∀ calls : List (ℕ × ℕ), calls.Pairwise (fun c d => c.1 ≤ d.1) → (∀ call ∈ calls, call.2 < 2 ^ 64) →
    results l.reset s calls = results (new config) 0 calls

variable {config : RateLimiterConfig} {l l' : RateLimiter} {s : ℕ}

/-! ### After the first refill -/

/-- Two limiters with the same tokens that were last refilled `s` apart. -/
structure Shifted (s : ℕ) (l l' : RateLimiter) : Prop where
  config_eq : l.config = l'.config
  tokensFp_eq : l.tokensFp = l'.tokensFp
  lastUpdateNs_eq : l.lastUpdateNs = s + l'.lastUpdateNs

theorem acquire_of_eq {d n : ℕ} {b : Bool} {m : RateLimiter} (h : l.tryAcquireN d n = (b, m)) :
    l.acquire (d, n) = (m, b) := congrArg Prod.swap h

theorem fst_acquire (l : RateLimiter) (d n : ℕ) : (l.acquire (d, n)).1 = (l.tryAcquireN d n).2 := by
  rcases hl : l.tryAcquireN d n with ⟨b, m⟩
  rw [acquire_of_eq hl]

theorem snd_acquire (l : RateLimiter) (d n : ℕ) : (l.acquire (d, n)).2 = (l.tryAcquireN d n).1 := by
  rcases hl : l.tryAcquireN d n with ⟨b, m⟩
  rw [acquire_of_eq hl]

theorem results_singleton (l : RateLimiter) (s d n : ℕ) :
    results l s [(d, n)] = [(l.tryAcquireN (s + d) n).1] := by
  rw [results, List.map_singleton, replies_cons, replies_nil, snd_acquire]

/-- A call that refills both alike answers alike. -/
theorem acquire_of_refill {d n : ℕ} (hconfig : l.config = l'.config)
    (hfp : (l.refill (s + d)).tokensFp = (l'.refill d).tokensFp) :
    (l.acquire (s + d, n)).2 = (l'.acquire (d, n)).2 ∧ Shifted s (l.acquire (s + d, n)).1 (l'.acquire (d, n)).1 := by
  have hgranted : (l.tryAcquireN (s + d) n).1 = (l'.tryAcquireN d n).1 := by
    rw [Bool.eq_iff_iff, granted_iff, granted_iff, hfp]
  rw [snd_acquire, snd_acquire, fst_acquire, fst_acquire]
  refine ⟨hgranted, ?_, ?_, ?_⟩
  · rw [config_tryAcquireN, config_tryAcquireN, hconfig]
  · rw [tokensFp_tryAcquireN, tokensFp_tryAcquireN, hgranted, hfp]
  · rw [lastUpdateNs_tryAcquireN, lastUpdateNs_tryAcquireN]

/-- Limiters that are shifted are refilled alike. -/
theorem Shifted.refill (h : Shifted s l l') (d : ℕ) : (l.refill (s + d)).tokensFp = (l'.refill d).tokensFp := by
  have hlast := h.lastUpdateNs_eq
  rcases Nat.lt_or_ge l'.lastUpdateNs d with hlt | hge
  · have helapsed : s + d - l.lastUpdateNs = d - l'.lastUpdateNs := by omega
    rw [tokensFp_refill l (by omega), tokensFp_refill l' hlt, h.config_eq, h.tokensFp_eq, helapsed]
  · rw [tokensFp_refill_of_le l (by omega), tokensFp_refill_of_le l' hge, h.tokensFp_eq]

theorem Shifted.results_eq (h : Shifted s l l') (calls : List (ℕ × ℕ)) :
    results l s calls = results l' 0 calls := by
  induction calls generalizing l l' with
  | nil => rfl
  | cons call calls ih =>
    obtain ⟨houtput, hnext⟩ := acquire_of_refill (n := call.2) h.config_eq (h.refill call.1)
    simp only [results, List.map_cons, replies_cons, Nat.zero_add] at ih ⊢
    rw [houtput, ih hnext]

/-- It is enough that the first call refills both alike. -/
theorem results_eq_of_refill (hconfig : l.config = l'.config)
    (hfp : ∀ d, (l.refill (s + d)).tokensFp = (l'.refill d).tokensFp) (calls : List (ℕ × ℕ)) :
    results l s calls = results l' 0 calls := by
  cases calls with
  | nil => rfl
  | cons call calls =>
    obtain ⟨houtput, hnext⟩ := acquire_of_refill (n := call.2) hconfig (hfp call.1)
    have hrest := hnext.results_eq calls
    simp only [results, List.map_cons, replies_cons, Nat.zero_add] at hrest ⊢
    rw [houtput, hrest]

/-! ### The first refill -/

theorem tokensToAdd_eq_zero_of_lt {elapsed : ℕ} (h : worth config elapsed < 1) : tokensToAdd config elapsed = 0 :=
  Nat.le_zero.1 ((toU64_le_floor _).trans (Nat.floor_eq_zero.2 h).le)

theorem one_le_tokensToAdd {elapsed : ℕ} (h : 1 ≤ worth config elapsed) : 1 ≤ tokensToAdd config elapsed :=
  le_min (Nat.le_floor (by exact_mod_cast h)) (by decide)

/-- A new limiter is credited with all the time since its creation. -/
theorem tokensFp_refill_new (config : RateLimiterConfig) (now : ℕ) :
    ((new config).refill now).tokensFp = credit config now (saturatingMul config.initialTokens fpScale) := by
  rcases Nat.eq_zero_or_pos now with rfl | hpos
  · have hnone : tokensToAdd config 0 = 0 := tokensToAdd_eq_zero_of_lt (by simp [worth])
    rw [tokensFp_refill_of_le _ (Nat.zero_le _), credit, if_pos hnone, tokensFp_new]
  · exact tokensFp_refill (new config) hpos

/-- Nothing is refilled without a rate. -/
theorem credit_of_rate_nonpos (h : config.refillRate ≤ 0) (elapsed current : ℕ) :
    credit config elapsed current = current := by
  have hworth : worth config elapsed ≤ 0 := mul_nonpos_of_nonpos_of_nonneg h (by positivity)
  rw [credit, if_pos (tokensToAdd_eq_zero_of_lt (hworth.trans_lt one_pos))]

/-- A bucket that is full stays full. -/
theorem credit_of_full {current : ℕ} (h : current = saturatingMul config.capacity fpScale) (elapsed : ℕ) :
    credit config elapsed current = current := by
  have hle : current ≤ u64Max := h.trans_le (saturatingMul_le _ _)
  unfold credit
  split_ifs
  · rfl
  · rw [addTokens, ← h]
    exact min_eq_right (le_min (Nat.le_add_right _ _) hle)

/-- Between two times `s` apart, the time since the creation comes to be worth a token. -/
theorem exists_worth_lt (hrate : 0 < config.refillRate) (hs : s ≠ 0) :
    ∃ d, worth config d < 1 ∧ 1 ≤ worth config (s + d) := by
  have hpos : 0 < 1000000000 / config.refillRate := by positivity
  obtain ⟨d, hd⟩ := Nat.exists_eq_succ_of_ne_zero (Nat.ceil_pos.2 hpos).ne'
  refine ⟨d, ?_, ?_⟩
  · have hlt : (d : ℚ) < 1000000000 / config.refillRate := Nat.lt_ceil.1 (hd ▸ Nat.lt_succ_self d)
    rw [lt_div_iff₀ hrate] at hlt
    rw [worth, mul_div_assoc', div_lt_one (by norm_num)]
    linarith
  · have hle : 1000000000 / config.refillRate ≤ ((s + d : ℕ) : ℚ) :=
      (Nat.le_ceil _).trans (Nat.cast_le.2 (by omega))
    rw [div_le_iff₀ hrate] at hle
    rw [worth, mul_div_assoc', one_le_div (by norm_num)]
    linarith

/-- Tokens are added to a bucket that is not full, or taken from one that has too many: a call tells
the difference. -/
theorem exists_between (hne : saturatingMul config.initialTokens fpScale ≠ saturatingMul config.capacity fpScale)
    {tokens : ℕ} (htokens : 1 ≤ tokens) :
    ∃ n < 2 ^ 64,
      ¬ (saturatingMul n fpScale ≤ addTokens config tokens (saturatingMul config.initialTokens fpScale) ↔
        saturatingMul n fpScale ≤ saturatingMul config.initialTokens fpScale) := by
  refine ⟨min config.initialTokens config.capacity + 1, ?_, ?_⟩
  · simp only [saturatingMul, fpScale, u64Max] at hne
    omega
  · simp only [addTokens, saturatingAdd, saturatingMul, fpScale, u64Max] at hne ⊢
    omega

/-- **When `reset` restores the initial state**, whatever calls were made before: exactly at time zero,
if nothing is ever refilled, or if the initial tokens fill the bucket. -/
theorem restored_iff {t : ℕ} (h : Reached config t l) (s : ℕ) :
    Restored config l s ↔ s = 0 ∨ config.refillRate ≤ 0 ∨
      saturatingMul config.initialTokens fpScale = saturatingMul config.capacity fpScale := by
  have hreset : l.reset = new config := by rw [reset_eq, h.fits.config_eq]
  rw [Restored, hreset]
  constructor
  · intro hrestored
    by_contra hnone
    simp only [not_or, not_le] at hnone
    obtain ⟨hs, hrate, hne⟩ := hnone
    obtain ⟨d, hlt, hle⟩ := exists_worth_lt hrate hs
    have htokens := one_le_tokensToAdd hle
    obtain ⟨n, hn, hdiffer⟩ := exists_between hne htokens
    have hone := hrestored [(d, n)] (List.pairwise_singleton _ _) (by simpa using hn)
    have hgranted : ((new config).tryAcquireN (s + d) n).1 = ((new config).tryAcquireN d n).1 := by
      rw [results_singleton, results_singleton, Nat.zero_add] at hone
      exact List.singleton_inj.1 hone
    refine hdiffer ?_
    rw [Bool.eq_iff_iff, granted_iff, granted_iff, tokensFp_refill_new, tokensFp_refill_new, credit, credit,
      if_neg (by omega), if_pos (tokensToAdd_eq_zero_of_lt hlt)] at hgranted
    exact hgranted
  · intro hcases calls _ _
    refine results_eq_of_refill rfl (fun d => ?_) calls
    rw [tokensFp_refill_new, tokensFp_refill_new]
    rcases hcases with rfl | hrate | hfull
    · rw [Nat.zero_add]
    · rw [credit_of_rate_nonpos hrate, credit_of_rate_nonpos hrate]
    · rw [credit_of_full hfull, credit_of_full hfull]

/-- By default the bucket is full at first. -/
theorem restored_iff_default :
    Restored .default ((new .default).tryAcquireN 5 30).2 7 ↔ 7 = 0 ∨ RateLimiterConfig.default.refillRate ≤ 0 ∨
      saturatingMul RateLimiterConfig.default.initialTokens fpScale =
        saturatingMul RateLimiterConfig.default.capacity fpScale :=
  restored_iff (.tryAcquireN .new (Nat.zero_le 5) 30) 7

/-- Without initial tokens, and reset after a second, it grants one at once. -/
theorem not_forall_restored : ¬ ∀ (config : RateLimiterConfig) (l : RateLimiter) (t s : ℕ), Reached config t l →
    t ≤ s → Restored config l s := by
  intro h
  have hone := h (RateLimiterConfig.default.withInitialTokens 0) _ 5 1000000000
    (.tryAcquireN .new (Nat.zero_le 5) 1) (by decide) [(0, 1)] (by simp) (by simp)
  revert hone
  decide +kernel

end SensorBridge.Backpressure.RateLimiter
