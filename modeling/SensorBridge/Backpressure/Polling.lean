import SensorBridge.Backpressure.RateLimiter
import Mathlib.Algebra.BigOperators.Group.List.Basic

/-!
# Polling a limiter

How often a limiter is refilled should not matter. It does: every refill takes the time since
the last one, makes whole tokens of it, and forgets the rest (`lost`). What a limiter polled
at the times `ts` has added is, up to the capacity, the whole tokens of each interval
(`tokensFp_refills`). It is what the time is worth, up to one token, exactly when what is
forgotten over all the intervals is less than a token (`pollFree_iff`).

When every interval is worth less than a token nothing is ever added (`tokensFp_refills_of_lt`):
`acquire` polls ten times a millisecond and, at 1000 tokens a second, waits for ever.
-/

namespace SensorBridge.Backpressure.RateLimiter

/-! ### Many refills -/

/-- Refilling at one time after another. -/
def refills (l : RateLimiter) (ts : List ℕ) : RateLimiter := ts.foldl refill l

/-- How long it is from `t₀` to the first time, and from each to the next. -/
def intervals : ℕ → List ℕ → List ℕ
  | _, [] => []
  | t₀, t :: ts => (t - t₀) :: intervals t ts

/-- No refill fills the bucket. -/
def NeverFull : RateLimiter → List ℕ → Prop
  | _, [] => True
  | l, t :: ts => (l.refill t).tokensFp < l.config.capacity * fpScale ∧ NeverFull (l.refill t) ts

instance decidableNeverFull : (l : RateLimiter) → (ts : List ℕ) → Decidable (NeverFull l ts)
  | _, [] => instDecidableTrue
  | l, t :: ts => @instDecidableAnd _ _ _ (decidableNeverFull (l.refill t) ts)

/-- What a refill forgets of the time since the last, in tokens. -/
def lost (config : RateLimiterConfig) (elapsedNs : ℕ) : ℚ :=
  worth config elapsedNs - ⌊worth config elapsedNs⌋₊

/-- The tokens one limiter has more than another. -/
def added (l l' : RateLimiter) : ℚ := ((l'.tokensFp : ℚ) - l.tokensFp) / fpScale

/-- **Polling does not matter**: refilling at `ts` adds what the time is worth, and what one
refill at the last of them adds, up to a token. -/
def PollFree (l : RateLimiter) (ts : List ℕ) : Prop :=
  |added l (refills l ts) - worth l.config (ts.getLastD l.lastUpdateNs - l.lastUpdateNs)| < 1 ∧
    |added l (refills l ts) - added l (l.refill (ts.getLastD l.lastUpdateNs))| ≤ 1

/-- The whole tokens of each interval. -/
def wholeTokens (l : RateLimiter) (ts : List ℕ) : ℕ :=
  ((intervals l.lastUpdateNs ts).map fun d => ⌊worth l.config d⌋₊).sum

/-- What is forgotten over all the intervals. -/
def lostTokens (l : RateLimiter) (ts : List ℕ) : ℚ :=
  ((intervals l.lastUpdateNs ts).map (lost l.config)).sum

/-- What the cell has no room for: it ends at `u64::MAX`. -/
def overflow (l : RateLimiter) (ts : List ℕ) : ℚ :=
  ((l.tokensFp + l.wholeTokens ts * fpScale - u64Max : ℕ) : ℚ) / fpScale

variable {l : RateLimiter} {ts : List ℕ} {t t₀ d : ℕ} {config : RateLimiterConfig}

theorem tokensToAdd_eq_zero : tokensToAdd config d = 0 ↔ ⌊worth config d⌋₊ = 0 := by
  simp only [tokensToAdd, toU64, u64Max]
  omega

/-- A refill that does not fill the bucket adds the whole tokens, as far as the cell can hold
them. -/
theorem credit_of_lt {current : ℕ} (hcur : current ≤ u64Max)
    (hlt : credit config d current < config.capacity * fpScale) :
    credit config d current = min (current + ⌊worth config d⌋₊ * fpScale) u64Max := by
  unfold credit at hlt ⊢
  split_ifs at hlt ⊢ with h
  · rw [tokensToAdd_eq_zero.mp h]
    omega
  · simp only [addTokens, saturatingAdd, saturatingMul, tokensToAdd, toU64, fpScale, u64Max] at hlt hcur ⊢
    omega

/-- A refill adds no more than the whole tokens. -/
theorem credit_le {current : ℕ} (hcur : current ≤ u64Max) :
    credit config d current ≤ min (current + ⌊worth config d⌋₊ * fpScale) u64Max := by
  unfold credit
  split_ifs with h
  · rw [tokensToAdd_eq_zero.mp h]
    omega
  · simp only [addTokens, saturatingAdd, saturatingMul, tokensToAdd, toU64, fpScale, u64Max]
    omega

/-- It adds no less than fewer tokens would, as long as those do not fill the bucket. -/
theorem le_credit {current n : ℕ} (hcur : current ≤ u64Max) (hn : n ≤ ⌊worth config d⌋₊)
    (hlt : min (current + n * fpScale) u64Max < config.capacity * fpScale) :
    min (current + n * fpScale) u64Max ≤ credit config d current := by
  unfold credit
  split_ifs with h
  · rw [tokensToAdd_eq_zero] at h
    obtain rfl := Nat.le_zero.mp (hn.trans_eq h)
    omega
  · simp only [addTokens, saturatingAdd, saturatingMul, tokensToAdd, toU64, fpScale, u64Max] at hlt hcur ⊢
    omega

theorem wholeTokens_cons : l.wholeTokens (t :: ts) =
    ⌊worth l.config (t - l.lastUpdateNs)⌋₊ + (l.refill t).wholeTokens ts := by
  simp only [wholeTokens, intervals, List.map_cons, List.sum_cons, lastUpdateNs_refill, config_refill]

/-- A sum that stops at `m` on the way stops at `m`. -/
theorem min_add_min (a b m : ℕ) : min (min a m + b) m = min (a + b) m := by omega

/-- **What the refills add**: the whole tokens of each interval. -/
theorem tokensFp_refills (hfp : l.tokensFp ≤ u64Max) (hts : (l.lastUpdateNs :: ts).IsChain (· < ·))
    (hfull : NeverFull l ts) :
    (refills l ts).tokensFp = min (l.tokensFp + l.wholeTokens ts * fpScale) u64Max := by
  induction ts generalizing l with
  | nil =>
    simp only [refills, List.foldl_nil, wholeTokens, intervals, List.map_nil, List.sum_nil]
    omega
  | cons t ts ih =>
    obtain ⟨hlt, hts⟩ := List.isChain_cons_cons.mp hts
    obtain ⟨hcap, hfull⟩ := hfull
    rw [tokensFp_refill l hlt] at hcap
    have hone : (l.refill t).tokensFp =
        min (l.tokensFp + ⌊worth l.config (t - l.lastUpdateNs)⌋₊ * fpScale) u64Max := by
      rw [tokensFp_refill l hlt, credit_of_lt hfp hcap]
    have hrest := ih (hone.trans_le (min_le_right _ _)) (by rwa [lastUpdateNs_refill]) hfull
    rw [wholeTokens_cons, show refills l (t :: ts) = refills (l.refill t) ts from rfl, hrest, hone,
      min_add_min, Nat.add_mul, Nat.add_assoc]

/-! ### When polling does not matter -/

/-- The last of increasing times. -/
theorem le_getLastD (hts : (t :: ts).IsChain (· < ·)) : t ≤ ts.getLastD t := by
  induction ts generalizing t with
  | nil => exact le_rfl
  | cons u ts ih =>
    obtain ⟨hlt, hts⟩ := List.isChain_cons_cons.mp hts
    rw [List.getLastD_cons]
    exact hlt.le.trans (ih hts)

theorem worth_add {u : ℕ} (ht : t₀ ≤ t) (hu : t ≤ u) :
    worth config (t - t₀) + worth config (u - t) = worth config (u - t₀) := by
  rw [worth, worth, worth, Nat.cast_sub ht, Nat.cast_sub hu, Nat.cast_sub (ht.trans hu)]
  ring

/-- The intervals are worth what the whole time is worth. -/
theorem sum_worth_intervals (hts : (t₀ :: ts).IsChain (· < ·)) :
    ((intervals t₀ ts).map (worth config)).sum = worth config (ts.getLastD t₀ - t₀) := by
  induction ts generalizing t₀ with
  | nil => simp [intervals, worth]
  | cons t ts ih =>
    obtain ⟨hlt, hts⟩ := List.isChain_cons_cons.mp hts
    rw [intervals, List.map_cons, List.sum_cons, ih hts, worth_add hlt.le (le_getLastD hts),
      List.getLastD_cons]

/-- What is not forgotten is added. -/
theorem lostTokens_eq (hts : (l.lastUpdateNs :: ts).IsChain (· < ·)) :
    l.lostTokens ts = worth l.config (ts.getLastD l.lastUpdateNs - l.lastUpdateNs) - l.wholeTokens ts := by
  rw [← sum_worth_intervals hts, lostTokens, wholeTokens]
  generalize intervals l.lastUpdateNs ts = ds
  induction ds with
  | nil => simp
  | cons d ds ih =>
    simp only [List.map_cons, List.sum_cons, Nat.cast_add, ih, lost]
    ring

/-- What the refills add falls short of what the time is worth by what is forgotten and what
the cell has no room for. -/
theorem added_refills (hfp : l.tokensFp ≤ u64Max) (hts : (l.lastUpdateNs :: ts).IsChain (· < ·))
    (hfull : NeverFull l ts) :
    added l (refills l ts) = worth l.config (ts.getLastD l.lastUpdateNs - l.lastUpdateNs) -
      (l.lostTokens ts + l.overflow ts) := by
  have hmin : ∀ n m : ℕ, ((min n m : ℕ) : ℚ) = n - ((n - m : ℕ) : ℚ) := by
    intro n m
    rw [eq_sub_iff_add_eq, ← Nat.cast_add]
    congr 1
    omega
  have hscale : (fpScale : ℚ) ≠ 0 := Nat.cast_ne_zero.mpr fpScale_pos.ne'
  rw [added, tokensFp_refills hfp hts hfull, hmin, lostTokens_eq hts, overflow, Nat.cast_add, Nat.cast_mul]
  field_simp
  ring

/-- Whole tokens are no more than the worth, or none. -/
theorem floor_worth_le (config : RateLimiterConfig) (d : ℕ) :
    (⌊worth config d⌋₊ : ℚ) ≤ max (worth config d) 0 := by
  rcases le_total 0 (worth config d) with h | h
  · exact (Nat.floor_le h).trans (le_max_left _ _)
  · rw [Nat.floor_of_nonpos h, Nat.cast_zero]
    exact le_max_right _ _

/-- The whole tokens of the intervals are no more than those of the whole time. -/
theorem wholeTokens_le (hts : (l.lastUpdateNs :: ts).IsChain (· < ·)) :
    l.wholeTokens ts ≤ ⌊worth l.config (ts.getLastD l.lastUpdateNs - l.lastUpdateNs)⌋₊ := by
  rcases le_total 0 l.config.refillRate with hrate | hrate
  · refine Nat.le_floor ?_
    rw [← sum_worth_intervals hts, wholeTokens]
    generalize intervals l.lastUpdateNs ts = ds
    induction ds with
    | nil => simp
    | cons d ds ih =>
      rw [List.map_cons, List.map_cons, List.sum_cons, List.sum_cons, Nat.cast_add]
      exact add_le_add (Nat.floor_le (worth_nonneg hrate d)) ih
  · have hnone : ∀ d, ⌊worth l.config d⌋₊ = 0 := by
      intro d
      exact Nat.floor_of_nonpos (mul_nonpos_of_nonpos_of_nonneg hrate (by positivity))
    simp [wholeTokens, hnone]

/-- The last refill does not fill the bucket. -/
theorem NeverFull.refills_lt (hfull : NeverFull l (t :: ts)) :
    (refills l (t :: ts)).tokensFp < l.config.capacity * fpScale := by
  induction ts generalizing l t with
  | nil => exact hfull.1
  | cons u ts ih =>
    have hlast := ih hfull.2
    rwa [config_refill] at hlast

/-- One refill at the last time adds no less than the refills do. -/
theorem tokensFp_refills_le (hfp : l.tokensFp ≤ u64Max) (hts : (l.lastUpdateNs :: ts).IsChain (· < ·))
    (hfull : NeverFull l ts) :
    (refills l ts).tokensFp ≤ (l.refill (ts.getLastD l.lastUpdateNs)).tokensFp := by
  cases ts with
  | nil => exact (tokensFp_refill_of_le l le_rfl).ge
  | cons t ts =>
    have hlast : l.lastUpdateNs < (t :: ts).getLastD l.lastUpdateNs := by
      obtain ⟨hlt, hts⟩ := List.isChain_cons_cons.mp hts
      rw [List.getLastD_cons]
      exact hlt.trans_le (le_getLastD hts)
    have hrefills := tokensFp_refills hfp hts hfull
    have hcap := hfull.refills_lt
    rw [hrefills] at hcap ⊢
    rw [tokensFp_refill l hlast]
    exact le_credit hfp (wholeTokens_le hts) hcap

/-- One refill adds no more than the time is worth. -/
theorem added_refill_le (hfp : l.tokensFp ≤ u64Max) (now : ℕ) :
    added l (l.refill now) ≤ max (worth l.config (now - l.lastUpdateNs)) 0 := by
  have hscale : (0 : ℚ) < fpScale := Nat.cast_pos.mpr fpScale_pos
  rw [added, div_le_iff₀ hscale, sub_le_iff_le_add']
  rcases Nat.lt_or_ge l.lastUpdateNs now with hlt | hge
  · have hle : (l.refill now).tokensFp ≤
        l.tokensFp + ⌊worth l.config (now - l.lastUpdateNs)⌋₊ * fpScale := by
      rw [tokensFp_refill l hlt]
      exact (credit_le hfp).trans (min_le_left _ _)
    calc ((l.refill now).tokensFp : ℚ)
        ≤ l.tokensFp + ⌊worth l.config (now - l.lastUpdateNs)⌋₊ * fpScale := by exact_mod_cast hle
      _ ≤ l.tokensFp + max (worth l.config (now - l.lastUpdateNs)) 0 * fpScale :=
        add_le_add_right (mul_le_mul_of_nonneg_right (floor_worth_le _ _) hscale.le) _
  · rw [tokensFp_refill_of_le l hge]
    exact le_add_of_nonneg_right (mul_nonneg (le_max_right _ _) hscale.le)

/-- **Polling does not matter exactly when less than one token is lost**: what the intervals
are worth over their whole tokens, and what the cell has no room for. -/
theorem pollFree_iff (l : RateLimiter) (ts : List ℕ) (hfp : l.tokensFp ≤ u64Max)
    (hts : (l.lastUpdateNs :: ts).IsChain (· < ·)) (hfull : NeverFull l ts) :
    PollFree l ts ↔ |l.lostTokens ts + l.overflow ts| < 1 := by
  have hadded := added_refills hfp hts hfull
  have hdiff : added l (refills l ts) - worth l.config (ts.getLastD l.lastUpdateNs - l.lastUpdateNs) =
      -(l.lostTokens ts + l.overflow ts) := by
    rw [hadded]
    ring
  rw [PollFree, hdiff, abs_neg, and_iff_left_iff_imp]
  intro hlost
  obtain ⟨hlower, hupper⟩ := abs_lt.mp hlost
  have hle : added l (refills l ts) ≤ added l (l.refill (ts.getLastD l.lastUpdateNs)) :=
    div_le_div_of_nonneg_right (sub_le_sub_right (Nat.cast_le.mpr (tokensFp_refills_le hfp hts hfull)) _)
      (Nat.cast_nonneg _)
  have hnonneg : 0 ≤ added l (refills l ts) := by
    have hge : l.tokensFp ≤ (refills l ts).tokensFp := by
      rw [tokensFp_refills hfp hts hfull]
      exact le_min (Nat.le_add_right _ _) hfp
    exact div_nonneg (sub_nonneg.mpr (Nat.cast_le.mpr hge)) (Nat.cast_nonneg _)
  have hone := added_refill_le hfp (ts.getLastD l.lastUpdateNs)
  rw [abs_le]
  constructor
  · rcases max_choice (worth l.config (ts.getLastD l.lastUpdateNs - l.lastUpdateNs)) 0 with hmax | hmax
    · rw [hmax] at hone
      linarith
    · rw [hmax] at hone
      linarith
  · linarith

/-! ### A limiter that is polled too often -/

/-- When every interval is worth less than a token, nothing is added. -/
theorem tokensFp_refills_of_lt (hts : (l.lastUpdateNs :: ts).IsChain (· < ·))
    (hlt : ∀ d ∈ intervals l.lastUpdateNs ts, worth l.config d < 1) :
    (refills l ts).tokensFp = l.tokensFp := by
  induction ts generalizing l with
  | nil => rfl
  | cons t ts ih =>
    obtain ⟨hlast, hts⟩ := List.isChain_cons_cons.mp hts
    have hnone : ⌊worth l.config (t - l.lastUpdateNs)⌋₊ = 0 :=
      Nat.floor_eq_zero.mpr (hlt _ List.mem_cons_self)
    have hone : (l.refill t).tokensFp = l.tokensFp := by
      rw [tokensFp_refill l hlast, credit, if_pos (tokensToAdd_eq_zero.mpr hnone)]
    have hrest := ih (l := l.refill t) (by rwa [lastUpdateNs_refill]) (by
      rw [lastUpdateNs_refill, config_refill]
      exact fun d hd => hlt d (List.mem_cons_of_mem _ hd))
    exact hrest.trans hone

/-- A limiter that starts empty. -/
def drained : RateLimiter := new (RateLimiterConfig.default.withInitialTokens 0)

/-- Every millisecond a token, at 1000 tokens a second. -/
theorem pollFree_iff_drained : PollFree drained [1000000, 2000000] :=
  (pollFree_iff drained [1000000, 2000000] (by decide) (by decide) (by decide +kernel)).mpr
    (by decide +kernel)

/-- Every tenth of a millisecond, for a millisecond. -/
def pollTimes : List ℕ := (List.range 10).map fun i => (i + 1) * 100000

/-- Polled as `acquire` does, at 1000 tokens a second, it has no token after a millisecond. -/
theorem not_forall_pollFree : ¬ ∀ (l : RateLimiter) (ts : List ℕ), l.tokensFp ≤ u64Max →
    (l.lastUpdateNs :: ts).IsChain (· < ·) → NeverFull l ts → PollFree l ts := by
  intro h
  have hchain : (drained.lastUpdateNs :: pollTimes).IsChain (· < ·) := by decide
  obtain ⟨hclose, -⟩ := h drained pollTimes (by decide) hchain (by decide +kernel)
  have hnone : (refills drained pollTimes).tokensFp = drained.tokensFp :=
    tokensFp_refills_of_lt hchain (by decide +kernel)
  have hworth : worth drained.config (pollTimes.getLastD drained.lastUpdateNs - drained.lastUpdateNs) = 1 := by
    decide +kernel
  rw [added, hnone, hworth, sub_self, zero_div, zero_sub, abs_neg, abs_one] at hclose
  exact lt_irrefl _ hclose

end SensorBridge.Backpressure.RateLimiter
