import SensorBridge.Foundation.TokenBucket
import SensorBridge.Backpressure.RateLimiter

/-!
# The burst bound

A limiter called by one thread, at times that do not go back. In no window of time should it
grant more than its capacity and what the refill rate makes of the window: it should be a
`TokenBucket`.

It fails that twice. `RateLimiter::new` fills the bucket with `initial_tokens`, whatever the
capacity is, and the builder sets either without the other: `RateLimiterConfig::default()` with
a capacity of 10 starts with 100 tokens (`not_forall_bounded`). And `try_acquire_n` multiplies
with saturation: 2³² tokens or more cost all the cell can hold, no more. Calls that do not run
into the second (`Unsaturated`) keep to the bound exactly when the initial tokens fit in the
bucket (`bounded_iff_initialTokens_le`); and when the configuration has fewer than 2³² tokens
no call runs into it (`unsaturated_of_lt`).
-/

namespace SensorBridge.Backpressure

open Foundation

/-- A call to the limiter. -/
inductive RateLimiter.Call where
  | tryAcquireN (n : ℕ)
  | availableTokens

/-- A limiter in use, with what it has granted. -/
structure Limited where
  /-- The limiter. -/
  limiter : RateLimiter
  /-- The time of the last call. -/
  nowNs : ℕ
  /-- The calls of `try_acquire_n` that returned true: when, and for how many tokens. -/
  granted : List (ℕ × ℕ)

namespace Limited

/-- A call, and when it is made. -/
structure Act where
  nowNs : ℕ
  call : RateLimiter.Call

/-- What `try_acquire_n(n)` returned is noted. -/
def record (s : Limited) (nowNs n : ℕ) (r : Bool × RateLimiter) : Limited :=
  ⟨r.2, nowNs, if r.1 then s.granted ++ [(nowNs, n)] else s.granted⟩

/-- A call is made. -/
def apply (s : Limited) (nowNs : ℕ) : RateLimiter.Call → Limited
  | .tryAcquireN n => s.record nowNs n (s.limiter.tryAcquireN nowNs n)
  | .availableTokens => ⟨(s.limiter.availableTokens nowNs).2, nowNs, s.granted⟩

/-- The machine: one call after another, the clock never going back. -/
def machine (config : RateLimiterConfig) : Machine Limited Act where
  init s := s = ⟨.new config, 0, []⟩
  step s a := if s.nowNs ≤ a.nowNs then some (s.apply a.nowNs a.call) else none

/-- **The burst bound**: from time `a` to time `b`, at most the capacity and what the refill
rate makes of the time are granted. -/
def Bounded (config : RateLimiterConfig) (s : Limited) : Prop :=
  ∀ a b : ℕ, a ≤ b →
    ((grantedIn a b s.granted : ℕ) : ℚ) ≤ config.capacity + config.refillRate * ((b - a) / 1000000000)

/-- **What it takes of a call**: not 2³² tokens or more, from a cell that is `u64::MAX`. -/
def Unsaturated (s : Limited) (a : Act) : Prop := match a.call with
  | .tryAcquireN n => n < 2 ^ 32 ∨ (s.limiter.refill a.nowNs).tokensFp < u64Max
  | .availableTokens => True

instance (s : Limited) (a : Act) : Decidable (Unsaturated s a) := by
  unfold Unsaturated
  split <;> infer_instance

variable {config : RateLimiterConfig} {s s' : Limited} {a : Act}

theorem step_of_le (h : s.nowNs ≤ a.nowNs) :
    (machine config).step s a = some (s.apply a.nowNs a.call) := if_pos h

/-- **What a call can do**: grant nothing, or `n` tokens; the bucket is refilled first. -/
theorem step_cases (h : (machine config).step s a = some s') :
    s.nowNs ≤ a.nowNs ∧ s'.nowNs = a.nowNs ∧ s'.limiter.config = s.limiter.config ∧
      s'.limiter.lastUpdateNs = a.nowNs ∧
      (s'.granted = s.granted ∧ s'.limiter.tokensFp = (s.limiter.refill a.nowNs).tokensFp ∨
        ∃ n, a.call = .tryAcquireN n ∧ s'.granted = s.granted ++ [(a.nowNs, n)] ∧
          saturatingMul n RateLimiter.fpScale ≤ (s.limiter.refill a.nowNs).tokensFp ∧
          s'.limiter.tokensFp =
            (s.limiter.refill a.nowNs).tokensFp - saturatingMul n RateLimiter.fpScale) := by
  obtain ⟨hnow, hs⟩ := Option.ite_none_right_eq_some.mp h
  obtain rfl := Option.some.inj hs
  refine ⟨hnow, ?_⟩
  cases hc : a.call with
  | tryAcquireN n =>
    rcases s.limiter.tryAcquireN_cases a.nowNs n with
      ⟨l, hl, hconfig, hlast, -, hfp⟩ | ⟨l, hl, hconfig, hlast, hle, hfp⟩
    · have happly : s.apply a.nowNs (.tryAcquireN n) = ⟨l, a.nowNs, s.granted⟩ :=
        congrArg (s.record a.nowNs n) hl
      rw [happly]
      exact ⟨rfl, hconfig, hlast, .inl ⟨rfl, hfp⟩⟩
    · have happly : s.apply a.nowNs (.tryAcquireN n) = ⟨l, a.nowNs, s.granted ++ [(a.nowNs, n)]⟩ :=
        congrArg (s.record a.nowNs n) hl
      rw [happly]
      exact ⟨rfl, hconfig, hlast, .inr ⟨n, rfl, rfl, hle, hfp⟩⟩
  | availableTokens =>
    exact ⟨rfl, s.limiter.config_refill _, s.limiter.lastUpdateNs_refill _, .inl ⟨rfl, rfl⟩⟩

/-- What the calls leave as it is, when the initial tokens fit in the bucket. -/
structure Sound (config : RateLimiterConfig) (s : Limited) : Prop where
  config_eq : s.limiter.config = config
  lastUpdateNs_eq : s.limiter.lastUpdateNs = s.nowNs
  tokens_le : s.limiter.tokens ≤ config.capacity

theorem Sound.refill_le (hs : Sound config s) (nowNs : ℕ) :
    (s.limiter.refill nowNs).tokens ≤ config.capacity := by
  have hle := RateLimiter.tokens_refill_le (hs.config_eq ▸ hs.tokens_le) nowNs
  rwa [hs.config_eq] at hle

theorem Sound.step (hs : Sound config s) (h : (machine config).step s a = some s') : Sound config s' := by
  obtain ⟨-, hnow, hconfig, hlast, hcase⟩ := step_cases h
  have hfp : s'.limiter.tokensFp ≤ (s.limiter.refill a.nowNs).tokensFp := by
    rcases hcase with ⟨-, hfp⟩ | ⟨n, -, -, -, hfp⟩
    · exact hfp.le
    · exact hfp.trans_le (Nat.sub_le _ _)
  exact ⟨hconfig.trans hs.config_eq, hlast.trans hnow.symm,
    (Nat.div_le_div_right hfp).trans (hs.refill_le a.nowNs)⟩

theorem sound_of_reachBy {C : Limited → Act → Prop}
    (hinit : (RateLimiter.new config).tokens ≤ config.capacity) (h : (machine config).ReachBy C s) :
    Sound config s := by
  refine h.invariant (I := Sound config) ?_ ?_
  · intro s hs
    obtain rfl := hs
    exact ⟨rfl, rfl, hinit⟩
  · intro s a s' hs _ hstep
    exact hs.step hstep

/-! ### The limiter is a token bucket -/

/-- The bucket a limiter is: its whole tokens, and what it has granted. -/
def bucket (s : Limited) : TokenBucket ℚ :=
  ⟨s.nowNs, s.limiter.tokens, s.granted.map (Prod.map Nat.cast Nat.cast)⟩

theorem grantedIn_bucket (a b : ℕ) (l : List (ℕ × ℕ)) :
    grantedIn (a : ℚ) b (l.map (Prod.map Nat.cast Nat.cast)) = ((grantedIn a b l : ℕ) : ℚ) := by
  induction l with
  | nil => rfl
  | cons g l ih =>
    obtain ⟨t, n⟩ := g
    rw [List.map_cons, Prod.map_apply, grantedIn_cons, grantedIn_cons, ih, Nat.cast_add]
    simp only [Nat.cast_le]
    split_ifs <;> simp

/-- The tokens granted are taken out of the bucket. -/
theorem tokens_add {l l' : RateLimiter} {n : ℕ} (hn : n < 2 ^ 32 ∨ l.tokensFp < u64Max)
    (hle : saturatingMul n RateLimiter.fpScale ≤ l.tokensFp)
    (h : l'.tokensFp = l.tokensFp - saturatingMul n RateLimiter.fpScale) : l'.tokens + n = l.tokens := by
  have hlt : n < 2 ^ 32 := by
    by_contra hge
    rw [RateLimiter.saturatingMul_fpScale_of_le (Nat.not_lt.mp hge)] at hle
    rcases hn with hn | hn
    · exact hge hn
    · exact (hn.trans_le hle).false
  rw [RateLimiter.saturatingMul_fpScale hlt] at hle h
  rw [RateLimiter.tokens, RateLimiter.tokens, h, Nat.mul_comm, Nat.sub_mul_div, Nat.sub_add_cancel]
  exact (Nat.le_div_iff_mul_le RateLimiter.fpScale_pos).mpr hle

/-- What a call fills the bucket by. -/
theorem Sound.refill_le_add (hs : Sound config s) (hrate : 0 ≤ config.refillRate) {nowNs : ℕ}
    (hnow : s.nowNs ≤ nowNs) : ((s.limiter.refill nowNs).tokens : ℚ) ≤
      s.limiter.tokens + config.refillRate / 1000000000 * ((nowNs : ℚ) - s.nowNs) := by
  have hle := RateLimiter.tokens_refill (hs.config_eq ▸ hrate) (hs.lastUpdateNs_eq.trans_le hnow)
  rw [hs.config_eq, hs.lastUpdateNs_eq, RateLimiter.worth, Nat.cast_sub hnow] at hle
  rwa [div_mul_eq_mul_div, mul_div_assoc]

/-- **One call is one move of the bucket.** -/
theorem bucket_step (hrate : 0 ≤ config.refillRate) (hs : Sound config s) (hc : Unsaturated s a)
    (h : (machine config).step s a = some s') :
    ∃ m, (TokenBucket.machine (config.capacity : ℚ) (config.refillRate / 1000000000)).step s.bucket m =
      some s'.bucket := by
  obtain ⟨hnow, hnow', -, -, hcase⟩ := step_cases h
  have hfull : ((s.limiter.refill a.nowNs).tokens : ℚ) ≤ config.capacity :=
    Nat.cast_le.mpr (hs.refill_le a.nowNs)
  have hfilled := hs.refill_le_add hrate hnow
  rcases hcase with ⟨hgranted, hfp⟩ | ⟨n, hcall, hgranted, hle, hfp⟩
  · have htokens : (s'.limiter.tokens : ℚ) + 0 = (s.limiter.refill a.nowNs).tokens := by
      rw [add_zero, RateLimiter.tokens, hfp, RateLimiter.tokens]
    refine ⟨⟨a.nowNs, none, s'.limiter.tokens⟩, (TokenBucket.step_of_allowed ?_).trans ?_⟩
    · exact ⟨Nat.cast_le.mpr hnow, Nat.cast_nonneg _, le_rfl, htokens.trans_le hfull,
        htokens.trans_le hfilled⟩
    · simp [TokenBucket.apply, bucket, hgranted, hnow']
  · rw [Unsaturated, hcall] at hc
    have htokens : (s'.limiter.tokens : ℚ) + n = (s.limiter.refill a.nowNs).tokens := by
      rw [← tokens_add hc hle hfp, Nat.cast_add]
    refine ⟨⟨a.nowNs, some n, s'.limiter.tokens⟩, (TokenBucket.step_of_allowed ?_).trans ?_⟩
    · exact ⟨Nat.cast_le.mpr hnow, Nat.cast_nonneg _, Nat.cast_nonneg _, htokens.trans_le hfull,
        htokens.trans_le hfilled⟩
    · simp [TokenBucket.apply, bucket, hgranted, hnow']

/-- **A limiter is a token bucket**, when the initial tokens fit in it and no call saturates. -/
theorem reach_bucket (hrate : 0 ≤ config.refillRate)
    (hinit : (RateLimiter.new config).tokens ≤ config.capacity)
    (h : (machine config).ReachBy Unsaturated s) :
    (TokenBucket.machine (config.capacity : ℚ) (config.refillRate / 1000000000)).Reach s.bucket := by
  refine h.simulate bucket ?_ ?_
  · intro s hs
    obtain rfl := hs
    exact ⟨Nat.cast_nonneg _, Nat.cast_le.mpr hinit, rfl⟩
  · intro s a s' hr hc hstep
    obtain ⟨m, hm⟩ := bucket_step hrate (sound_of_reachBy hinit hr) hc hstep
    exact .inr ⟨m, trivial, hm⟩

theorem bounded_of_bucket
    (h : TokenBucket.Bounded (config.capacity : ℚ) (config.refillRate / 1000000000) s.bucket) :
    Bounded config s := by
  intro a b hab
  have hle := h a b (Nat.cast_le.mpr hab)
  rwa [bucket, grantedIn_bucket, div_mul_eq_mul_div, mul_div_assoc] at hle

/-- The burst bound, when the initial tokens fit in the bucket and no call saturates. -/
theorem bounded_of_tokens_le (hrate : 0 ≤ config.refillRate)
    (hinit : (RateLimiter.new config).tokens ≤ config.capacity)
    (h : (machine config).ReachBy Unsaturated s) : Bounded config s := by
  refine bounded_of_bucket (TokenBucket.bounded_of_reach ?_ (reach_bucket hrate hinit h))
  positivity

/-! ### When the burst bound holds -/

/-- The first call can take all the initial tokens the cell can hold. -/
theorem exists_granted (config : RateLimiterConfig) : ∃ s, (machine config).ReachBy Unsaturated s ∧
    s.granted = [(0, min config.initialTokens (2 ^ 32 - 1))] := by
  have hn : min config.initialTokens (2 ^ 32 - 1) < 2 ^ 32 := by omega
  rcases (RateLimiter.new config).tryAcquireN_cases 0 (min config.initialTokens (2 ^ 32 - 1)) with
    ⟨l, -, -, -, hlt, -⟩ | ⟨l, hl, -⟩
  · rw [RateLimiter.tokensFp_refill_of_le _ (Nat.zero_le _)] at hlt
    exact absurd hlt (RateLimiter.saturatingMul_le_saturatingMul (min_le_left _ _) _).not_gt
  · refine ⟨_, .next (a := ⟨0, .tryAcquireN (min config.initialTokens (2 ^ 32 - 1))⟩) (.start rfl)
      (.inl hn) (step_of_le le_rfl), ?_⟩
    exact congrArg (fun r => (record ⟨.new config, 0, []⟩ 0 _ r).granted) hl

/-- **The burst bound holds exactly when the initial tokens fit in the bucket**, as far as the
cell can hold them, of the runs in which no call saturates. -/
theorem bounded_iff_initialTokens_le (config : RateLimiterConfig) (hrate : 0 ≤ config.refillRate) :
    (∀ s, (machine config).ReachBy Unsaturated s → Bounded config s) ↔
      min config.initialTokens (2 ^ 32 - 1) ≤ config.capacity := by
  rw [← RateLimiter.tokens_new]
  constructor
  · intro h
    obtain ⟨s, hs, hgranted⟩ := exists_granted config
    have hle := h s hs 0 0 le_rfl
    rw [hgranted, grantedIn_cons, if_pos ⟨le_rfl, le_rfl⟩, grantedIn_nil] at hle
    rw [RateLimiter.tokens_new]
    simpa using hle
  · intro hinit s hs
    exact bounded_of_tokens_le hrate hinit hs

theorem bounded_iff_initialTokens_le_default :
    ∃ s, (machine .default).ReachBy Unsaturated s ∧ grantedIn 0 0 s.granted = 100 ∧ Bounded .default s := by
  obtain ⟨s, hs, hgranted⟩ := exists_granted .default
  refine ⟨s, hs, by rw [hgranted]; rfl, ?_⟩
  have hrate : 0 ≤ RateLimiterConfig.default.refillRate := by decide
  exact (bounded_iff_initialTokens_le .default hrate).mpr (by decide) s hs

/-- The default configuration with a capacity of 10 grants 100 tokens at once. -/
theorem not_forall_bounded : ¬ ∀ config : RateLimiterConfig, 0 ≤ config.refillRate →
    ∀ s, (machine config).Reach s → Bounded config s := by
  intro h
  obtain ⟨s, hs, hgranted⟩ := exists_granted (RateLimiterConfig.default.withCapacity 10)
  have hle := h _ (by decide) s hs.reach 0 0 le_rfl
  rw [hgranted, grantedIn_cons, if_pos ⟨le_rfl, le_rfl⟩, grantedIn_nil] at hle
  norm_num [RateLimiterConfig.default, RateLimiterConfig.withCapacity] at hle

/-- With fewer than 2³² tokens configured, no call saturates. -/
theorem unsaturated_of_lt (hcap : config.capacity < 2 ^ 32) (hinit : config.initialTokens < 2 ^ 32)
    (h : (machine config).Reach s) : (machine config).ReachBy Unsaturated s := by
  have hboth : (machine config).ReachBy Unsaturated s ∧
      s.limiter.config = config ∧ s.limiter.tokensFp < u64Max := by
    induction h with
    | start hs =>
      refine ⟨.start hs, ?_⟩
      obtain rfl := hs
      refine ⟨rfl, ?_⟩
      show saturatingMul config.initialTokens RateLimiter.fpScale < u64Max
      rw [RateLimiter.saturatingMul_fpScale hinit, RateLimiter.fpScale, u64Max]
      omega
    | @next s s' a _ _ hstep ih =>
      obtain ⟨hreach, hconfig, hlt⟩ := ih
      obtain ⟨-, -, hconfig', -, hcase⟩ := step_cases hstep
      have hrefill := RateLimiter.tokensFp_refill_lt (hconfig ▸ hcap) hlt a.nowNs
      refine ⟨.next hreach ?_ hstep, hconfig'.trans hconfig, ?_⟩
      · unfold Unsaturated
        split
        · exact .inr hrefill
        · trivial
      · rcases hcase with ⟨-, hfp⟩ | ⟨n, -, -, -, hfp⟩
        · rwa [hfp]
        · exact hfp.trans_lt ((Nat.sub_le _ _).trans_lt hrefill)
  exact hboth.1

end Limited

end SensorBridge.Backpressure
