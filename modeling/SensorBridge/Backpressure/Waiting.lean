import SensorBridge.Foundation.Retry
import SensorBridge.Backpressure.Restart

/-!
# Waiting for a token

`acquire` tries, sleeps for a tenth of a millisecond, and tries again; `acquire_timeout` does so until a
deadline has passed. Every try refills the bucket first, and a refill forgets what the time since
the last one is worth over whole tokens. So a wait ends at the first try for which the time since the
one before it is worth a whole token, however long it has gone on (`acquire_returns_iff`): a limiter
that is polled more often than it earns a token never gives one.

What the clock says at each try is a schedule, a function of the number of the try. Either `acquire`
returns by its second try whatever the schedule, or there is one on which it waits for ever
(`starvable_iff`).

The product of the rate and an interval is exact, and the clock has no largest value.
-/

namespace SensorBridge.Backpressure.Waiting

open Foundation RateLimiter

/-- Trying for a token, try `k` at `poll k`, by the only thread. -/
def wait (giveUp : ℕ → Bool) (poll : ℕ → ℕ) (l : RateLimiter) (fuel : ℕ) : Option (Ended RateLimiter) :=
  Retry.loop giveUp (fun k l => l.tryAcquireN (poll k) 1) fuel 0 l

/-- `RateLimiter::acquire`. -/
def acquire (poll : ℕ → ℕ) : RateLimiter → ℕ → Option (Ended RateLimiter) := wait (fun _ => false) poll

/-- `RateLimiter::acquire_timeout`: before try `k` it looks at the clock, at `look k`. -/
def acquireTimeout (deadline : ℕ) (look poll : ℕ → ℕ) : RateLimiter → ℕ → Option (Ended RateLimiter) :=
  wait (fun k => decide (deadline ≤ look k)) poll

/-- `Duration::from_micros(100)`, in nanoseconds. -/
def sleepNs : ℕ := 100000

/-- There is room for a token, and the time is worth one. -/
def Due (config : RateLimiterConfig) (elapsedNs : ℕ) : Prop := 0 < config.capacity ∧ 1 ≤ worth config elapsedNs

/-- A limiter has a token that a refill leaves in the bucket, or one is due. -/
def Stocked (l : RateLimiter) (elapsedNs : ℕ) : Prop :=
  fpScale ≤ l.tokensFp ∧ (0 < l.config.capacity ∨ worth l.config elapsedNs < 1) ∨ Due l.config elapsedNs

/-- The wait is over at try `k`, if it was not before. -/
def Ready (poll : ℕ → ℕ) (l : RateLimiter) : ℕ → Prop
  | 0 => Stocked l (poll 0 - l.lastUpdateNs)
  | k + 1 => Due l.config (poll (k + 1) - poll k)

variable {l : RateLimiter} {poll look : ℕ → ℕ} {k now deadline : ℕ} {config : RateLimiterConfig}

/-! ### One try -/

/-- Tokens are added to a bucket that has room for one. -/
theorem fpScale_le_addTokens {n current : ℕ} (hn : 1 ≤ n) :
    fpScale ≤ addTokens config n current ↔ 0 < config.capacity := by
  simp only [addTokens, saturatingAdd, saturatingMul, fpScale, u64Max]
  omega

/-- What a refill leaves at least a token of. -/
theorem fpScale_le_credit {d current : ℕ} : fpScale ≤ credit config d current ↔
    fpScale ≤ current ∧ (0 < config.capacity ∨ worth config d < 1) ∨ Due config d := by
  rcases lt_or_ge (worth config d) 1 with hlt | hge
  · rw [credit, if_pos (tokensToAdd_eq_zero_of_lt hlt)]
    simp [Due, hlt]
  · have hadd := one_le_tokensToAdd hge
    rw [credit, if_neg (by omega), fpScale_le_addTokens hadd]
    simp [Due, hge, not_lt.2 hge]

theorem worth_zero (config : RateLimiterConfig) : worth config 0 = 0 := by simp [worth]

/-- A try takes a token from a limiter that is stocked. -/
theorem granted_one_iff (l : RateLimiter) (now : ℕ) :
    (l.tryAcquireN now 1).1 = true ↔ Stocked l (now - l.lastUpdateNs) := by
  rw [granted_iff, saturatingMul_fpScale (by decide), Nat.one_mul]
  rcases Nat.lt_or_ge l.lastUpdateNs now with hlt | hge
  · rw [tokensFp_refill l hlt, fpScale_le_credit]
    rfl
  · rw [tokensFp_refill_of_le l hge, Nat.sub_eq_zero_of_le hge]
    simp [Stocked, Due, worth_zero]

/-- A try that fails leaves less than a token. -/
theorem tokensFp_of_refused (h : (l.tryAcquireN now 1).1 = false) : (l.tryAcquireN now 1).2.tokensFp < fpScale := by
  have hnot : ¬ fpScale ≤ (l.refill now).tokensFp := by
    intro hle
    have hgranted := (granted_iff l now 1).2 (by rwa [saturatingMul_fpScale (by decide), Nat.one_mul])
    rw [h] at hgranted
    cases hgranted
  rw [tokensFp_tryAcquireN, h, if_neg Bool.false_ne_true]
  exact not_le.1 hnot

@[simp] theorem rejectedCount_refill (l : RateLimiter) (now : ℕ) :
    (l.refill now).rejectedCount = l.rejectedCount := by
  unfold refill
  split_ifs <;> rfl

@[simp] theorem acquiredCount_refill (l : RateLimiter) (now : ℕ) :
    (l.refill now).acquiredCount = l.acquiredCount := by
  unfold refill
  split_ifs <;> rfl

/-- A try is counted as what it was. -/
theorem counts_tryAcquireN (l : RateLimiter) (now n : ℕ) :
    (l.tryAcquireN now n).2.rejectedCount = l.rejectedCount + (!(l.tryAcquireN now n).1).toNat ∧
      (l.tryAcquireN now n).2.acquiredCount = l.acquiredCount + (l.tryAcquireN now n).1.toNat := by
  by_cases h : (l.refill now).tokensFp < saturatingMul n fpScale
  · have hrefused : l.tryAcquireN now n =
        (false, { l.refill now with rejectedCount := (l.refill now).rejectedCount + 1 }) := if_pos h
    rw [hrefused, ← rejectedCount_refill l now, ← acquiredCount_refill l now]
    exact ⟨rfl, rfl⟩
  · have hgranted : l.tryAcquireN now n =
        (true, { l.refill now with tokensFp := (l.refill now).tokensFp - saturatingMul n fpScale
                                   acquiredCount := (l.refill now).acquiredCount + 1 }) := if_neg h
    rw [hgranted, ← rejectedCount_refill l now, ← acquiredCount_refill l now]
    exact ⟨rfl, rfl⟩

/-! ### One try after another -/

/-- The limiter before try `k`, when all before it have failed. -/
abbrev before (poll : ℕ → ℕ) (l : RateLimiter) (k : ℕ) : RateLimiter :=
  Retry.before (fun k l => l.tryAcquireN (poll k) 1) l k

/-- Try `k` fails. -/
abbrev Refused (poll : ℕ → ℕ) (l : RateLimiter) (k : ℕ) : Prop :=
  Retry.Fails (fun k l => l.tryAcquireN (poll k) 1) l k

theorem before_succ (poll : ℕ → ℕ) (l : RateLimiter) (k : ℕ) :
    before poll l (k + 1) = ((before poll l k).tryAcquireN (poll k) 1).2 := rfl

@[simp] theorem config_before (poll : ℕ → ℕ) (l : RateLimiter) (k : ℕ) : (before poll l k).config = l.config := by
  induction k with
  | zero => rfl
  | succ k ih => rw [before_succ, config_tryAcquireN, ih]

theorem lastUpdateNs_before_succ (poll : ℕ → ℕ) (l : RateLimiter) (k : ℕ) :
    (before poll l (k + 1)).lastUpdateNs = poll k := lastUpdateNs_tryAcquireN _ _ _

/-- A bucket with less than a token is stocked when one is due. -/
theorem stocked_iff_due {d : ℕ} (h : l.tokensFp < fpScale) : Stocked l d ↔ Due l.config d := by
  rw [Stocked, or_iff_right fun hfull => absurd hfull.1 (not_le.2 h)]

/-- **When a try succeeds**, after others have failed. -/
theorem not_refused_iff (h : ∀ i < k, Refused poll l i) : ¬ Refused poll l k ↔ Ready poll l k := by
  rw [Refused, Retry.Fails, Bool.not_eq_false, granted_one_iff]
  cases k with
  | zero => rfl
  | succ k =>
    have hless : (before poll l (k + 1)).tokensFp < fpScale := tokensFp_of_refused (h k (Nat.lt_succ_self k))
    rw [stocked_iff_due hless, config_before, lastUpdateNs_before_succ]
    rfl

theorem forall_refused_iff (k : ℕ) : (∀ i < k, Refused poll l i) ↔ ∀ i < k, ¬ Ready poll l i := by
  induction k with
  | zero => simp
  | succ k ih =>
    simp only [Nat.lt_succ_iff_lt_or_eq, or_imp, forall_and, forall_eq]
    constructor
    · rintro ⟨hall, hk⟩
      exact ⟨ih.1 hall, fun hready => (not_refused_iff hall).2 hready hk⟩
    · rintro ⟨hall, hk⟩
      exact ⟨ih.2 hall, not_not.1 fun hrefused => hk ((not_refused_iff (ih.2 hall)).1 hrefused)⟩

/-- The tries that failed are counted. -/
theorem counts_before (h : ∀ i < k, Refused poll l i) :
    (before poll l k).rejectedCount = l.rejectedCount + k ∧ (before poll l k).acquiredCount = l.acquiredCount := by
  induction k with
  | zero => exact ⟨rfl, rfl⟩
  | succ k ih =>
    obtain ⟨hrejected, hacquired⟩ := ih fun i hi => h i (Nat.lt_succ_of_lt hi)
    have hrefused : ((before poll l k).tryAcquireN (poll k) 1).1 = false := h k (Nat.lt_succ_self k)
    have hcounts := counts_tryAcquireN (before poll l k) (poll k) 1
    rw [hrefused] at hcounts
    rw [before_succ, hcounts.1, hcounts.2, hrejected, hacquired]
    exact ⟨rfl, rfl⟩

/-- What a try that succeeds leaves, after `k` that failed. -/
structure Taken (poll : ℕ → ℕ) (l : RateLimiter) (k : ℕ) (l' : RateLimiter) : Prop where
  rejected_eq : l'.rejectedCount = l.rejectedCount + k
  acquired_eq : l'.acquiredCount = l.acquiredCount + 1
  lastUpdateNs_eq : l'.lastUpdateNs = poll k
  config_eq : l'.config = l.config

theorem taken_of_not_refused (h : ∀ i < k, Refused poll l i) (hk : ¬ Refused poll l k) :
    Taken poll l k (before poll l (k + 1)) := by
  have hgranted : ((before poll l k).tryAcquireN (poll k) 1).1 = true := eq_true_of_ne_false hk
  obtain ⟨hrejected, hacquired⟩ := counts_before h
  have hcounts := counts_tryAcquireN (before poll l k) (poll k) 1
  rw [hgranted, hrejected, hacquired] at hcounts
  exact ⟨hcounts.1, hcounts.2, lastUpdateNs_before_succ _ _ _, config_before _ _ _⟩

/-! ### Waiting -/

section Wait

variable {giveUp : ℕ → Bool}

theorem succeeded_iff (poll : ℕ → ℕ) (l : RateLimiter) (k : ℕ) :
    (∃ fuel l', wait giveUp poll l fuel = some (.succeeded k l') ∧ Taken poll l k l') ↔
      (∀ i ≤ k, giveUp i = false) ∧ Ready poll l k ∧ ∀ i < k, ¬ Ready poll l i := by
  constructor
  · rintro ⟨fuel, l', hloop, -⟩
    obtain ⟨j, hall, hends⟩ := Retry.exists_loop_iff.1 ⟨fuel, hloop⟩
    cases hends with
    | succeeded hgiveUp hgranted =>
      have hrefused : ∀ i < k, Refused poll l i := fun i hi => (hall i hi).2
      refine ⟨fun i hi => ?_, (not_refused_iff hrefused).1 hgranted, (forall_refused_iff k).1 hrefused⟩
      rcases hi.lt_or_eq with hlt | rfl
      · exact (hall i hlt).1
      · exact hgiveUp
  · rintro ⟨hgiveUp, hready, hnot⟩
    have hrefused := (forall_refused_iff k).2 hnot
    have hgranted := (not_refused_iff hrefused).2 hready
    obtain ⟨fuel, hloop⟩ := Retry.exists_loop_iff.2
      ⟨k, fun i hi => ⟨hgiveUp i hi.le, hrefused i hi⟩, .succeeded (hgiveUp k le_rfl) hgranted⟩
    exact ⟨fuel, _, hloop, taken_of_not_refused hrefused hgranted⟩

theorem gaveUp_iff (poll : ℕ → ℕ) (l : RateLimiter) (k : ℕ) :
    (∃ fuel l', wait giveUp poll l fuel = some (.gaveUp k l') ∧ l'.acquiredCount = l.acquiredCount ∧
        l'.rejectedCount = l.rejectedCount + k) ↔
      giveUp k = true ∧ (∀ i < k, giveUp i = false) ∧ ∀ i < k, ¬ Ready poll l i := by
  constructor
  · rintro ⟨fuel, l', hloop, -⟩
    obtain ⟨j, hall, hends⟩ := Retry.exists_loop_iff.1 ⟨fuel, hloop⟩
    cases hends with
    | gaveUp hgiveUp =>
      exact ⟨hgiveUp, fun i hi => (hall i hi).1, (forall_refused_iff k).1 fun i hi => (hall i hi).2⟩
  · rintro ⟨hgiveUp, hbefore, hnot⟩
    have hrefused := (forall_refused_iff k).2 hnot
    obtain ⟨fuel, hloop⟩ := Retry.exists_loop_iff.2
      ⟨k, fun i hi => ⟨hbefore i hi, hrefused i hi⟩, .gaveUp hgiveUp⟩
    exact ⟨fuel, _, hloop, (counts_before hrefused).2, (counts_before hrefused).1⟩

theorem waits_iff (poll : ℕ → ℕ) (l : RateLimiter) :
    (∀ fuel, wait giveUp poll l fuel = none) ↔ (∀ k, giveUp k = false) ∧ ∀ k, ¬ Ready poll l k := by
  refine Retry.forall_loop_iff.trans ⟨fun h => ⟨fun k => (h k).1, fun k => ?_⟩, fun h k => ⟨h.1 k, ?_⟩⟩
  · exact (forall_refused_iff (k + 1)).1 (fun i _ => (h i).2) k (Nat.lt_succ_self k)
  · exact (forall_refused_iff (k + 1)).2 (fun i _ => h.2 i) k (Nat.lt_succ_self k)

end Wait

/-- **When `acquire_timeout` returns, and what**: true at the first try that is ready, if no look at the clock
up to it is past the deadline; false, and without a token, at the first look that is, if no try before is
ready. It waits for ever on a schedule that has neither. -/
theorem acquireTimeout_returns_iff (deadline : ℕ) (look poll : ℕ → ℕ) (l : RateLimiter) :
    (∀ k, (∃ fuel l', acquireTimeout deadline look poll l fuel = some (.succeeded k l') ∧ Taken poll l k l') ↔
      (∀ i ≤ k, look i < deadline) ∧ Ready poll l k ∧ ∀ i < k, ¬ Ready poll l i) ∧
    (∀ k, (∃ fuel l', acquireTimeout deadline look poll l fuel = some (.gaveUp k l') ∧
        l'.acquiredCount = l.acquiredCount ∧ l'.rejectedCount = l.rejectedCount + k) ↔
      deadline ≤ look k ∧ (∀ i < k, look i < deadline) ∧ ∀ i < k, ¬ Ready poll l i) ∧
    ((∀ fuel, acquireTimeout deadline look poll l fuel = none) ↔
      (∀ k, look k < deadline) ∧ ∀ k, ¬ Ready poll l k) := by
  have hlook : ∀ i, decide (deadline ≤ look i) = false ↔ look i < deadline := fun i => by
    rw [decide_eq_false_iff_not, not_le]
  refine ⟨fun k => (succeeded_iff poll l k).trans ?_, fun k => (gaveUp_iff poll l k).trans ?_,
    (waits_iff poll l).trans ?_⟩
  · simp only [hlook]
  · simp only [hlook, decide_eq_true_eq]
  · simp only [hlook]

/-! ### Starvation -/

/-- A schedule on which `acquire` sleeps between its tries. -/
def Sleeps (poll : ℕ → ℕ) (l : RateLimiter) : Prop :=
  l.lastUpdateNs ≤ poll 0 ∧ ∀ k, poll k + sleepNs ≤ poll (k + 1)

/-- When a limiter can keep `acquire` waiting for ever: it has no token and no room for one, or earns less
than one in a sleep; or it has tokens and no room for them, which the next refill takes away. -/
def Starvable (l : RateLimiter) : Prop :=
  (l.tokensFp < fpScale ∧ (l.config.capacity = 0 ∨ l.config.refillRate < 10000)) ∨
    (fpScale ≤ l.tokensFp ∧ l.config.capacity = 0 ∧ 0 < l.config.refillRate)

theorem worth_mono {d d' : ℕ} (hrate : 0 ≤ config.refillRate) (h : d ≤ d') : worth config d ≤ worth config d' := by
  have hcast : (d : ℚ) ≤ d' := Nat.cast_le.2 h
  unfold worth
  gcongr

/-- What a sleep is worth. -/
theorem one_le_worth_sleepNs : 1 ≤ worth config sleepNs ↔ 10000 ≤ config.refillRate := by
  rw [worth, show ((sleepNs : ℕ) : ℚ) = 100000 by norm_num [sleepNs]]
  constructor
  · intro h
    linarith
  · intro h
    linarith

/-- When a sleep is worth a token, every interval of a schedule is. -/
theorem due_of_sleeps (hcap : 0 < l.config.capacity) (hrate : 10000 ≤ l.config.refillRate) (h : Sleeps poll l) (k : ℕ) :
    Due l.config (poll (k + 1) - poll k) := by
  refine ⟨hcap, (one_le_worth_sleepNs.2 hrate).trans (worth_mono (by linarith) ?_)⟩
  have hsleep := h.2 k
  omega

/-- Tries as soon as the sleep is over. -/
def every (t₀ k : ℕ) : ℕ := t₀ + k * sleepNs

theorem every_zero (t₀ : ℕ) : every t₀ 0 = t₀ := by simp [every]

theorem every_succ (t₀ k : ℕ) : every t₀ (k + 1) = every t₀ k + sleepNs := by
  rw [every, every, Nat.succ_mul, Nat.add_assoc]

theorem sleeps_every {t₀ : ℕ} (h : l.lastUpdateNs ≤ t₀) : Sleeps (every t₀) l :=
  ⟨(every_zero t₀).symm ▸ h, fun k => (every_succ t₀ k).ge⟩

/-- The schedule on which it comes to that. -/
theorem exists_never_ready (h : Starvable l) : ∃ poll, Sleeps poll l ∧ ∀ k, ¬ Ready poll l k := by
  rcases h with ⟨hless, hslow⟩ | ⟨hfull, hcap, hrate⟩
  · refine ⟨every l.lastUpdateNs, sleeps_every le_rfl, fun k => ?_⟩
    cases k with
    | zero =>
      rw [Ready, stocked_iff_due hless, every_zero, Nat.sub_self]
      rintro ⟨-, hworth⟩
      rw [worth_zero] at hworth
      exact absurd hworth (by norm_num)
    | succ k =>
      rw [Ready, every_succ, Nat.add_sub_cancel_left]
      rintro ⟨hcap, hworth⟩
      rcases hslow with hnone | hrate
      · omega
      · exact absurd (one_le_worth_sleepNs.1 hworth) (not_le.2 hrate)
  · -- the first try is late enough for a refill, which takes the tokens away
    obtain ⟨d, -, hd⟩ := exists_worth_lt hrate one_ne_zero
    refine ⟨every (l.lastUpdateNs + (1 + d)), sleeps_every (Nat.le_add_right _ _), fun k => ?_⟩
    have hnot : ∀ d, ¬ Due l.config d := fun d hdue => absurd hdue.1 (by omega)
    cases k with
    | zero =>
      rw [Ready, Stocked, every_zero, Nat.add_sub_cancel_left, not_or]
      refine ⟨?_, hnot _⟩
      rintro ⟨-, hpos | hlt⟩
      · omega
      · exact absurd hd (not_le.2 hlt)
    | succ k => exact hnot _

/-- The second try, where the first has failed. -/
theorem ready_one (h : ¬ Starvable l) (hsleeps : Sleeps poll l) (hzero : ¬ Ready poll l 0) : Ready poll l 1 := by
  rw [Starvable, not_or] at h
  obtain ⟨hempty, hfull⟩ := h
  rcases lt_or_ge l.tokensFp fpScale with hless | hge
  · obtain ⟨hcap, hrate⟩ := not_or.1 fun hslow => hempty ⟨hless, hslow⟩
    exact due_of_sleeps (Nat.pos_of_ne_zero hcap) (not_lt.1 hrate) hsleeps 0
  · -- it has tokens that a refill takes away: there is no room for them
    rw [Ready, Stocked, not_or, not_and_or, not_or, not_lt, not_lt] at hzero
    obtain ⟨hnot | ⟨hcap, hworth⟩, -⟩ := hzero
    · exact absurd hge hnot
    · have hrate : 0 < l.config.refillRate := by
        by_contra hnonpos
        have hle : worth l.config (poll 0 - l.lastUpdateNs) ≤ 0 :=
          mul_nonpos_of_nonpos_of_nonneg (not_lt.1 hnonpos) (by positivity)
        linarith
      exact absurd ⟨hge, Nat.le_zero.1 hcap, hrate⟩ hfull

/-- A limiter that cannot starve `acquire` serves it by its second try. -/
theorem succeeds_of_not_starvable (h : ¬ Starvable l) (hsleeps : Sleeps poll l) :
    ∃ k ≤ 1, ∃ fuel l', acquire poll l fuel = some (.succeeded k l') ∧ Taken poll l k l' := by
  by_cases hzero : Ready poll l 0
  · exact ⟨0, Nat.zero_le 1, (succeeded_iff poll l 0).2 ⟨fun _ _ => rfl, hzero, by simp⟩⟩
  · refine ⟨1, le_rfl, (succeeded_iff poll l 1).2 ⟨fun _ _ => rfl, ready_one h hsleeps hzero, fun i hi => ?_⟩⟩
    rwa [Nat.lt_one_iff.1 hi]

/-- A thousand tokens a second are too few once the bucket is empty. -/
example : Starvable (new (RateLimiterConfig.default.withInitialTokens 0)) :=
  .inl ⟨by decide, .inr (by change (1000 : ℚ) < 10000; norm_num)⟩

end SensorBridge.Backpressure.Waiting
