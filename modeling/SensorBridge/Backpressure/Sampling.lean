import SensorBridge.Backpressure.Controller
import SensorBridge.Foundation.Replies
import Mathlib.Data.Bool.Count
import Mathlib.Data.Nat.ModEq

/-!
# Exact sampling

At a quality level below the full one, `should_accept` accepts when a counter of its calls is a
multiple of the level's sample rate. The counter is not set back when the level changes, and
wraps at 64 bits. Neither matters to how many calls are accepted: every rate divides `2 ^ 64`,
so that the remainder goes round by one with every call (`sample_spec`), and among as many
calls in a row as the rate it is zero exactly once, from wherever it starts.

So of `k * r` calls at rate `r`, exactly `k` are accepted (`accepts_exactly`), as long as none
of them moves the level: with utilizations between the water marks.
-/

namespace SensorBridge.Backpressure.AdaptiveController

open Foundation.Replies

universe u

variable {F : Type u}

/-- Every sample rate divides what the counter wraps at. -/
theorem sampleRate_dvd (l : QualityLevel) : l.sampleRate ∣ 2 ^ 64 := by cases l <;> decide

theorem sampleRate_pos (l : QualityLevel) : 0 < l.sampleRate := by cases l <;> decide

/-- At the full level everything is accepted, and nothing is counted. -/
theorem sample_of_one {c : AdaptiveController F} (hrate : c.quality.sampleRate = 1) :
    c.sample = (true, { c with stats := c.stats.recordAccepted }) := if_pos hrate

theorem sample_of_multiple {c : AdaptiveController F} (hrate : c.quality.sampleRate ≠ 1)
    (hcounter : c.sampleCounter % c.quality.sampleRate = 0) :
    c.sample = (true, { c with sampleCounter := (c.sampleCounter + 1) % 2 ^ 64
                               stats := c.stats.recordAccepted }) := by
  simp only [sample, if_neg hrate, hcounter, decide_true, if_true]

theorem sample_of_not_multiple {c : AdaptiveController F} (hrate : c.quality.sampleRate ≠ 1)
    (hcounter : c.sampleCounter % c.quality.sampleRate ≠ 0) :
    c.sample = (false, { c with sampleCounter := (c.sampleCounter + 1) % 2 ^ 64
                                stats := c.stats.recordSampledOut }) := by
  simp only [sample, if_neg hrate, decide_eq_false hcounter, Bool.false_eq_true, if_false]

/-- What a call does to the counters, when it accepts or not. -/
structure Counted (c c' : AdaptiveController F) (accepted : Bool) : Prop where
  accepted_eq : accepted = decide (c.sampleCounter % c.quality.sampleRate = 0)
  sampleCounter_modEq : c'.sampleCounter ≡ c.sampleCounter + 1 [MOD c.quality.sampleRate]
  accepted_modEq : c'.stats.accepted ≡ c.stats.accepted + [accepted].count true [MOD 2 ^ 64]
  sampledOut_modEq : c'.stats.sampledOut ≡ c.stats.sampledOut + [accepted].count false [MOD 2 ^ 64]

/-- **What is sampled**: the multiples of the rate, from any value of the counter. -/
theorem sample_spec (c : AdaptiveController F) : Counted c c.sample.2 c.sample.1 := by
  -- the rate divides what the counter wraps at
  have hwrap : (c.sampleCounter + 1) % 2 ^ 64 ≡ c.sampleCounter + 1 [MOD c.quality.sampleRate] :=
    Nat.mod_mod_of_dvd _ (sampleRate_dvd c.quality)
  by_cases hrate : c.quality.sampleRate = 1
  · rw [sample_of_one hrate]
    refine ⟨?_, ?_, Nat.mod_modEq _ _, .refl _⟩
    · rw [hrate, Nat.mod_one, decide_eq_true rfl]
    · rw [hrate]
      exact Nat.modEq_one
  · by_cases hcounter : c.sampleCounter % c.quality.sampleRate = 0
    · rw [sample_of_multiple hrate hcounter]
      exact ⟨(decide_eq_true hcounter).symm, hwrap, Nat.mod_modEq _ _, .refl _⟩
    · rw [sample_of_not_multiple hrate hcounter]
      exact ⟨(decide_eq_false hcounter).symm, hwrap, .refl _, Nat.mod_modEq _ _⟩

/-- How many multiples of `r` are below a number. -/
def multiplesBelow (r x : ℕ) : ℕ := (x + r - 1) / r

theorem multiplesBelow_succ {r : ℕ} (hr : 0 < r) (x : ℕ) :
    multiplesBelow r (x + 1) = multiplesBelow r x + if x % r = 0 then 1 else 0 := by
  have hsucc : x + 1 + r - 1 = x + r - 1 + 1 := by omega
  have hself : x + r - 1 + 1 = x + r := by omega
  rw [multiplesBelow, multiplesBelow, hsucc, Nat.succ_div, hself]
  simp only [Nat.dvd_iff_mod_eq_zero, Nat.add_mod_right]

theorem multiplesBelow_add_mul {r : ℕ} (hr : 0 < r) (x k : ℕ) :
    multiplesBelow r (x + k * r) = multiplesBelow r x + k := by
  have hadd : x + k * r + r - 1 = x + r - 1 + k * r := by omega
  rw [multiplesBelow, multiplesBelow, hadd, Nat.add_mul_div_right _ _ hr]

section
variable [LT F] [DecidableLT F]

/-- A utilization between the water marks, or on one. -/
def InBand (high low u : F) : Prop := ¬ high < u ∧ ¬ u < low

/-- Between the water marks, an update resets the hysteresis counter and nothing else. -/
theorem update_of_inBand {c : AdaptiveController F} {u : F} (h : InBand c.highWaterMark c.lowWaterMark u) :
    c.update u = { c with hysteresisCounter := 0 } := by
  rw [update, if_neg h.1, if_neg h.2]

/-- A call of `should_accept`. -/
def callShouldAccept (c : AdaptiveController F) (utilization : F) : AdaptiveController F × Bool :=
  (c.shouldAccept utilization).swap

theorem call_spec {c : AdaptiveController F} {u : F} (h : InBand c.highWaterMark c.lowWaterMark u) :
    (c.callShouldAccept u).1.highWaterMark = c.highWaterMark ∧ (c.callShouldAccept u).1.lowWaterMark = c.lowWaterMark ∧
      (c.callShouldAccept u).1.qualityLevel = c.qualityLevel ∧
      Counted c (c.callShouldAccept u).1 (c.callShouldAccept u).2 := by
  rw [callShouldAccept, shouldAccept, update_of_inBand h]
  obtain ⟨hhigh, hlow, -, hlevel, -⟩ := sample_eq { c with hysteresisCounter := 0 }
  obtain ⟨haccepted, hcounter, hstats, hstats'⟩ := sample_spec { c with hysteresisCounter := 0 }
  exact ⟨hhigh, hlow, hlevel, haccepted, hcounter, hstats, hstats'⟩

/-- Of the calls from a counter congruent to `x`, as many are accepted as there are multiples of the
rate among the numbers from `x` on. -/
theorem count_replies {c : AdaptiveController F} {x : ℕ} (us : List F)
    (hband : ∀ u ∈ us, InBand c.highWaterMark c.lowWaterMark u) (hx : c.sampleCounter ≡ x [MOD c.quality.sampleRate]) :
    (replies callShouldAccept c us).count true + multiplesBelow c.quality.sampleRate x =
      multiplesBelow c.quality.sampleRate (x + us.length) := by
  induction us generalizing c x with
  | nil => simp
  | cons u us ih =>
    obtain ⟨hhigh, hlow, hlevel, hcounted⟩ := call_spec (hband u List.mem_cons_self)
    have hquality : (c.callShouldAccept u).1.quality = c.quality := by rw [quality, quality, hlevel]
    have hrest := ih (c := (c.callShouldAccept u).1) (x := x + 1)
      (fun v hv => by rw [hhigh, hlow]; exact hband v (List.mem_cons_of_mem u hv))
      (by rw [hquality]; exact hcounted.sampleCounter_modEq.trans (hx.add_right 1))
    have haccepted : (c.callShouldAccept u).2 = decide (x % c.quality.sampleRate = 0) := by
      rw [hcounted.accepted_eq, hx]
    have hlength : x + 1 + us.length = x + (us.length + 1) := by omega
    rw [hquality, multiplesBelow_succ (sampleRate_pos _), hlength] at hrest
    rw [replies_cons, List.count_cons, haccepted, List.length_cons, ← hrest]
    by_cases hmultiple : x % c.quality.sampleRate = 0
    · simp [hmultiple]
      omega
    · simp [hmultiple]

/-- The level stays, and the statistics count what is accepted and what is not. -/
theorem after_spec {c : AdaptiveController F} (us : List F)
    (hband : ∀ u ∈ us, InBand c.highWaterMark c.lowWaterMark u) :
    (after callShouldAccept c us).qualityLevel = c.qualityLevel ∧
      (after callShouldAccept c us).stats.accepted ≡
        c.stats.accepted + (replies callShouldAccept c us).count true [MOD 2 ^ 64] ∧
      (after callShouldAccept c us).stats.sampledOut ≡
        c.stats.sampledOut + (replies callShouldAccept c us).count false [MOD 2 ^ 64] := by
  induction us generalizing c with
  | nil => exact ⟨rfl, .refl _, .refl _⟩
  | cons u us ih =>
    obtain ⟨hhigh, hlow, hlevel, -, -, haccepted, hsampledOut⟩ := call_spec (hband u List.mem_cons_self)
    obtain ⟨hlevel', haccepted', hsampledOut'⟩ := ih (c := (c.callShouldAccept u).1)
      (fun v hv => by rw [hhigh, hlow]; exact hband v (List.mem_cons_of_mem u hv))
    have hcount (b : Bool) : (replies callShouldAccept c (u :: us)).count b =
        [(c.callShouldAccept u).2].count b + (replies callShouldAccept (c.callShouldAccept u).1 us).count b := by
      rw [← List.count_append]
      rfl
    refine ⟨hlevel'.trans hlevel, ?_, ?_⟩
    · rw [hcount, ← Nat.add_assoc]
      exact haccepted'.trans (haccepted.add_right _)
    · rw [hcount, ← Nat.add_assoc]
      exact hsampledOut'.trans (hsampledOut.add_right _)

/-- **Sampling is exact**: whatever the controller has been through, of `k * r` calls at the sample
rate `r` with utilizations between the water marks exactly `k` are accepted; the level stays,
and the statistics say how many were accepted and how many were not, up to their wrapping. -/
theorem accepts_exactly (c : AdaptiveController F) (k : ℕ) (us : List F)
    (hlength : us.length = k * c.quality.sampleRate)
    (hband : ∀ u ∈ us, InBand c.highWaterMark c.lowWaterMark u) :
    (replies callShouldAccept c us).count true = k ∧
      (after callShouldAccept c us).qualityLevel = c.qualityLevel ∧
      (after callShouldAccept c us).stats.accepted ≡ c.stats.accepted + k [MOD 2 ^ 64] ∧
      (after callShouldAccept c us).stats.sampledOut ≡
        c.stats.sampledOut + k * (c.quality.sampleRate - 1) [MOD 2 ^ 64] := by
  have htrue : (replies callShouldAccept c us).count true = k := by
    have hcount := count_replies us hband (.refl _)
    rw [hlength, multiplesBelow_add_mul (sampleRate_pos _)] at hcount
    omega
  have hfalse : (replies callShouldAccept c us).count false = k * (c.quality.sampleRate - 1) := by
    have hall := List.count_true_add_count_false (replies callShouldAccept c us)
    rw [length_replies, htrue, hlength] at hall
    rw [Nat.mul_sub_one]
    omega
  obtain ⟨hlevel, haccepted, hsampledOut⟩ := after_spec us hband
  rw [htrue] at haccepted
  rw [hfalse] at hsampledOut
  exact ⟨htrue, hlevel, haccepted, hsampledOut⟩

end

/-- A controller at the medium level whose counters are about to wrap. -/
def wrapping : AdaptiveController ℚ := ⟨0.8, 0.5, 2, 2 ^ 64 - 3, 7, 10, ⟨2 ^ 64 - 1, 0, 0, 5⟩⟩

theorem accepts_exactly_wrapping :
    (replies callShouldAccept wrapping (.replicate 8 0.65)).count true = 2 ∧
      (after callShouldAccept wrapping (.replicate 8 0.65)).qualityLevel = wrapping.qualityLevel ∧
      (after callShouldAccept wrapping (.replicate 8 0.65)).stats.accepted ≡ wrapping.stats.accepted + 2 [MOD 2 ^ 64] ∧
      (after callShouldAccept wrapping (.replicate 8 0.65)).stats.sampledOut ≡
        wrapping.stats.sampledOut + 2 * (wrapping.quality.sampleRate - 1) [MOD 2 ^ 64] :=
  accepts_exactly wrapping 2 (.replicate 8 0.65) rfl (fun u hu => by
    obtain rfl := List.eq_of_mem_replicate hu
    exact ⟨by decide +kernel, by decide +kernel⟩)

end SensorBridge.Backpressure.AdaptiveController
