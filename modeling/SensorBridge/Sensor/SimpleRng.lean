import SensorBridge.Foundation.Congruential
import SensorBridge.Foundation.FloatOps
import Mathlib.Algebra.BigOperators.Field
import Mathlib.Algebra.BigOperators.Intervals
import Mathlib.Tactic.Linarith
import Mathlib.Tactic.NormNum.OfScientific

/-!
# The random numbers of the mock sensors

`SimpleRng` is a linear congruential generator of 64 bits. Its multiplier is one modulo four and
its increment odd, so that its period is full whatever the seed is: `draw_period`. A float is made
of the 24 high bits of a draw, which single precision holds exactly, and each of the `2 ^ 24` values
comes equally often in a period: `nextF32_uniform`. The sum of twelve of them, less six, is to be
around zero; over all the states of a period it is `3 / 2 ^ 23` below it in exact arithmetic:
`sum_nextGaussian`. Single precision rounds the sum.
-/

namespace SensorBridge.Sensor

open Foundation Finset

universe u

/-- A linear congruential generator for deterministic "random" values. -/
structure SimpleRng where
  state : UInt64
  deriving DecidableEq

namespace SimpleRng

/-- `SimpleRng::new`. -/
def new (seed : UInt64) : SimpleRng := ⟨seed + 1⟩

/-- `SimpleRng::default`. -/
def default : SimpleRng := new 42

/-- `next_u64`. -/
def nextU64 (r : SimpleRng) : SimpleRng × UInt64 :=
  let state := r.state * 6364136223846793005 + 1442695040888963407
  (⟨state⟩, state)

section
variable {F : Type u} [FloatOps F]

/-- `next_f32`. -/
def nextF32 (r : SimpleRng) : SimpleRng × F :=
  let (r, bits) := r.nextU64
  (r, ((bits >>> 40).toNat : F) / (((1 : UInt64) <<< 24).toNat : F))

/-- `next_f32_signed`. -/
def nextF32Signed (r : SimpleRng) : SimpleRng × F :=
  let (r, value) : SimpleRng × F := r.nextF32
  (r, value * 2.0 - 1.0)

/-- The sum of the next `n` floats. -/
def sumF32 : ℕ → SimpleRng → F → SimpleRng × F
  | 0, r, sum => (r, sum)
  | n + 1, r, sum =>
    let (r, value) : SimpleRng × F := r.nextF32
    sumF32 n r (sum + value)

/-- `next_gaussian`. -/
def nextGaussian (r : SimpleRng) : SimpleRng × F :=
  let (r, sum) : SimpleRng × F := sumF32 12 r 0.0
  (r, sum - 6.0)

end

/-- The generator after `n` draws. -/
def after (r : SimpleRng) (n : ℕ) : SimpleRng := (fun r => r.nextU64.1)^[n] r

/-- What is drawn after `n` draws. -/
def draw (r : SimpleRng) (n : ℕ) : UInt64 := (r.after n).nextU64.2

theorem after_succ (r : SimpleRng) (n : ℕ) : r.after (n + 1) = r.nextU64.1.after n :=
  Function.iterate_succ_apply _ n r

theorem after_after (r : SimpleRng) (m n : ℕ) : (r.after m).after n = r.after (n + m) :=
  (Function.iterate_add_apply _ n m r).symm

/-! ### The period -/

/-- The multiplier. -/
def multiplier : ℕ := 6364136223846793005

/-- The increment. -/
def increment : ℕ := 1442695040888963407

/-- A draw is a step of a generator. -/
theorem toNat_nextU64 (r : SimpleRng) :
    r.nextU64.1.state.toNat = Congruential.next 64 multiplier increment r.state.toNat := by
  rw [Congruential.next, mul_comm]
  exact (UInt64.toNat_add _ _).trans (by rw [UInt64.toNat_mul, Nat.mod_add_mod]; rfl)

theorem toNat_after (r : SimpleRng) (n : ℕ) :
    (r.after n).state.toNat = (Congruential.next 64 multiplier increment)^[n] r.state.toNat := by
  induction n generalizing r with
  | zero => rfl
  | succ n ih => rw [after_succ, ih, toNat_nextU64, Function.iterate_succ_apply]

theorem toNat_draw (r : SimpleRng) (n : ℕ) :
    (r.draw n).toNat = (Congruential.next 64 multiplier increment)^[n] r.nextU64.1.state.toNat := by
  rw [← toNat_after, ← after_succ, after, Function.iterate_succ_apply']
  rfl

theorem state_lt (r : SimpleRng) : r.state.toNat < 2 ^ 64 := r.state.toNat_lt

/-- **The period is full**: from any seed the draws repeat after `2 ^ 64` and not before, and each
`u64` is among the first `2 ^ 64` of them. -/
theorem draw_period (r : SimpleRng) :
    (∀ m n, r.draw m = r.draw n ↔ m % 2 ^ 64 = n % 2 ^ 64) ∧ ∀ value, ∃ n < 2 ^ 64, r.draw n = value := by
  have ha : multiplier % 4 = 1 := by decide
  have hc : increment % 2 = 1 := by decide
  constructor
  · intro m n
    rw [← UInt64.toNat_inj, toNat_draw, toNat_draw]
    exact Congruential.iterate_next_eq_iff ha hc (state_lt _) m n
  · intro value
    obtain ⟨n, hn, hdraw⟩ := (Congruential.bijOn_iterate ha hc (state_lt r.nextU64.1)).surjOn
      (mem_coe.2 (mem_range.2 value.toNat_lt))
    exact ⟨n, mem_range.1 hn, UInt64.toNat_inj.1 ((toNat_draw r n).trans hdraw)⟩

/-! ### The floats -/

variable {K : Type u} [Field K] [LinearOrder K]

open scoped Exact

/-- The float made of the high bits. -/
def ofHighBits (K : Type u) [Field K] (highBits : ℕ) : K := highBits / (2 ^ 24 : ℕ)

theorem ofHighBits_eq (K : Type u) [Field K] (highBits : ℕ) : ofHighBits K highBits = highBits / 2 ^ 24 := by
  rw [ofHighBits, Nat.cast_pow, Nat.cast_ofNat]

theorem nextF32_eq (r : SimpleRng) :
    (r.nextF32 : SimpleRng × K) = (r.nextU64.1, ofHighBits K (r.nextU64.1.state.toNat / 2 ^ 40)) := by
  have hbits : (r.nextU64.2 >>> 40).toNat = r.nextU64.1.state.toNat / 2 ^ 40 := by
    rw [UInt64.toNat_shiftRight, Nat.shiftRight_eq_div_pow]
    rfl
  have hscale : (((1 : UInt64) <<< 24).toNat : K) = 2 ^ 24 := by
    rw [show ((1 : UInt64) <<< 24).toNat = 2 ^ 24 by decide, Nat.cast_pow, Nat.cast_ofNat]
  show (r.nextU64.1, ((r.nextU64.2 >>> 40).toNat : K) / (((1 : UInt64) <<< 24).toNat : K)) = _
  rw [hbits, hscale, ofHighBits_eq]

/-- The float of the next draw but `n`, from the state after the next draw. -/
theorem nextF32_after (r : SimpleRng) (n : ℕ) : ((r.after n).nextF32 : SimpleRng × K).2 =
    ofHighBits K ((Congruential.next 64 multiplier increment)^[n] r.nextU64.1.state.toNat / 2 ^ 40) := by
  rw [nextF32_eq, ← toNat_draw]
  rfl

theorem highBits_lt (r : SimpleRng) : r.state.toNat / 2 ^ 40 < 2 ^ 24 :=
  Nat.div_lt_of_lt_mul (state_lt r)

theorem multiplier_mod : multiplier % 4 = 1 := by decide

theorem increment_mod : increment % 2 = 1 := by decide

/-- **The floats are spread evenly**: each is one of the multiples of `1 / 2 ^ 24` from zero up to
one, and each of these is `2 ^ 40` times among those of a period. -/
theorem nextF32_uniform [IsStrictOrderedRing K] (r : SimpleRng) :
    (∀ n, ∃ j : ℕ, j < 2 ^ 24 ∧ ((r.after n).nextF32 : SimpleRng × K).2 = j / 2 ^ 24) ∧
      ∀ j : ℕ, j < 2 ^ 24 → #{n ∈ range (2 ^ 64) | ((r.after n).nextF32 : SimpleRng × K).2 = j / 2 ^ 24} = 2 ^ 40 := by
  constructor
  · intro n
    refine ⟨_, highBits_lt (r.after n).nextU64.1, ?_⟩
    rw [nextF32_eq, ofHighBits_eq]
  · intro j hj
    have hcard := Congruential.card_high_bits (i := 24) (j := 40) multiplier_mod increment_mod
      (state_lt r.nextU64.1) rfl hj
    rw [← hcard]
    refine congrArg card (filter_congr fun n _ => ?_)
    rw [nextF32_after, ofHighBits_eq, div_left_inj' (by positivity), Nat.cast_inj]

theorem nextF32_uniform_default :
    #{n ∈ range (2 ^ 64) | ((default.after n).nextF32 : SimpleRng × ℚ).2 = (3 : ℕ) / 2 ^ 24} = 2 ^ 40 :=
  (nextF32_uniform default).2 3 (by decide)

/-! ### The noise -/

theorem nextF32_mem [IsStrictOrderedRing K] (r : SimpleRng) :
    0 ≤ (r.nextF32 : SimpleRng × K).2 ∧ (r.nextF32 : SimpleRng × K).2 ≤ 1 := by
  have hlt : ((r.nextU64.1.state.toNat / 2 ^ 40 : ℕ) : K) ≤ ((2 ^ 24 : ℕ) : K) :=
    Nat.cast_le.2 (highBits_lt r.nextU64.1).le
  rw [Nat.cast_pow, Nat.cast_ofNat] at hlt
  rw [nextF32_eq, ofHighBits_eq]
  exact ⟨by positivity, (div_le_one (by positivity)).2 hlt⟩

theorem abs_nextF32Signed_le [IsStrictOrderedRing K] (r : SimpleRng) : |(r.nextF32Signed : SimpleRng × K).2| ≤ 1 := by
  obtain ⟨h0, h1⟩ := nextF32_mem (K := K) r
  have htwo : (2.0 : K) = 2 := by norm_num
  have hone : (1.0 : K) = 1 := by norm_num
  show |(r.nextF32 : SimpleRng × K).2 * 2.0 - 1.0| ≤ 1
  rw [htwo, hone, abs_le]
  constructor <;> linarith

theorem sumF32_eq (n : ℕ) (r : SimpleRng) (sum : K) :
    sumF32 n r sum = (r.after n, sum + ∑ i ∈ range n, ((r.after i).nextF32 : SimpleRng × K).2) := by
  induction n generalizing r sum with
  | zero =>
    rw [sum_range_zero, add_zero]
    rfl
  | succ n ih =>
    have hnext : ∀ i, (r.nextF32 : SimpleRng × K).1.after i = r.after (i + 1) := fun i => (after_succ r i).symm
    show sumF32 n (r.nextF32 : SimpleRng × K).1 (sum + (r.nextF32 : SimpleRng × K).2) = _
    rw [ih, sum_range_succ', hnext]
    simp_rw [hnext]
    rw [add_comm (∑ i ∈ range n, _), ← add_assoc]
    rfl

theorem nextGaussian_eq [IsStrictOrderedRing K] (r : SimpleRng) :
    (r.nextGaussian : SimpleRng × K) = (r.after 12, ∑ i ∈ range 12, ((r.after i).nextF32 : SimpleRng × K).2 - 6) := by
  unfold nextGaussian
  rw [sumF32_eq]
  norm_num

theorem abs_nextGaussian_le [IsStrictOrderedRing K] (r : SimpleRng) : |(r.nextGaussian : SimpleRng × K).2| ≤ 6 := by
  have hlo : 0 ≤ ∑ i ∈ range 12, ((r.after i).nextF32 : SimpleRng × K).2 := sum_nonneg fun i _ => (nextF32_mem _).1
  have hhi : ∑ i ∈ range 12, ((r.after i).nextF32 : SimpleRng × K).2 ≤ 12 :=
    (sum_le_card_nsmul _ _ 1 fun i _ => (nextF32_mem _).2).trans_eq (by norm_num)
  rw [nextGaussian_eq, abs_le]
  constructor <;> linarith

/-- The floats of a period add up to half as many, less what they are rounded down by. -/
theorem sum_nextF32 [IsStrictOrderedRing K] (r : SimpleRng) :
    ∑ n ∈ range (2 ^ 64), ((r.after n).nextF32 : SimpleRng × K).2 = 2 ^ 39 * (2 ^ 24 - 1) := by
  simp_rw [nextF32_after]
  rw [Congruential.sum_high_bits multiplier_mod increment_mod (state_lt r.nextU64.1) (i := 24) rfl, nsmul_eq_mul]
  unfold ofHighBits
  rw [← sum_div, ← Nat.cast_sum, sum_range_id]
  norm_num

/-- **The noise over a period**, taken from each of its states once: in exact arithmetic it is not zero on
average, but less by `3 / 2 ^ 23`. -/
theorem sum_nextGaussian [IsStrictOrderedRing K] (r : SimpleRng) :
    ∑ n ∈ range (2 ^ 64), ((r.after n).nextGaussian : SimpleRng × K).2 = 2 ^ 64 * (- (3 / 2 ^ 23)) := by
  calc ∑ n ∈ range (2 ^ 64), ((r.after n).nextGaussian : SimpleRng × K).2
    _ = ∑ n ∈ range (2 ^ 64), (∑ i ∈ range 12, (((r.after i).after n).nextF32 : SimpleRng × K).2 - 6) := by
      refine sum_congr rfl fun n _ => ?_
      rw [nextGaussian_eq]
      simp_rw [after_after, add_comm]
    _ = ∑ i ∈ range 12, ∑ n ∈ range (2 ^ 64), (((r.after i).after n).nextF32 : SimpleRng × K).2 - 2 ^ 64 * 6 := by
      rw [sum_sub_distrib, sum_comm, sum_const, card_range, nsmul_eq_mul]
      norm_num
    _ = 2 ^ 64 * (- (3 / 2 ^ 23)) := by
      rw [sum_congr rfl fun i _ => sum_nextF32 (r.after i), sum_const, card_range]
      norm_num

theorem sum_nextGaussian_default :
    ∑ n ∈ range (2 ^ 64), ((default.after n).nextGaussian : SimpleRng × ℚ).2 = 2 ^ 64 * (- (3 / 2 ^ 23)) :=
  sum_nextGaussian default

end SimpleRng

end SensorBridge.Sensor
