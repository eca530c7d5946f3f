import Mathlib.Algebra.Order.BigOperators.Group.Finset
import Mathlib.Algebra.Ring.GeomSum
import Mathlib.Data.Nat.ModEq
import Mathlib.Dynamics.PeriodicPts.Lemmas
import Mathlib.Tactic.Ring

/-!
# Linear congruential generators

The sequence `x`, `a x + c`, ... modulo `2 ^ k`. After `n` steps it is at `aⁿ x + c (1 + a + ... +
aⁿ⁻¹)`, which is `x` and `(a - 1) x + c` times the sum. When `a` is one modulo four, a power of two
divides the sum exactly if it divides `n` (`two_pow_dvd_geomSum_iff`), and when `c` is odd too the
factor does not count. So the sequence is back at `x` after `2 ^ k` steps and not before
(`minimalPeriod_next`), and has passed every number below `2 ^ k` by then: what is summed over
those steps is summed over all the numbers (`sum_iterate`).
-/

namespace SensorBridge.Foundation.Congruential

open Finset Function

universe u

/-- One step of a generator. -/
def next (k a c x : ℕ) : ℕ := (a * x + c) % 2 ^ k

variable {k a c x : ℕ}

theorem next_lt (k a c x : ℕ) : next k a c x < 2 ^ k := Nat.mod_lt _ (Nat.two_pow_pos k)

theorem iterate_next_lt (hx : x < 2 ^ k) (n : ℕ) : (next k a c)^[n] x < 2 ^ k := by
  cases n with
  | zero => exact hx
  | succ n =>
    rw [iterate_succ_apply']
    exact next_lt _ _ _ _

/-! ### The period -/

/-- `n` steps at once. -/
theorem iterate_next_modEq (k a c x n : ℕ) :
    (next k a c)^[n] x ≡ a ^ n * x + c * ∑ i ∈ range n, a ^ i [MOD 2 ^ k] := by
  induction n with
  | zero =>
    rw [iterate_zero_apply, pow_zero, one_mul, sum_range_zero, mul_zero, add_zero]
  | succ n ih =>
    rw [iterate_succ_apply']
    calc next k a c ((next k a c)^[n] x)
      _ ≡ a * (next k a c)^[n] x + c [MOD 2 ^ k] := Nat.mod_modEq _ _
      _ ≡ a * (a ^ n * x + c * ∑ i ∈ range n, a ^ i) + c [MOD 2 ^ k] := (ih.mul_left a).add_right c
      _ = a ^ (n + 1) * x + c * ∑ i ∈ range (n + 1), a ^ i := by
        rw [geom_sum_succ]
        ring

theorem odd_pow {a : ℕ} (ha : a % 4 = 1) (n : ℕ) : a ^ n % 4 = 1 := by
  rw [Nat.pow_mod, ha, one_pow, Nat.one_mod]

/-- A power of two divides the geometric sum exactly if it divides the number of its terms: of an
odd number of them the sum is odd, and of twice as many it is twice an odd number as much. -/
theorem two_pow_dvd_geomSum_iff (ha : a % 4 = 1) (j n : ℕ) : 2 ^ j ∣ ∑ i ∈ range n, a ^ i ↔ 2 ^ j ∣ n := by
  induction j generalizing n with
  | zero => simp
  | succ j ih =>
    rcases Nat.even_or_odd' n with ⟨m, rfl | rfl⟩
    · obtain ⟨t, ht⟩ : ∃ t, a ^ m + 1 = 2 * (2 * t + 1) := ⟨a ^ m / 4, by have := odd_pow ha m; omega⟩
      have hsum : ∑ i ∈ range (2 * m), a ^ i = 2 * ((2 * t + 1) * ∑ i ∈ range m, a ^ i) := by
        rw [two_mul, sum_range_add]
        simp_rw [pow_add]
        rw [← mul_sum, ← mul_assoc, ← ht]
        ring
      have hcoprime : Nat.Coprime (2 ^ j) (2 * t + 1) := Nat.Coprime.pow_left _ (by simp)
      rw [hsum, pow_succ', Nat.mul_dvd_mul_iff_left two_pos, Nat.mul_dvd_mul_iff_left two_pos,
        hcoprime.dvd_mul_left, ih]
    · have hodd : (∑ i ∈ range (2 * m + 1), a ^ i) % 2 = 1 := by
        rw [sum_nat_mod, sum_congr rfl fun i _ => show a ^ i % 2 = 1 by have := odd_pow ha i; omega, sum_const,
          card_range, smul_eq_mul, mul_one]
        omega
      constructor
      · intro h
        have := (dvd_pow_self 2 j.succ_ne_zero).trans h
        omega
      · intro h
        have := (dvd_pow_self 2 j.succ_ne_zero).trans h
        omega

/-- The sequence is back where it was when `2 ^ k` divides the number of steps. -/
theorem iterate_next_eq_self_iff (ha : a % 4 = 1) (hc : c % 2 = 1) (hx : x < 2 ^ k) (n : ℕ) :
    (next k a c)^[n] x = x ↔ 2 ^ k ∣ n := by
  obtain ⟨d, rfl⟩ : ∃ d, a = d + 1 := ⟨a - 1, by omega⟩
  have hcoprime : Nat.Coprime (2 ^ k) (d * x + c) := by
    refine Nat.Coprime.pow_left _ ((Nat.coprime_two_left).2 ?_)
    have hd : Even (d * x) := Even.mul_right (Nat.even_iff.2 (by omega)) x
    exact hd.add_odd (Nat.odd_iff.2 hc)
  have hsteps := iterate_next_modEq k (d + 1) c x n
  rw [← geom_sum_mul_add, show ∀ g : ℕ, (g * d + 1) * x + c * g = x + (d * x + c) * g by intro g; ring] at hsteps
  calc (next k (d + 1) c)^[n] x = x
    _ ↔ (next k (d + 1) c)^[n] x ≡ x [MOD 2 ^ k] :=
      ⟨fun h => by rw [h], fun h => h.eq_of_lt_of_lt (iterate_next_lt hx n) hx⟩
    _ ↔ x + (d * x + c) * ∑ i ∈ range n, (d + 1) ^ i ≡ x + 0 [MOD 2 ^ k] :=
      ⟨hsteps.symm.trans, hsteps.trans⟩
    _ ↔ 2 ^ k ∣ (d * x + c) * ∑ i ∈ range n, (d + 1) ^ i := by
      rw [Nat.ModEq.add_iff_left rfl, Nat.modEq_zero_iff_dvd]
    _ ↔ 2 ^ k ∣ n := by rw [hcoprime.dvd_mul_left, two_pow_dvd_geomSum_iff ha]

/-- **The period is full.** -/
theorem minimalPeriod_next (ha : a % 4 = 1) (hc : c % 2 = 1) (hx : x < 2 ^ k) :
    minimalPeriod (next k a c) x = 2 ^ k := by
  rw [← Nat.dvd_right_iff_eq]
  intro n
  rw [← isPeriodicPt_iff_minimalPeriod_dvd, ← iterate_next_eq_self_iff ha hc hx]
  rfl

/-- Two numbers of steps lead to the same place when they are congruent. -/
theorem iterate_next_eq_iff (ha : a % 4 = 1) (hc : c % 2 = 1) (hx : x < 2 ^ k) (m n : ℕ) :
    (next k a c)^[m] x = (next k a c)^[n] x ↔ m % 2 ^ k = n % 2 ^ k := by
  have hmod := minimalPeriod_next ha hc hx
  rw [← iterate_mod_minimalPeriod_eq (n := m), ← iterate_mod_minimalPeriod_eq (n := n), hmod]
  refine iterate_eq_iterate_iff_of_lt_minimalPeriod ?_ ?_
  all_goals
    rw [hmod]
    exact Nat.mod_lt _ (Nat.two_pow_pos k)

/-! ### A whole period -/

/-- The steps of a period lead to each number below `2 ^ k` once. -/
theorem bijOn_iterate (ha : a % 4 = 1) (hc : c % 2 = 1) (hx : x < 2 ^ k) :
    Set.BijOn (fun n => (next k a c)^[n] x) (range (2 ^ k)) (range (2 ^ k)) := by
  have hmaps : Set.MapsTo (fun n => (next k a c)^[n] x) (range (2 ^ k)) (range (2 ^ k)) :=
    fun n _ => mem_coe.2 (mem_range.2 (iterate_next_lt hx n))
  have hinj : Set.InjOn (fun n => (next k a c)^[n] x) (range (2 ^ k)) := by
    intro m hm n hn h
    rw [mem_coe, mem_range] at hm hn
    have := (iterate_next_eq_iff ha hc hx m n).1 h
    rwa [Nat.mod_eq_of_lt hm, Nat.mod_eq_of_lt hn] at this
  exact ⟨hmaps, hinj, surjOn_of_injOn_of_card_le _ hmaps hinj le_rfl⟩

/-- **What is summed over a period is summed over all numbers.** -/
theorem sum_iterate {M : Type u} [AddCommMonoid M] (ha : a % 4 = 1) (hc : c % 2 = 1) (hx : x < 2 ^ k) (g : ℕ → M) :
    ∑ n ∈ range (2 ^ k), g ((next k a c)^[n] x) = ∑ y ∈ range (2 ^ k), g y := by
  obtain ⟨hmaps, hinj, hsurj⟩ := bijOn_iterate ha hc hx
  exact sum_nbij (fun n => (next k a c)^[n] x) hmaps hinj hsurj fun _ _ => rfl

/-- Each quotient comes as often as the divisor is large. -/
theorem sum_div {M : Type u} [AddCommMonoid M] (m d : ℕ) (g : ℕ → M) :
    ∑ y ∈ range (m * d), g (y / d) = d • ∑ v ∈ range m, g v := by
  induction m with
  | zero => simp
  | succ m ih =>
    rw [Nat.succ_mul, sum_range_add, ih, sum_range_succ, nsmul_add]
    congr 1
    calc ∑ y ∈ range d, g ((m * d + y) / d)
      _ = ∑ _y ∈ range d, g m := by
        refine sum_congr rfl fun y hy => ?_
        have hy := mem_range.1 hy
        rw [Nat.add_comm, Nat.add_mul_div_right _ _ (by omega), Nat.div_eq_of_lt hy, Nat.zero_add]
      _ = d • g m := by rw [sum_const, card_range]

/-- **The high bits are spread evenly over a period.** -/
theorem sum_high_bits {M : Type u} [AddCommMonoid M] {i j : ℕ} (ha : a % 4 = 1) (hc : c % 2 = 1) (hx : x < 2 ^ k)
    (hk : i + j = k) (g : ℕ → M) :
    ∑ n ∈ range (2 ^ k), g ((next k a c)^[n] x / 2 ^ j) = 2 ^ j • ∑ v ∈ range (2 ^ i), g v := by
  rw [sum_iterate ha hc hx fun y => g (y / 2 ^ j), ← hk, pow_add, sum_div]

/-- How often these are the high bits. -/
theorem card_high_bits {i j v : ℕ} (ha : a % 4 = 1) (hc : c % 2 = 1) (hx : x < 2 ^ k) (hk : i + j = k)
    (hv : v < 2 ^ i) : #{n ∈ range (2 ^ k) | (next k a c)^[n] x / 2 ^ j = v} = 2 ^ j := by
  rw [card_filter, sum_high_bits ha hc hx hk fun w => if w = v then 1 else 0, sum_ite_eq',
    if_pos (mem_range.2 hv), smul_eq_mul, mul_one]

end SensorBridge.Foundation.Congruential
