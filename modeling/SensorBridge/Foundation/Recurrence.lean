import Mathlib.Algebra.BigOperators.Intervals
import Mathlib.Algebra.BigOperators.Ring.Finset
import Mathlib.Algebra.Order.Field.Basic
import Mathlib.Data.List.GetD
import Mathlib.Data.List.MinMax
import Mathlib.Tactic.Linarith
import Mathlib.Tactic.Ring

/-!
# Linear recurrences and blends

A filter of the first order has one value `y`, which an input `u` makes `a * y + u`. What it has
after a list of inputs (`solve`) is the sum of what each input has left (`solve_eq_sum`), and a
change of the value it started with is left as `a ^ n` times that change (`solve_add_init`).

A value is `Within` a list when it is between the least and the greatest entry. It stays so when it
is moved towards a new entry, all the way or a part of it (`Within.blend`), whatever the part
is from one time to the next.
-/

namespace SensorBridge.Foundation.Recurrence

universe u

variable {K : Type u}

/-! ### Of the first order -/

/-- The value after the inputs `us`, from `y`. -/
def solve [Mul K] [Add K] (a y : K) (us : List K) : K := us.foldl (fun y u => a * y + u) y

section
variable [CommSemiring K]

theorem solve_nil (a y : K) : solve a y [] = y := rfl

theorem solve_concat (a y : K) (us : List K) (u : K) : solve a y (us ++ [u]) = a * solve a y us + u := by
  rw [solve, List.foldl_append]
  rfl

/-- **A change of the start** is left as `a ^ n` times the change, whatever the inputs. -/
theorem solve_add_init (a y d : K) (us : List K) : solve a (y + d) us = solve a y us + a ^ us.length * d := by
  induction us using List.reverseRecOn with
  | nil => rw [solve_nil, solve_nil, List.length_nil, pow_zero, one_mul]
  | append_singleton us u ih =>
    rw [solve_concat, solve_concat, ih, List.length_append, List.length_singleton]
    ring

/-- Nothing comes of nothing. -/
theorem solve_zeros (a : K) (n : ℕ) : solve a 0 (List.replicate n 0) = 0 := by
  induction n with
  | zero => rfl
  | succ n ih => rw [List.replicate_succ', solve_concat, ih, mul_zero, add_zero]

/-- **The solution**: the start and every input have been multiplied by `a` once for each input
that came later. -/
theorem solve_eq_sum (a y : K) (us : List K) :
    solve a y us = a ^ us.length * y + ∑ k ∈ Finset.range us.length, a ^ (us.length - 1 - k) * us.getD k 0 := by
  induction us using List.reverseRecOn with
  | nil => rw [solve_nil, List.length_nil, pow_zero, one_mul, Finset.sum_range_zero, add_zero]
  | append_singleton us u ih =>
    have hlength : (us ++ [u]).length = us.length + 1 := by rw [List.length_append, List.length_singleton]
    have hlast : (us ++ [u]).getD us.length 0 = u := by simp
    have hearlier : ∀ k ∈ Finset.range us.length, a ^ (us.length - k) * (us ++ [u]).getD k 0 =
        a * (a ^ (us.length - 1 - k) * us.getD k 0) := by
      intro k hk
      have hk := Finset.mem_range.1 hk
      have hpow : us.length - k = us.length - 1 - k + 1 := by omega
      rw [List.getD_append _ _ _ _ hk, hpow]
      ring
    rw [solve_concat, ih, hlength, Nat.add_sub_cancel, Finset.sum_range_succ, Nat.sub_self, pow_zero, one_mul,
      hlast, Finset.sum_congr rfl hearlier, ← Finset.mul_sum]
    ring

end

/-! ### The changes of a signal -/

section
variable [AddCommGroup K]

/-- By how much each entry differs from the one before it, the first from `x`. -/
def changes (x : K) : List K → List K
  | [] => []
  | x' :: xs => (x' - x) :: changes x' xs

theorem length_changes (x : K) (xs : List K) : (changes x xs).length = xs.length := by
  induction xs generalizing x with
  | nil => rfl
  | cons x' xs ih => rw [changes, List.length_cons, List.length_cons, ih]

theorem changes_concat (x : K) (xs : List K) (x' : K) :
    changes x (xs ++ [x']) = changes x xs ++ [x' - xs.getLastD x] := by
  induction xs generalizing x with
  | nil => rfl
  | cons x'' xs ih => rw [List.cons_append, changes, changes, ih, List.getLastD_cons, List.cons_append]

/-- An offset does not change them. -/
theorem changes_map_add (x c : K) (xs : List K) : changes (x + c) (xs.map (· + c)) = changes x xs := by
  induction xs generalizing x with
  | nil => rfl
  | cons x' xs ih => rw [List.map_cons, changes, changes, ih, add_sub_add_right_eq_sub]

theorem changes_replicate (c : K) (n : ℕ) : changes c (List.replicate n c) = List.replicate n 0 := by
  induction n with
  | zero => rfl
  | succ n ih => rw [List.replicate_succ, List.replicate_succ, changes, ih, sub_self]

end

/-! ### Between the entries of a list -/

/-- Between the least and the greatest entry. -/
def Within [LinearOrder K] (xs : List K) (y : K) : Prop := xs.minimum ≤ y ∧ y ≤ xs.maximum

section
variable [LinearOrder K] {xs xs' : List K} {y : K}

theorem within_iff : Within xs y ↔ (∃ x ∈ xs, x ≤ y) ∧ ∃ x ∈ xs, y ≤ x := by
  rw [Within, List.minimum_le_coe_iff, List.coe_le_maximum_iff]

theorem within_of_mem (h : y ∈ xs) : Within xs y := within_iff.2 ⟨⟨y, h, le_rfl⟩, ⟨y, h, le_rfl⟩⟩

theorem Within.mono (h : Within xs y) (hsub : ∀ x ∈ xs, x ∈ xs') : Within xs' y := by
  obtain ⟨⟨lo, hlo, hle⟩, hi, hhi, hge⟩ := within_iff.1 h
  exact within_iff.2 ⟨⟨lo, hsub lo hlo, hle⟩, hi, hsub hi hhi, hge⟩

/-- **A part of the way to a new entry**. -/
theorem Within.blend [CommRing K] [IsStrictOrderedRing K] {k : K} (h : Within xs y) (hk : 0 ≤ k) (hk1 : k ≤ 1)
    (x : K) : Within (xs ++ [x]) (y + k * (x - y)) := by
  obtain ⟨⟨lo, hlo, hle⟩, hi, hhi, hge⟩ := within_iff.1 h
  have hx : x ∈ xs ++ [x] := List.mem_append_right _ (List.mem_singleton_self x)
  rcases le_total y x with hyx | hxy
  · have hup : 0 ≤ k * (x - y) := mul_nonneg hk (sub_nonneg.2 hyx)
    have htop : k * (x - y) ≤ x - y := mul_le_of_le_one_left (sub_nonneg.2 hyx) hk1
    exact within_iff.2 ⟨⟨lo, List.mem_append_left _ hlo, by linarith⟩, x, hx, by linarith⟩
  · have hdown : 0 ≤ k * (y - x) := mul_nonneg hk (sub_nonneg.2 hxy)
    have hbottom : k * (y - x) ≤ y - x := mul_le_of_le_one_left (sub_nonneg.2 hxy) hk1
    have hneg : k * (x - y) = -(k * (y - x)) := by rw [← mul_neg, neg_sub]
    exact within_iff.2 ⟨⟨x, hx, by rw [hneg]; linarith⟩, hi, List.mem_append_left _ hhi, by rw [hneg]; linarith⟩

end

end SensorBridge.Foundation.Recurrence
