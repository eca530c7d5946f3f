import Mathlib.Algebra.BigOperators.Group.List.Basic
import Mathlib.Algebra.BigOperators.Ring.List
import Mathlib.Algebra.Field.Basic
import Mathlib.Algebra.CharP.Defs
import Mathlib.Data.Nat.Cast.Basic
import Mathlib.Tactic.FieldSimp
import Mathlib.Tactic.LinearCombination
import Mathlib.Tactic.Ring

/-!
# Welford's recurrence

The mean of a list, and the sum of the squares of the distances from it, when one more value comes.
Both are found from what they were before, without the values seen so far (`mean_concat`,
`sumSq_concat`).
-/

namespace SensorBridge.Foundation.Welford

universe u

variable {K : Type u} [Field K]

/-- The mean of a list. -/
def mean (l : List K) : K := l.sum / (l.length : K)

/-- The sum of the squares of the distances from the mean. -/
def sumSq (l : List K) : K := (l.map fun x => (x - mean l) ^ 2).sum

/-- The variance of a sample, with Bessel's correction. -/
def variance (l : List K) : K := sumSq l / ((l.length : K) - 1)

@[simp] theorem mean_nil : mean ([] : List K) = 0 := by simp [mean]

@[simp] theorem sumSq_nil : sumSq ([] : List K) = 0 := by simp [sumSq]

/-- Distances from any point, in sums of the values and of their squares. -/
theorem sum_sub_sq (l : List K) (c : K) :
    (l.map fun x => (x - c) ^ 2).sum = (l.map fun x => x ^ 2).sum - 2 * c * l.sum + (l.length : K) * c ^ 2 := by
  induction l with
  | nil => simp
  | cons x l ih =>
    simp only [List.map_cons, List.sum_cons, List.length_cons, ih]
    push_cast
    ring

section
variable [CharZero K]

/-- The values sum up to their number times the mean. -/
theorem length_mul_mean (l : List K) : (l.length : K) * mean l = l.sum := by
  rcases eq_or_ne l [] with rfl | hne
  · simp
  · have hlength : (l.length : K) ≠ 0 := by exact_mod_cast List.length_pos_iff.2 hne |>.ne'
    rw [mean, mul_div_cancel₀ _ hlength]

/-- The mean moves by the part that the new value has in it. -/
theorem mean_concat (l : List K) (x : K) : mean (l ++ [x]) = mean l + (x - mean l) / ((l.length : K) + 1) := by
  have hsucc : (l.length : K) + 1 ≠ 0 := Nat.cast_add_one_ne_zero l.length
  have hsum := length_mul_mean l
  rw [mean, List.sum_append, List.sum_singleton, List.length_append, List.length_singleton]
  push_cast
  rw [← hsum]
  field_simp
  ring

/-- The sum of squares, without the distances. -/
theorem sumSq_eq (l : List K) : sumSq l = (l.map fun x => x ^ 2).sum - (l.length : K) * mean l ^ 2 := by
  rw [sumSq, sum_sub_sq, ← length_mul_mean l]
  ring

/-- **Welford's recurrence**: the sum of squares grows by the product of the distances from the
mean before and after. -/
theorem sumSq_concat (l : List K) (x : K) :
    sumSq (l ++ [x]) = sumSq l + (x - mean l) * (x - mean (l ++ [x])) := by
  have hsucc : (l.length : K) + 1 ≠ 0 := Nat.cast_add_one_ne_zero l.length
  rw [sumSq_eq, sumSq_eq, mean_concat, List.map_append, List.sum_append, List.length_append]
  simp only [List.map_cons, List.map_nil, List.sum_singleton, List.length_singleton]
  push_cast
  field_simp
  ring

/-- The distance from the mean after is a part of the distance from the mean before. -/
theorem sub_mean_concat (l : List K) (x : K) :
    x - mean (l ++ [x]) = (l.length : K) / ((l.length : K) + 1) * (x - mean l) := by
  have hsucc : (l.length : K) + 1 ≠ 0 := Nat.cast_add_one_ne_zero l.length
  rw [mean_concat]
  field_simp
  ring

end

end SensorBridge.Foundation.Welford
