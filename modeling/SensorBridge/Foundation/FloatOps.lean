import Mathlib.Algebra.Order.Floor.Semiring
import Mathlib.Algebra.Order.Field.Basic
import Mathlib.Data.Rat.Cast.Lemmas

/-!
# Floating-point operations

A float is a type with the operations that a program uses, of which nothing is assumed. An
ordered field has these operations too: what is shown for any float holds of exact arithmetic, and
what depends on the arithmetic is shown for that.
-/

namespace SensorBridge.Foundation

universe u

/-- The operations of a float. -/
class FloatOps (F : Type u) extends Add F, Sub F, Mul F, Div F, LT F, LE F, NatCast F, OfScientific F

/-- A float that can be cast to `u64`. -/
class FloatToU64 (F : Type u) extends FloatOps F where
  /-- `as u64`, which truncates, and stops at the bounds. -/
  toU64 : F → ℕ

variable {F K : Type u}

/-- `f64::clamp`. -/
def clamp [FloatOps F] [DecidableLT F] (value lo hi : F) : F :=
  let raised := if value < lo then lo else value
  if hi < raised then hi else raised

namespace Exact

/-- The operations of a field, for exact arithmetic. -/
scoped instance floatOps [Field K] [LinearOrder K] : FloatOps K where

scoped instance floatToU64 [Field K] [LinearOrder K] [FloorSemiring K] : FloatToU64 K where
  toU64 x := min ⌊x⌋₊ (2 ^ 64 - 1)

end Exact

open scoped Exact in
/-- In exact arithmetic a value is clamped to the bounds. -/
theorem clamp_eq [Field K] [LinearOrder K] {lo hi : K} (h : lo ≤ hi) (value : K) :
    clamp value lo hi = max lo (min value hi) := by
  unfold clamp
  rcases lt_or_ge value lo with hlo | hlo
  · rw [if_pos hlo, if_neg (not_lt.2 h), min_eq_left (hlo.le.trans h), max_eq_left hlo.le]
  · rw [if_neg (not_lt.2 hlo)]
    rcases lt_or_ge hi value with hhi | hhi
    · rw [if_pos hhi, min_eq_right hhi.le, max_eq_right h]
    · rw [if_neg (not_lt.2 hhi), min_eq_left hhi, max_eq_right hlo]

end SensorBridge.Foundation
