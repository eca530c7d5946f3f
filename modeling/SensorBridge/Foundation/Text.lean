import SensorBridge.Foundation.FloatOps
import Mathlib.Data.NNRat.Floor
import Mathlib.Tactic.IntervalCases

/-!
# Numbers as text

A natural number is written by its decimal digits, without a zero in front. A float is written with a
given number of digits after the point: what it stands for is rounded to so many, the half to an
even last digit, and the sign is written also of a zero (`fixed`). What stands for no number is
written as a word.
-/

namespace SensorBridge.Foundation

universe u

/-! ### What floats stand for -/

/-- What a float stands for. A zero has a sign too. -/
inductive FloatValue where
  | nan
  | infinite (negative : Bool)
  | finite (negative : Bool) (magnitude : ℚ≥0)

/-- A float that can be written. -/
class FloatDisplay (F : Type u) extends FloatOps F where
  /-- What it stands for. -/
  value : F → FloatValue

namespace Exact

/-- A rational number stands for itself. -/
scoped instance floatDisplay : FloatDisplay ℚ where
  value x := .finite (decide (x < 0)) (Rat.nnabs x)

end Exact

variable {F : Type u} [FloatDisplay F]

/-- `is_finite`. -/
def IsFinite (x : F) : Prop := ∃ negative magnitude, FloatDisplay.value x = .finite negative magnitude

open scoped Exact in
theorem isFinite_exact (x : ℚ) : IsFinite x := ⟨_, _, rfl⟩

/-! ### Digits -/

/-- Digits, and there are some. -/
def Digits (cs : List Char) : Prop := cs ≠ [] ∧ ∀ c ∈ cs, c.isDigit = true

/-- Digits that begin with a zero only if they are no more than that. -/
def Numeral (cs : List Char) : Prop := Digits cs ∧ (cs.head? = some '0' → cs = ['0'])

theorem digits_toDigits (n : ℕ) : Digits (Nat.toDigits 10 n) :=
  ⟨Nat.toDigits_ne_nil, fun _ hc => Nat.isDigit_of_mem_toDigits (by decide) (by decide) hc⟩

theorem head?_toDigits {n : ℕ} (h : (Nat.toDigits 10 n).head? = some '0') : n = 0 := by
  induction n using Nat.strong_induction_on with
  | _ n ih =>
    rcases Nat.lt_or_ge n 10 with hlt | hge
    · rw [Nat.toDigits_of_lt_base hlt, List.head?_cons, Option.some.injEq] at h
      interval_cases n <;> first | rfl | exact absurd h (by decide)
    · rw [Nat.toDigits_of_base_le (by decide) hge, List.head?_append_of_ne_nil _ Nat.toDigits_ne_nil] at h
      have hzero := ih (n / 10) (by omega) h
      omega

theorem numeral_toDigits (n : ℕ) : Numeral (Nat.toDigits 10 n) := by
  refine ⟨digits_toDigits n, fun hzero => ?_⟩
  rw [head?_toDigits hzero]
  rfl

/-! ### Floats -/

/-- To the nearest, a half to the even one. -/
def roundHalfEven (q : ℚ≥0) : ℕ :=
  let lo := ⌊q⌋₊
  if q - lo < 1 / 2 then lo else if 1 / 2 < q - lo then lo + 1 else if lo % 2 = 0 then lo else lo + 1

/-- `n` units of the last of `precision` digits after the point. -/
def pointed (precision n : ℕ) : List Char :=
  if precision = 0 then Nat.toDigits 10 n
  else Nat.toDigits 10 (n / 10 ^ precision) ++
    '.' :: (Nat.toDigits 10 (n % 10 ^ precision)).leftpad precision '0'

/-- The sign. -/
def sign (negative : Bool) : List Char := if negative then ['-'] else []

/-- A float, with so many digits after the point. -/
def fixed (precision : ℕ) (x : F) : String :=
  match FloatDisplay.value x with
  | .nan => "NaN"
  | .infinite negative => .ofList (sign negative ++ "inf".toList)
  | .finite negative magnitude =>
    .ofList (sign negative ++ pointed precision (roundHalfEven (magnitude * 10 ^ precision)))

/-- A decimal: a numeral, with a sign or not, a point and digits. -/
def Decimal (cs : List Char) : Prop :=
  ∃ negative whole fraction, Numeral whole ∧ Digits fraction ∧ cs = sign negative ++ whole ++ '.' :: fraction

theorem digits_leftpad {cs : List Char} (h : Digits cs) (n : ℕ) : Digits (cs.leftpad n '0') := by
  refine ⟨fun hnil => h.1 (List.append_eq_nil_iff.1 hnil).2, fun c hc => ?_⟩
  rcases List.mem_append.1 hc with hc | hc
  · rw [List.eq_of_mem_replicate hc]
    rfl
  · exact h.2 c hc

/-- A finite float is written as a decimal. -/
theorem decimal_fixed {precision : ℕ} (hpos : 0 < precision) {x : F} (h : IsFinite x) :
    Decimal (fixed precision x).toList := by
  obtain ⟨negative, magnitude, hvalue⟩ := h
  have hfixed : (fixed precision x).toList =
      sign negative ++ pointed precision (roundHalfEven (magnitude * 10 ^ precision)) := by
    rw [fixed, hvalue, String.toList_ofList]
  rw [hfixed, pointed, if_neg hpos.ne', ← List.append_assoc]
  exact ⟨negative, _, _, numeral_toDigits _, digits_leftpad (digits_toDigits _) precision, rfl⟩

/-- The characters that a float is written with. -/
def IsFloatChar (c : Char) : Prop := c.isDigit = true ∨ c ∈ "-.NaNinf".toList

theorem isFloatChar_sign {negative : Bool} {c : Char} (h : c ∈ sign negative) : IsFloatChar c := by
  cases negative with
  | false => exact absurd h List.not_mem_nil
  | true =>
    rw [List.mem_singleton.1 h]
    exact .inr (by decide)

theorem isFloatChar_pointed {precision n : ℕ} {c : Char} (h : c ∈ pointed precision n) : IsFloatChar c := by
  unfold pointed at h
  split at h
  · exact .inl ((digits_toDigits _).2 c h)
  · rcases List.mem_append.1 h with h | h
    · exact .inl ((digits_toDigits _).2 c h)
    · rcases List.mem_cons.1 h with rfl | h
      · exact .inr (by decide)
      · exact .inl ((digits_leftpad (digits_toDigits _) precision).2 c h)

/-- Whatever a float stands for, it is written with these. -/
theorem isFloatChar_fixed {precision : ℕ} {x : F} : ∀ c ∈ (fixed precision x).toList, IsFloatChar c := by
  have hword : "inf".toList ⊆ "-.NaNinf".toList := by decide
  have hnan : "NaN".toList ⊆ "-.NaNinf".toList := by decide
  intro c hc
  unfold fixed at hc
  split at hc
  · exact .inr (hnan hc)
  · rw [String.toList_ofList] at hc
    rcases List.mem_append.1 hc with hc | hc
    · exact isFloatChar_sign hc
    · exact .inr (hword hc)
  · rw [String.toList_ofList] at hc
    rcases List.mem_append.1 hc with hc | hc
    · exact isFloatChar_sign hc
    · exact isFloatChar_pointed hc

/-! ### Lines -/

/-- `str::lines`: a line ends in `\n` or `\r\n`, the last one may also end with the text. -/
def splitLines : List Char → List Char → List (List Char)
  | [], [] => []
  | [], line => [line]
  | '\n' :: cs, line => (if line.getLast? = some '\r' then line.dropLast else line) :: splitLines cs []
  | c :: cs, line => splitLines cs (line ++ [c])

/-- The lines of a text. -/
def lines (text : String) : List String := (splitLines text.toList []).map .ofList

end SensorBridge.Foundation
