import Mathlib.Data.List.Range
import Mathlib.Order.Basic
import Mathlib.Tactic.Linarith

/-!
# Gaps in a sequence of numbers

Numbers are given out from zero on, some get lost, and the others arrive in order. A receiver that
expects the next number after each one it gets counts those that are skipped (`skipped`). That is
how many of the lost ones come before the last that it got: `skipped_eq_countP`.
-/

namespace SensorBridge.Foundation

/-- How many numbers are skipped by these, when `expected` is next. -/
def skipped : ℕ → List ℕ → ℕ
  | _, [] => 0
  | expected, x :: xs => x - expected + skipped (x + 1) xs

/-- What is expected after these. -/
def expectedAfter (expected : ℕ) (xs : List ℕ) : ℕ := xs.getLast?.elim expected (· + 1)

variable {expected n : ℕ} {xs ys lost : List ℕ}

theorem expectedAfter_cons (expected x : ℕ) (xs : List ℕ) :
    expectedAfter expected (x :: xs) = expectedAfter (x + 1) xs := by
  rw [expectedAfter, expectedAfter, List.getLast?_cons]
  cases xs.getLast? <;> rfl

/-- What arrives in order and what is skipped is all there is up to the last. -/
theorem skipped_add_length (h : xs.Pairwise (· < ·)) (hle : ∀ x ∈ xs, expected ≤ x) :
    expected + xs.length + skipped expected xs = expectedAfter expected xs := by
  induction xs generalizing expected with
  | nil => rfl
  | cons x xs ih =>
    obtain ⟨hx, hxs⟩ := List.pairwise_cons.1 h
    have hfirst := hle x List.mem_cons_self
    have hrest : x + 1 + xs.length + skipped (x + 1) xs = expectedAfter (x + 1) xs := ih hxs hx
    rw [expectedAfter_cons, ← hrest, skipped, List.length_cons]
    omega

theorem lt_expectedAfter (h : xs.Pairwise (· < ·)) {x : ℕ} (hx : x ∈ xs) : x < expectedAfter expected xs := by
  induction xs generalizing expected with
  | nil => cases hx
  | cons y ys ih =>
    obtain ⟨hy, hys⟩ := List.pairwise_cons.1 h
    rw [expectedAfter_cons]
    rcases List.mem_cons.1 hx with rfl | hx
    · have : x + 1 + ys.length + skipped (x + 1) ys = expectedAfter (x + 1) ys := skipped_add_length hys hy
      omega
    · exact ih hys hx

theorem expectedAfter_le (h : (xs ++ ys).Pairwise (· < ·)) {y : ℕ} (hy : y ∈ ys) : expectedAfter 0 xs ≤ y := by
  rcases hlast : xs.getLast? with _ | x
  · rw [expectedAfter, hlast]
    exact Nat.zero_le y
  · rw [expectedAfter, hlast]
    exact (List.pairwise_append.1 h).2.2 x (List.mem_of_getLast? hlast) y hy

theorem countP_lt_range (b n : ℕ) : (List.range n).countP (· < b) = min b n := by
  induction n with
  | zero => rw [Nat.min_zero]; rfl
  | succ n ih =>
    rw [List.range_succ, List.countP_append, ih, List.countP_singleton]
    simp only [decide_eq_true_eq]
    split_ifs <;> omega

/-- **What is skipped is what was lost**, up to the last that arrived. -/
theorem skipped_eq_countP (h : (xs ++ ys).Pairwise (· < ·)) (hperm : (xs ++ ys ++ lost).Perm (List.range n)) :
    skipped 0 xs = lost.countP (· < expectedAfter 0 xs) := by
  have hsorted := (List.pairwise_append.1 h).1
  have hlength := skipped_add_length hsorted fun x _ => Nat.zero_le x
  have hle : expectedAfter 0 xs ≤ n := by
    rcases hlast : xs.getLast? with _ | x
    · rw [expectedAfter, hlast]
      exact Nat.zero_le n
    · rw [expectedAfter, hlast]
      have hmem := hperm.subset (List.mem_append_left _ (List.mem_append_left _ (List.mem_of_getLast? hlast)))
      exact List.mem_range.1 hmem
  have hcount := hperm.countP_eq (· < expectedAfter 0 xs)
  have hrange := countP_lt_range (expectedAfter 0 xs) n
  have hxs : xs.countP (· < expectedAfter 0 xs) = xs.length :=
    List.countP_eq_length.2 fun x hx => decide_eq_true (lt_expectedAfter hsorted hx)
  have hys : ys.countP (· < expectedAfter 0 xs) = 0 :=
    List.countP_eq_zero.2 fun y hy => by simpa using expectedAfter_le h hy
  rw [List.countP_append, List.countP_append, hrange, hxs, hys] at hcount
  omega

end SensorBridge.Foundation
