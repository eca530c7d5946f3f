import Mathlib.Data.List.Basic
import Mathlib.Logic.Function.Basic
import Mathlib.Tactic.SplitIfs

/-!
# Windows of a circular store

A store of `N` slots read round and round: from slot `t` on, `n` slots, each index
taken modulo `N`. `gap N t h` is how many slots there are from `t` round to `h`.
A circular buffer holds the window from its read index to its write index; the
lemmas say what moving either end, and writing a slot, does to it.
-/

namespace SensorBridge.Foundation.Cyclic

universe u

variable {β : Type u} {N t h n : ℕ} {b : ℕ → β}

theorem add_mod_cases (ht : t < N) (hn : n ≤ N) :
    (t + n) % N = if t + n < N then t + n else t + n - N := by
  split_ifs with hlt
  · exact Nat.mod_eq_of_lt hlt
  · rw [Nat.mod_eq_sub_mod (by omega), Nat.mod_eq_of_lt (by omega)]

theorem succ_mod_cases (ht : t < N) : (t + 1) % N = if t + 1 < N then t + 1 else 0 := by
  rw [add_mod_cases ht (by omega)]
  split_ifs <;> omega

/-! ### The gap between two indices -/

/-- How many slots there are from slot `t` round to slot `h`. -/
def gap (N t h : ℕ) : ℕ := (h + N - t) % N

theorem gap_cases (ht : t < N) (hh : h < N) : gap N t h = if t ≤ h then h - t else h + N - t := by
  unfold gap
  split_ifs with hle
  · rw [show h + N - t = h - t + N by omega, Nat.add_mod_right, Nat.mod_eq_of_lt (by omega)]
  · exact Nat.mod_eq_of_lt (by omega)

theorem gap_lt (ht : t < N) : gap N t h < N := Nat.mod_lt _ (by omega)

@[simp] theorem gap_self (ht : t < N) : gap N t t = 0 := by simp [gap_cases ht ht]

theorem gap_eq_zero_iff (ht : t < N) (hh : h < N) : gap N t h = 0 ↔ t = h := by
  rw [gap_cases ht hh]
  split_ifs <;> omega

/-- Going the gap on from `t` leads to `h`. -/
theorem add_gap_mod (ht : t < N) (hh : h < N) : (t + gap N t h) % N = h := by
  rw [add_mod_cases ht (Nat.le_of_lt (gap_lt ht)), gap_cases ht hh]
  split_ifs <;> omega

/-- The slot after `h` is `t` exactly when all but one slot lie between them. -/
theorem succ_mod_eq_iff (ht : t < N) (hh : h < N) : (h + 1) % N = t ↔ gap N t h + 1 = N := by
  rw [succ_mod_cases hh, gap_cases ht hh]
  split_ifs <;> omega

theorem gap_succ_right (ht : t < N) (hh : h < N) (hne : (h + 1) % N ≠ t) :
    gap N t ((h + 1) % N) = gap N t h + 1 := by
  rw [gap_cases ht (Nat.mod_lt _ (by omega)), gap_cases ht hh]
  rw [succ_mod_cases hh] at hne ⊢
  split_ifs at hne ⊢ <;> omega

theorem gap_succ_left (ht : t < N) (hh : h < N) (hne : t ≠ h) :
    gap N t h = gap N ((t + 1) % N) h + 1 := by
  rw [gap_cases ht hh, gap_cases (Nat.mod_lt _ (by omega)) hh, succ_mod_cases ht]
  split_ifs <;> omega

/-! ### Windows -/

/-- The `n` slots of the store from slot `t` on. -/
def window (N : ℕ) (b : ℕ → β) (t n : ℕ) : List β := (List.range n).map fun i => b ((t + i) % N)

@[simp] theorem window_zero : window N b t 0 = [] := rfl

@[simp] theorem length_window : (window N b t n).length = n := by simp [window]

theorem window_succ : window N b t (n + 1) = window N b t n ++ [b ((t + n) % N)] := by
  simp [window, List.range_succ]

theorem window_succ_left (ht : t < N) :
    window N b t (n + 1) = b t :: window N b ((t + 1) % N) n := by
  simp only [window, List.range_succ_eq_map, List.map_cons, List.map_map, Nat.add_zero,
    Nat.mod_eq_of_lt ht, List.cons.injEq, true_and]
  refine List.map_congr_left fun i _ => ?_
  simp only [Function.comp, Nat.succ_eq_add_one, Nat.mod_add_mod]
  rw [show t + (i + 1) = t + 1 + i by omega]

/-- Writing a slot outside the window leaves the window as it is. -/
theorem window_update (ht : t < N) (hh : h < N) (hn : n ≤ gap N t h) (x : β) :
    window N (Function.update b h x) t n = window N b t n := by
  refine List.map_congr_left fun i hi => Function.update_of_ne (fun he => ?_) _ _
  have hi := List.mem_range.mp hi
  have hg := gap_lt (N := N) (h := h) ht
  rw [add_mod_cases ht (by omega)] at he
  rw [gap_cases ht hh] at hn
  split_ifs at he hn <;> omega

end SensorBridge.Foundation.Cyclic
