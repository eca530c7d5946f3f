import SensorBridge.Stage.Windowed
import SensorBridge.Foundation.Recurrence
import Mathlib.Tactic.NormNum.OfScientific

/-!
# The filters of the first order

The exponential moving average and the high-pass filter keep one value, which a sample multiplies
and adds to: recurrences of the first order, with a first sample that is passed through.

With exact arithmetic the average is a mean of all samples with weights that fall off by
`1 - alpha` and add to one, so it is between the least and the greatest of them
(`exponentialMovingAverage_eq_weightedMean`). What the high-pass filter adds up are the changes
from one sample to the next, of which an offset shows in the first sample alone; what it has left
of it falls off by `alpha` (`highPass_rejects_offset`).
-/

namespace SensorBridge.Stage

open Foundation Foundation.Replies Foundation.Recurrence
open scoped Filterable Foundation.Exact

universe u

variable {K : Type u} [Field K] [LinearOrder K]

/-! ### Exponential moving average -/

namespace ExponentialMovingAverage

/-- The mean with weights that fall off by `1 - alpha`: `xs` are the samples `x_0..x_n`. -/
def weightedMean (alpha : K) (xs : List K) : K :=
  (1 - alpha) ^ (xs.length - 1) * xs.getD 0 0 +
    ∑ k ∈ Finset.Icc 1 (xs.length - 1), alpha * (1 - alpha) ^ (xs.length - 1 - k) * xs.getD k 0

/-- It solves the recurrence of the filter. -/
theorem weightedMean_cons (alpha x : K) (us : List K) :
    weightedMean alpha (x :: us) = solve (1 - alpha) x (us.map (alpha * ·)) := by
  have hlength : (x :: us).length - 1 = us.length := rfl
  have hterms : ∀ k ∈ Finset.range us.length,
      alpha * (1 - alpha) ^ (us.length - (1 + k)) * (x :: us).getD (1 + k) 0 =
        (1 - alpha) ^ (us.length - 1 - k) * (us.map (alpha * ·)).getD k 0 := by
    intro k hk
    have hk := Finset.mem_range.1 hk
    have hsample : (us.map (alpha * ·)).getD k 0 = alpha * us.getD k 0 := by
      simp [List.getD_eq_getElem?_getD, List.getElem?_eq_getElem hk]
    rw [Nat.add_comm 1 k, List.getD_cons_succ, hsample, Nat.sub_sub, Nat.add_comm 1 k]
    ring
  rw [weightedMean, solve_eq_sum, hlength, List.length_map, ← Finset.Ico_add_one_right_eq_Icc,
    Finset.sum_Ico_eq_sum_range, Nat.add_sub_cancel, Finset.sum_congr rfl hterms]
  rfl

theorem weightedMean_singleton (alpha x : K) : weightedMean alpha [x] = x := by
  rw [weightedMean_cons, List.map_nil, solve_nil]

theorem weightedMean_concat (alpha : K) {xs : List K} (h : xs ≠ []) (x : K) :
    weightedMean alpha (xs ++ [x]) = x * alpha + weightedMean alpha xs * (1 - alpha) := by
  obtain ⟨x₀, us, rfl⟩ := List.exists_cons_of_ne_nil h
  rw [List.cons_append, weightedMean_cons, weightedMean_cons, List.map_append, List.map_singleton, solve_concat]
  ring

/-- The weights add to one, and none is negative. -/
theorem within_weightedMean [IsStrictOrderedRing K] {alpha : K} (h0 : 0 ≤ alpha) (h1 : alpha ≤ 1) {xs : List K}
    (h : xs ≠ []) : Within xs (weightedMean alpha xs) := by
  induction xs using List.reverseRecOn with
  | nil => exact absurd rfl h
  | append_singleton xs x ih =>
    by_cases hnil : xs = []
    · subst hnil
      rw [List.nil_append, weightedMean_singleton]
      exact within_of_mem (List.mem_singleton_self x)
    · have hblend : x * alpha + weightedMean alpha xs * (1 - alpha) =
          weightedMean alpha xs + alpha * (x - weightedMean alpha xs) := by ring
      rw [weightedMean_concat alpha hnil, hblend]
      exact (ih hnil).blend h0 h1 x

/-- The value is the mean of the samples, if there are any. -/
def Smooths (alpha : K) (s : ExponentialMovingAverage K K) (xs : List K) : Prop :=
  s = ⟨alpha, if xs = [] then none else some (weightedMean alpha xs)⟩

theorem Smooths.process [IsStrictOrderedRing K] {alpha : K} {s : ExponentialMovingAverage K K} {xs : List K}
    (h : s.Smooths alpha xs) (x : K) :
    (s.process x).1.Smooths alpha (xs ++ [x]) ∧ (s.process x).2 = some (weightedMean alpha (xs ++ [x])) := by
  have hone : (1.0 : K) = 1 := by norm_num
  have hvalue : s.process x =
      (⟨alpha, some (weightedMean alpha (xs ++ [x]))⟩, some (weightedMean alpha (xs ++ [x]))) := by
    rw [h]
    by_cases hnil : xs = []
    · subst hnil
      rw [List.nil_append, weightedMean_singleton]
      rfl
    · rw [if_neg hnil, weightedMean_concat alpha hnil, ← hone]
      rfl
  have hne : xs ++ [x] ≠ [] := by simp
  rw [hvalue, Smooths, if_neg hne]
  exact ⟨rfl, rfl⟩

theorem computes_stage [IsStrictOrderedRing K] (alpha : K) :
    (stage ⟨alpha, none⟩ : Stage K K).Computes (weightedMean alpha) (Smooths alpha) where
  init := rfl
  process _ _ x h := h.process x
  reset s xs h := by
    change ExponentialMovingAverage.reset s = _
    rw [h]
    rfl
  tick _ := rfl
  flush _ := rfl

/-- The assertion of `new` is that `alpha` is in `(0, 1]`. -/
theorem new_eq_some_iff [IsStrictOrderedRing K] {alpha : K} {s : ExponentialMovingAverage K K} :
    new alpha = some s ↔ (0 < alpha ∧ alpha ≤ 1) ∧ s = ⟨alpha, none⟩ := by
  have hzero : (0.0 : K) = 0 := by norm_num
  have hone : (1.0 : K) = 1 := by norm_num
  have hnew : (new alpha : Option (ExponentialMovingAverage K K)) =
      if (0.0 : K) < alpha ∧ alpha ≤ (1.0 : K) then some ⟨alpha, none⟩ else none := rfl
  rw [hnew, hzero, hone]
  split_ifs with hrange
  · rw [Option.some.injEq, and_iff_right hrange, eq_comm]
  · exact iff_of_false (fun h => by cases h) fun h => hrange h.1

end ExponentialMovingAverage

/-- A low-pass filter is its average. -/
theorem LowPassFilter.computes_stage [IsStrictOrderedRing K] (alpha : K) :
    (stage ⟨⟨alpha, none⟩⟩ : Stage K K).Computes (ExponentialMovingAverage.weightedMean alpha)
      fun s xs => LowPassFilter.ema s |>.Smooths alpha xs where
  init := (ExponentialMovingAverage.computes_stage alpha).init
  process s xs x h := (ExponentialMovingAverage.computes_stage alpha).process s.ema xs x h
  reset s xs h := (ExponentialMovingAverage.computes_stage alpha).reset s.ema xs h
  tick _ := rfl
  flush _ := rfl

/-- **The exponential moving average is the weighted mean of the samples**: the last output after any
calls, if a sample has come since the last reset, and that of a low-pass filter with this average.
So it is between the least and the greatest sample. -/
theorem exponentialMovingAverage_eq_weightedMean [IsStrictOrderedRing K] (alpha : K)
    (s : ExponentialMovingAverage K K) (hnew : ExponentialMovingAverage.new alpha = some s) (cs : List (Call K))
    (hne : inputs cs ≠ []) :
    (s.stage.outputsSince cs).getLast? = some (ExponentialMovingAverage.weightedMean alpha (inputs cs)) ∧
      ((LowPassFilter.mk s).stage.outputsSince cs).getLast? =
        some (ExponentialMovingAverage.weightedMean alpha (inputs cs)) ∧
      Within (inputs cs) (ExponentialMovingAverage.weightedMean alpha (inputs cs)) := by
  obtain ⟨⟨h0, h1⟩, rfl⟩ := ExponentialMovingAverage.new_eq_some_iff.1 hnew
  exact ⟨(ExponentialMovingAverage.computes_stage alpha).getLast?_outputs hne,
    (LowPassFilter.computes_stage alpha).getLast?_outputs hne,
    ExponentialMovingAverage.within_weightedMean h0.le h1 hne⟩

theorem exponentialMovingAverage_eq_weightedMean_samples :
    ((ExponentialMovingAverage.mk (1 / 4 : ℚ) none).stage.outputsSince samples).getLast? =
        some (ExponentialMovingAverage.weightedMean (1 / 4) (inputs samples)) ∧
      ((LowPassFilter.mk (ExponentialMovingAverage.mk (1 / 4 : ℚ) none)).stage.outputsSince samples).getLast? =
        some (ExponentialMovingAverage.weightedMean (1 / 4) (inputs samples)) ∧
      Within (inputs samples) (ExponentialMovingAverage.weightedMean (1 / 4) (inputs samples)) :=
  exponentialMovingAverage_eq_weightedMean (1 / 4) ⟨1 / 4, none⟩ (if_pos ⟨by norm_num, by norm_num⟩) samples
    (by decide)

/-! ### High pass -/

namespace HighPassFilter

/-- What the filter has made of the samples: a recurrence whose inputs are the changes. -/
def highPass (alpha : K) : List K → K
  | [] => 0
  | x :: xs => solve alpha x ((changes x xs).map (alpha * ·))

theorem highPass_concat (alpha : K) {xs : List K} {prevIn : K} (h : xs.getLast? = some prevIn) (x : K) :
    highPass alpha (xs ++ [x]) = (highPass alpha xs + x - prevIn) * alpha := by
  cases xs with
  | nil => cases h
  | cons x₀ us =>
    have hlast : us.getLastD x₀ = prevIn := by
      rw [List.getLast?_cons, ← List.getLastD_eq_getLast?] at h
      exact Option.some.inj h
    rw [List.cons_append, highPass, highPass, changes_concat, List.map_append, List.map_singleton, solve_concat,
      hlast]
    ring

/-- **An offset** shows in the first sample only. -/
theorem highPass_map_add (alpha c : K) {xs : List K} (h : xs ≠ []) :
    highPass alpha (xs.map (· + c)) = highPass alpha xs + alpha ^ (xs.length - 1) * c := by
  obtain ⟨x, us, rfl⟩ := List.exists_cons_of_ne_nil h
  rw [List.map_cons, highPass, highPass, changes_map_add, solve_add_init, List.length_map, length_changes]
  rfl

/-- The values that are kept are the last sample and what the filter has made of all. -/
def Follows (alpha : K) (s : HighPassFilter K K) (xs : List K) : Prop :=
  s = ⟨alpha, xs.getLast?, xs.getLast?.map fun _ => highPass alpha xs⟩

theorem Follows.process {alpha : K} {s : HighPassFilter K K} {xs : List K} (h : s.Follows alpha xs) (x : K) :
    (s.process x).1.Follows alpha (xs ++ [x]) ∧ (s.process x).2 = some (highPass alpha (xs ++ [x])) := by
  have hvalue : s.process x =
      (⟨alpha, some x, some (highPass alpha (xs ++ [x]))⟩, some (highPass alpha (xs ++ [x]))) := by
    rw [h]
    cases hlast : xs.getLast? with
    | none =>
      rw [List.getLast?_eq_none_iff.1 hlast]
      rfl
    | some prevIn =>
      rw [highPass_concat alpha hlast]
      rfl
  rw [hvalue, Follows, List.getLast?_concat]
  exact ⟨rfl, rfl⟩

theorem computes_stage (alpha : K) :
    (stage ⟨alpha, none, none⟩ : Stage K K).Computes (highPass alpha) (Follows alpha) where
  init := rfl
  process _ _ x h := h.process x
  reset s xs h := by
    change HighPassFilter.reset s = _
    rw [h]
    rfl
  tick _ := rfl
  flush _ := rfl

/-- A constant falls off by `alpha` from the second sample on. -/
theorem highPass_replicate (alpha c : K) (n : ℕ) : highPass alpha (List.replicate (n + 1) c) = alpha ^ n * c := by
  have hinit := solve_add_init alpha 0 c (List.replicate n 0)
  rw [zero_add, solve_zeros, zero_add, List.length_replicate] at hinit
  rw [List.replicate_succ, highPass, changes_replicate, List.map_replicate, mul_zero, hinit]

end HighPassFilter

/-- **The high-pass filter rejects a constant offset**: with the offset `c` on all inputs since the
last reset, the `n`-th output since then is `alpha ^ n * c` more. Fed nothing but `c` it is just
that. -/
theorem highPass_rejects_offset (alpha c : K) (cs cs' : List (Call K))
    (h : inputs cs' = (inputs cs).map (· + c)) :
    (HighPassFilter.mk alpha none none).stage.outputsSince cs' =
        ((HighPassFilter.mk alpha none none).stage.outputsSince cs).mapIdx (fun n y => y + alpha ^ n * c) ∧
      ((HighPassFilter.mk alpha none none).stage.outputsSince cs).length = (inputs cs).length ∧
      ((∀ x ∈ inputs cs, x = c) → (HighPassFilter.mk alpha none none).stage.outputsSince cs =
        (List.range (inputs cs).length).map fun n => alpha ^ n * c) := by
  have hcomputes := HighPassFilter.computes_stage alpha
  have houtputs := hcomputes.outputs_eq cs
  refine ⟨?_, ?_, ?_⟩
  · rw [houtputs, hcomputes.outputs_eq cs', h, List.length_map]
    refine List.ext_getElem (by simp) fun n hn _ => ?_
    have hn : n < (inputs cs).length := by simpa using hn
    have hlength : ((inputs cs).take (n + 1)).length = n + 1 := List.length_take_of_le hn
    have hne : (inputs cs).take (n + 1) ≠ [] := List.ne_nil_of_length_eq_add_one hlength
    rw [List.getElem_mapIdx, List.getElem_map, List.getElem_map, List.getElem_range, ← List.map_take,
      HighPassFilter.highPass_map_add alpha c hne, hlength, Nat.add_sub_cancel]
  · rw [houtputs, List.length_map, List.length_range]
  · intro hconst
    rw [houtputs]
    refine List.map_congr_left fun n hn => ?_
    have hn := List.mem_range.1 hn
    have htake : (inputs cs).take (n + 1) = List.replicate (n + 1) c := by
      rw [List.eq_replicate_of_mem hconst, List.take_replicate, Nat.min_eq_left (by simpa using hn)]
    rw [htake, HighPassFilter.highPass_replicate]

/-- The samples with an offset. -/
def raised : List (Call ℚ) := [.process 6, .tick, .process 7, .process 11]

theorem highPass_rejects_offset_samples :
    (HighPassFilter.mk (1 / 2 : ℚ) none none).stage.outputsSince raised =
        ((HighPassFilter.mk (1 / 2 : ℚ) none none).stage.outputsSince samples).mapIdx
          (fun n y => y + (1 / 2) ^ n * 2) ∧
      ((HighPassFilter.mk (1 / 2 : ℚ) none none).stage.outputsSince samples).length = (inputs samples).length ∧
      ((∀ x ∈ inputs samples, x = 2) → (HighPassFilter.mk (1 / 2 : ℚ) none none).stage.outputsSince samples =
        (List.range (inputs samples).length).map fun n => (1 / 2) ^ n * 2) :=
  highPass_rejects_offset (1 / 2) 2 samples raised (by decide +kernel)

end SensorBridge.Stage
