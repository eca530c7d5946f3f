import SensorBridge.Stage.Chain
import SensorBridge.Stage.Filter
import SensorBridge.Foundation.SlidingWindow
import Mathlib.Algebra.BigOperators.Group.List.Basic

/-!
# Stages that look at a window

A stage may be a function of what it has been fed since it was last reset: it answers every input
with `f` of the inputs so far (`Computes`). Then its outputs since the last reset are the
values of `f` on the beginnings of the inputs since then, and what holds of its state and these
inputs at every call holds after any calls (`Computes.outputs_eq`, `Computes.invariant`).

The moving average keeps a sum, from which the oldest sample is taken once the window is full.
With exact arithmetic that is the sum of the window, so every output is the mean of the last
samples (`movingAverage_eq_mean`).
-/

namespace SensorBridge.Stage

open Foundation Foundation.Replies Foundation.SlidingWindow

universe u

variable {ι ο : Type u}

/-! ### Since the last reset -/

/-- The inputs since the last reset, when a call comes. -/
def feed (xs : List ι) : Call ι → List ι
  | .process input => xs ++ [input]
  | .reset => []
  | .tick | .flush => xs

/-- The inputs since the last reset. -/
def inputs (cs : List (Call ι)) : List ι := cs.foldl feed []

/-- The outputs since the last reset, when a call is answered. -/
def collect (ys : List ο) : Call ι × Option ο → List ο
  | (.reset, _) => []
  | (_, output) => ys ++ output.toList

/-- The outputs since the last reset. -/
def outputsSince (S : Stage ι ο) (cs : List (Call ι)) : List ο :=
  (cs.zip (replies S.call S.init cs)).foldl collect []

theorem inputs_concat (cs : List (Call ι)) (c : Call ι) : inputs (cs ++ [c]) = feed (inputs cs) c := by
  rw [inputs, List.foldl_append]
  rfl

theorem outputsSince_concat (S : Stage ι ο) (cs : List (Call ι)) (c : Call ι) :
    S.outputsSince (cs ++ [c]) = collect (S.outputsSince cs) (c, (S.call (after S.call S.init cs) c).2) := by
  rw [outputsSince, replies_concat, List.zip_append (length_replies _ _).symm, List.foldl_append]
  rfl

/-- **A function of the inputs**: every input is answered with `f` of all since the last reset, and
`I` holds of the state and these. -/
structure Computes (S : Stage ι ο) (f : List ι → ο) (I : S.State → List ι → Prop) : Prop where
  init : I S.init []
  process : ∀ s xs x, I s xs → I (S.process s x).1 (xs ++ [x]) ∧ (S.process s x).2 = some (f (xs ++ [x]))
  reset : ∀ s xs, I s xs → I (S.reset s) []
  tick : ∀ s, S.tick s = (s, none)
  flush : ∀ s, S.flush s = (s, none)

namespace Computes

variable {S : Stage ι ο} {f : List ι → ο} {I : S.State → List ι → Prop}

/-- What a call does. -/
theorem call (h : Computes S f I) {s : S.State} {xs : List ι} (hI : I s xs) (c : Call ι) :
    I (S.call s c).1 (feed xs c) := by
  cases c with
  | process x => exact (h.process s xs x hI).1
  | tick =>
    rw [Stage.call, h.tick]
    exact hI
  | reset => exact h.reset s xs hI
  | flush =>
    rw [Stage.call, h.flush]
    exact hI

theorem invariant (h : Computes S f I) (cs : List (Call ι)) : I (after S.call S.init cs) (inputs cs) := by
  induction cs using List.reverseRecOn with
  | nil => exact h.init
  | append_singleton cs c ih =>
    rw [after_concat, inputs_concat]
    exact h.call ih c

/-- The outputs since the last reset. -/
theorem outputs_eq (h : Computes S f I) (cs : List (Call ι)) :
    S.outputsSince cs = (List.range (inputs cs).length).map fun n => f ((inputs cs).take (n + 1)) := by
  induction cs using List.reverseRecOn with
  | nil => rfl
  | append_singleton cs c ih =>
    rw [outputsSince_concat, inputs_concat, ih]
    cases c with
    | process x =>
      have houtput := (h.process _ _ x (h.invariant cs)).2
      have hearlier : ∀ n ∈ List.range (inputs cs).length,
          f ((inputs cs).take (n + 1)) = f ((inputs cs ++ [x]).take (n + 1)) := by
        intro n hn
        rw [List.take_append_of_le_length (List.mem_range.1 hn)]
      have hlast : (inputs cs ++ [x]).take ((inputs cs).length + 1) = inputs cs ++ [x] :=
        List.take_of_length_le (by simp)
      simp only [collect, Stage.call, houtput, feed, Option.toList_some, List.length_append,
        List.length_singleton, List.range_succ, List.map_append, List.map_singleton, hlast]
      rw [List.map_congr_left hearlier]
    | tick => simp only [collect, Stage.call, h.tick, feed, Option.toList_none, List.append_nil]
    | reset => rfl
    | flush => simp only [collect, Stage.call, h.flush, feed, Option.toList_none, List.append_nil]

theorem outputs_nil (h : Computes S f I) {cs : List (Call ι)} (hnil : inputs cs = []) : S.outputsSince cs = [] := by
  rw [h.outputs_eq, hnil]
  rfl

/-- The last of them is `f` of all inputs. -/
theorem getLast?_outputs (h : Computes S f I) {cs : List (Call ι)} (hne : inputs cs ≠ []) :
    (S.outputsSince cs).getLast? = some (f (inputs cs)) := by
  obtain ⟨n, hn⟩ := Nat.exists_eq_succ_of_ne_zero (List.length_pos_iff.2 hne).ne'
  have hall : (inputs cs).take (n + 1) = inputs cs := List.take_of_length_le hn.le
  rw [h.outputs_eq, hn, List.range_succ, List.map_append, List.map_singleton, List.getLast?_concat, hall]

end Computes

/-! ### Moving average -/

variable {F T : Type u} {window : ℕ}

namespace Filterable

/-- Samples of a group, with any products and quotients: sums and differences are exact. -/
scoped instance ofGroup [AddCommGroup T] [HMul T F T] [HDiv T F T] : Filterable F T where
  default := 0

end Filterable

namespace MovingAverage

section
variable [AddCommGroup T] [FloatOps F] [HMul T F T] [HDiv T F T]

variable (F) in
/-- The mean of the last samples. -/
def windowedMean (window : ℕ) (xs : List T) : T := (xs.rtake window).sum / ((min xs.length window : ℕ) : F)

/-- The sum is that of the window, the count its length, and the buffer slides over the samples. -/
structure Averages (s : MovingAverage T window) (xs : List T) : Prop where
  sum_eq : s.sum = (xs.rtake window).sum
  count_eq : s.count = min xs.length window
  slides : Slides 0 (List.ofFn s.buffer) s.index xs

variable [NeZero window]

theorem Averages.buffer_index {s : MovingAverage T window} {xs : List T} (h : s.Averages xs)
    (hle : window ≤ xs.length) : (xs.rtake window).head? = some (s.buffer s.index) := by
  have hslot := h.slides.getElem?_next (by simpa using Nat.pos_of_neZero window) (by simpa using hle)
  rw [List.length_ofFn] at hslot
  rw [← hslot, List.getElem?_ofFn, dif_pos s.index.isLt]

open scoped Filterable in
theorem Averages.process {s : MovingAverage T window} {xs : List T} (h : s.Averages xs) (input : T) :
    (s.process F input).1.Averages (xs ++ [input]) := by
  have hpos := Nat.pos_of_neZero window
  have hlength : (xs ++ [input]).length = xs.length + 1 := by simp
  refine ⟨?_, ?_, ?_⟩
  · change (if window ≤ s.count then s.sum - s.buffer s.index else s.sum) + input = _
    have hcount := h.count_eq
    rcases Nat.lt_or_ge xs.length window with hlt | hle
    · rw [if_neg (by omega), h.sum_eq, rtake_of_length_le hlt.le, rtake_of_length_le (by omega),
        List.sum_append, List.sum_singleton]
    · -- the sum without the oldest sample is that of the rest
      have hwindow := List.eq_cons_of_mem_head? (h.buffer_index hle)
      have hrest : (xs.rtake window).sum = s.buffer s.index + (xs.rtake window).tail.sum := by
        rw [← List.sum_cons, ← hwindow]
      rw [if_pos (by omega), h.sum_eq, rtake_concat hpos hle, List.sum_append, List.sum_singleton, hrest,
        add_sub_cancel_left]
  · change (if window ≤ s.count then s.count else s.count + 1) = _
    have hcount := h.count_eq
    split_ifs <;> omega
  · exact h.slides.update input

open scoped Filterable in
theorem Averages.current_eq {s : MovingAverage T window} {xs : List T} (h : s.Averages xs) :
    s.current F = if xs = [] then none else some (windowedMean F window xs) := by
  have hpos := Nat.pos_of_neZero window
  have hempty : min xs.length window = 0 ↔ xs = [] := by
    rw [← List.length_eq_zero_iff]
    omega
  simp only [current, h.count_eq, h.sum_eq, hempty, windowedMean]

omit [FloatOps F] in
open scoped Filterable in
theorem averages_new : (new : MovingAverage T window).Averages [] where
  sum_eq := by
    rw [List.rtake_nil]
    rfl
  count_eq := (Nat.zero_min window).symm
  slides := slides_ofFn 0

open scoped Filterable in
theorem computes_stage : (stage F T window).Computes (windowedMean F window) Averages where
  init := averages_new
  process s xs x h := by
    have hnext := h.process (F := F) x
    refine ⟨hnext, congrArg some ?_⟩
    change (s.process F x).1.sum / ((s.process F x).1.count : F) = _
    rw [hnext.sum_eq, hnext.count_eq, windowedMean]
  reset _ _ _ := averages_new
  tick _ := rfl
  flush _ := rfl

end

end MovingAverage

open scoped Filterable in
/-- **The moving average is the mean of a sliding window**: after any calls, the outputs since the
last reset are the means of the last `window` samples, or of all while there are fewer; `current`
is the last output, and `len` says how many samples that was. -/
theorem movingAverage_eq_mean [AddCommGroup T] [FloatOps F] [HMul T F T] [HDiv T F T] [NeZero window]
    (cs : List (Call T)) :
    (MovingAverage.stage F T window).outputsSince cs = (List.range (inputs cs).length).map (fun n =>
        MovingAverage.windowedMean F window ((inputs cs).take (n + 1))) ∧
      MovingAverage.current F (after (MovingAverage.stage F T window).call (MovingAverage.stage F T window).init cs) =
        ((MovingAverage.stage F T window).outputsSince cs).getLast? ∧
      MovingAverage.len (after (MovingAverage.stage F T window).call (MovingAverage.stage F T window).init cs) =
        min (inputs cs).length window := by
  have hcomputes : (MovingAverage.stage F T window).Computes (MovingAverage.windowedMean F window)
      MovingAverage.Averages := MovingAverage.computes_stage
  have hwindow := hcomputes.invariant cs
  refine ⟨hcomputes.outputs_eq cs, hwindow.current_eq.trans ?_, hwindow.count_eq⟩
  by_cases hnil : inputs cs = []
  · rw [if_pos hnil, hcomputes.outputs_nil hnil, List.getLast?_nil]
  · rw [if_neg hnil, hcomputes.getLast?_outputs hnil]

/-- Samples that fill a window of two and slide it, and some after a reset. -/
def samples : List (Call ℚ) := [.process 3, .process 6, .process 9, .reset, .process 4, .process 5, .process 9]

open scoped Filterable Foundation.Exact in
theorem movingAverage_eq_mean_samples :
    (MovingAverage.stage ℚ ℚ 2).outputsSince samples = (List.range (inputs samples).length).map (fun n =>
        MovingAverage.windowedMean ℚ 2 ((inputs samples).take (n + 1))) ∧
      MovingAverage.current ℚ (after (MovingAverage.stage ℚ ℚ 2).call (MovingAverage.stage ℚ ℚ 2).init samples) =
        ((MovingAverage.stage ℚ ℚ 2).outputsSince samples).getLast? ∧
      MovingAverage.len (after (MovingAverage.stage ℚ ℚ 2).call (MovingAverage.stage ℚ ℚ 2).init samples) =
        min (inputs samples).length 2 :=
  movingAverage_eq_mean samples

end SensorBridge.Stage
