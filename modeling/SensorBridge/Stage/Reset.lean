import SensorBridge.Stage.Filter
import SensorBridge.Stage.Fusion
import Mathlib.Tactic.FieldSimp
import Mathlib.Tactic.LinearCombination
import Mathlib.Tactic.NormNum
import Mathlib.Tactic.NormNum.OfScientific
import Mathlib.Tactic.Ring

/-!
# Resetting a stage

A stage restores its initial state when, reset after any inputs, it answers further inputs like
one that is freshly constructed (`Restores`). A chain does when both its stages do
(`Restores.chain`). The filters do: whatever their `reset` leaves behind is either a constructor
argument or never read again, as the part of `sorted` that a median filter has not written since
(`restores_medianFilter`).

The Kalman filter is the exception. Its `reset` writes `0.0` and `1.0`, which are the values of
`default_params` and not those the filter was constructed with. So it restores what was
constructed with these two values, in any arithmetic, and in exact arithmetic otherwise only
a filter without measurement noise, which forgets its past at every measurement
(`restores_iff`).
-/

namespace SensorBridge.Stage

open Foundation Foundation.Replies Foundation.Transducer
open scoped Foundation.Exact

universe u

variable {ι μ ο : Type u}

/-- Reset after any inputs, the stage answers like one freshly constructed. -/
def Restores (S : Stage ι ο) : Prop :=
  ∀ xs, Alike S.process (S.reset (Replies.after S.process S.init xs)) S.init

/-- It is enough that an invariant of `process` brings `reset` back to a state like the first. -/
theorem restores_of_invariant {S : Stage ι ο} (I : S.State → Prop) (hinit : I S.init)
    (hstep : ∀ s x, I s → I (S.process s x).1) (hreset : ∀ s, I s → Alike S.process (S.reset s) S.init) :
    Restores S :=
  fun xs => hreset _ (after_invariant hstep hinit xs)

/-- It is enough that `reset` makes the initial state of every state that the invariant allows. -/
theorem restores_of_reset_eq {S : Stage ι ο} (I : S.State → Prop) (hinit : I S.init)
    (hstep : ∀ s x, I s → I (S.process s x).1) (hreset : ∀ s, I s → S.reset s = S.init) : Restores S := by
  refine restores_of_invariant I hinit hstep fun s hs xs => ?_
  rw [hreset s hs]

/-- What a chain is after a list of inputs: its second stage has been fed what the first put out. -/
theorem after_chain (S₁ : Stage ι μ) (S₂ : Stage μ ο) (xs : List ι) :
    Replies.after (S₁.chain S₂).process (S₁.chain S₂).init xs =
      (Replies.after S₁.process S₁.init xs, Replies.after S₂.process S₂.init (S₁.outputs xs)) := by
  rw [process_chain]
  exact after_comp S₁.init S₂.init xs

/-- **A chain restores its initial state** when both stages do. -/
theorem Restores.chain {S₁ : Stage ι μ} {S₂ : Stage μ ο} (h₁ : Restores S₁) (h₂ : Restores S₂) :
    Restores (S₁.chain S₂) := by
  intro xs
  rw [after_chain, process_chain]
  exact alike_comp (h₁ xs) (h₂ (S₁.outputs xs))

/-! ### The filters -/

variable {F G T α β : Type u} {window capacity : ℕ}

section
variable [FloatOps F] [Filterable F T]

theorem restores_movingAverage [NeZero window] : Restores (MovingAverage.stage F T window) :=
  restores_of_reset_eq (fun _ => True) trivial (fun _ _ _ => trivial) fun _ _ => rfl

omit [Filterable F T] in
/-- A filter as its constructor makes it has no value yet. -/
theorem ExponentialMovingAverage.value_of_new [DecidableLT F] [DecidableLE F] {alpha : F}
    {s : ExponentialMovingAverage F T} (h : new alpha = some s) : s.value = none := by
  unfold new at h
  split at h
  · cases h
    rfl
  · cases h

theorem restores_exponentialMovingAverage {s : ExponentialMovingAverage F T} (h : s.value = none) :
    Restores s.stage := by
  obtain ⟨alpha, value⟩ := s
  obtain rfl : value = none := h
  refine restores_of_reset_eq (fun t : ExponentialMovingAverage F T => t.alpha = alpha) rfl ?_ ?_
  · intro t x ht
    exact ht
  · intro t ht
    exact congrArg (fun a => (⟨a, none⟩ : ExponentialMovingAverage F T)) ht

theorem restores_lowPassFilter {s : LowPassFilter F T} (h : s.ema.value = none) : Restores s.stage := by
  obtain ⟨alpha, value⟩ := s
  obtain rfl : value = none := h
  refine restores_of_reset_eq (fun t : LowPassFilter F T => t.ema.alpha = alpha) rfl ?_ ?_
  · intro t x ht
    exact ht
  · intro t ht
    exact congrArg (fun a => (⟨⟨a, none⟩⟩ : LowPassFilter F T)) ht

theorem restores_highPassFilter (cutoffHz sampleRateHz : F) :
    Restores (HighPassFilter.new cutoffHz sampleRateHz : HighPassFilter F T).stage := by
  refine restores_of_reset_eq
    (fun t : HighPassFilter F T => t.alpha = (HighPassFilter.new cutoffHz sampleRateHz : HighPassFilter F T).alpha)
    rfl ?_ ?_
  · intro t x ht
    exact ht
  · intro t ht
    obtain ⟨alpha, prevInput, prevOutput⟩ := t
    obtain rfl := ht
    rfl

end

theorem restores_timestampSync [NeZero capacity] (toleranceNs : ℕ) :
    Restores (TimestampSync.stage α β capacity toleranceNs) := by
  refine restores_of_reset_eq (fun t : TimestampSync β capacity => t.toleranceNs = toleranceNs) rfl ?_ ?_
  · intro t x ht
    cases x with
    | primary data =>
      have hkept : (t.matchPrimary (α := α) data).1.toleranceNs = t.toleranceNs := by
        unfold TimestampSync.matchPrimary TimestampSync.matchWith
        split <;> rfl
      exact hkept.trans ht
    | secondary data => exact ht
  · intro t ht
    obtain ⟨buffer, tolerance, unmatched⟩ := t
    obtain rfl : tolerance = toleranceNs := ht
    rfl

/-! ### The median filter -/

/-- Two arrays with the same first entries. -/
def Agree (len : ℕ) (a b : ℕ → T) : Prop := ∀ i < len, a i = b i

theorem Agree.update {len : ℕ} {a b : ℕ → T} (h : Agree len a b) (j : ℕ) (value : T) :
    Agree len (Function.update a j value) (Function.update b j value) := by
  intro i hi
  by_cases hij : i = j
  · subst hij
    simp
  · simp [Function.update_of_ne hij, h i hi]

namespace MedianFilter

section
variable [LT T] [DecidableLT T]

/-- The inner loop only looks at entries below where it starts. -/
theorem sink_agree {len : ℕ} {a b : ℕ → T} (h : Agree len a b) (key : T) {j : ℕ} (hj : j < len) :
    Agree len (sink key j a) (sink key j b) := by
  induction j generalizing a b with
  | zero => exact h.update 0 key
  | succ j ih =>
    rw [sink, sink, h j (by omega)]
    split
    · exact ih (h.update (j + 1) (b j)) (by omega)
    · exact h.update (j + 1) key

/-- The outer loop, over any positions in the window. -/
theorem foldl_sink_agree {len : ℕ} (is : List ℕ) (his : ∀ i ∈ is, i < len) {a b : ℕ → T} (h : Agree len a b) :
    Agree len (is.foldl (fun a i => sink (a i) i a) a) (is.foldl (fun a i => sink (a i) i a) b) := by
  induction is generalizing a b with
  | nil => exact h
  | cons i is ih =>
    have hi : i < len := his i (List.mem_cons_self ..)
    have hsink : Agree len (sink (a i) i a) (sink (b i) i b) := by
      rw [h i hi]
      exact sink_agree h (b i) hi
    exact ih (fun j hj => his j (List.mem_cons_of_mem i hj)) hsink

theorem sort_agree {len : ℕ} {a b : ℕ → T} (h : Agree len a b) : Agree len (sort len a) (sort len b) := by
  refine foldl_sink_agree _ (fun i hi => ?_) h
  have := List.mem_range'_1.1 hi
  omega

/-- Two filters that have the same window, whatever they have sorted last. -/
structure SameWindow (s t : MedianFilter T) : Prop where
  buffer_eq : s.buffer = t.buffer
  index_eq : s.index = t.index
  count_eq : s.count = t.count

/-- The median is that of the window: what was sorted before does not show. -/
theorem computeMedian_eq [NeZero window] {s t : MedianFilter T} (h : SameWindow s t) (hcount : 0 < s.count) :
    (s.computeMedian window).2 = (t.computeMedian window).2 := by
  have hwindow : 0 < window := Nat.pos_of_neZero window
  have hlen : min s.count window / 2 < min s.count window := by omega
  have hagree : Agree (min s.count window)
      (fun i => if i < min s.count window then s.buffer i else s.sorted i)
      (fun i => if i < min s.count window then s.buffer i else t.sorted i) := by
    intro i hi
    simp [hi]
  unfold computeMedian
  rw [← h.buffer_eq, ← h.count_eq]
  exact sort_agree hagree _ hlen

/-- An input is answered alike, and the windows stay the same. -/
theorem SameWindow.process [NeZero window] {s t : MedianFilter T} (h : SameWindow s t) (input : T) :
    (s.process window input).2 = (t.process window input).2 ∧
      SameWindow (s.process window input).1 (t.process window input).1 := by
  have hwindow : 0 < window := Nat.pos_of_neZero window
  obtain ⟨buffer, sorted, index, count⟩ := s
  obtain ⟨buffer', sorted', index', count'⟩ := t
  obtain ⟨rfl, rfl, rfl⟩ : buffer = buffer' ∧ index = index' ∧ count = count' :=
    ⟨h.buffer_eq, h.index_eq, h.count_eq⟩
  constructor
  · refine congrArg some (computeMedian_eq ⟨rfl, rfl, rfl⟩ ?_)
    change 0 < if count < window then count + 1 else count
    split <;> omega
  · exact ⟨rfl, rfl, rfl⟩

end

end MedianFilter

/-- **The median filter restores its initial state**, though `sorted` is left as it is. -/
theorem restores_medianFilter [Inhabited T] [LT T] [DecidableLT T] [NeZero window] :
    Restores (MedianFilter.stage T window) := by
  refine restores_of_invariant (fun _ => True) trivial (fun _ _ _ => trivial) fun s _ => ?_
  exact alike_of_bisimulation MedianFilter.SameWindow (fun s t x h => h.process x) ⟨rfl, rfl, rfl⟩

/-! ### The Kalman filter -/

namespace KalmanFilter1D

/-- Constructed with the two values that `reset` writes. -/
structure Standard [FloatOps G] (k : KalmanFilter1D G) : Prop where
  estimate_eq : k.estimate = 0.0
  errorCovariance_eq : k.errorCovariance = 1.0

/-- `process` leaves the noises as they are. -/
structure SameNoise (k s : KalmanFilter1D G) : Prop where
  processNoise_eq : s.processNoise = k.processNoise
  measurementNoise_eq : s.measurementNoise = k.measurementNoise

theorem reset_eq [FloatOps G] {k s : KalmanFilter1D G} (h : SameNoise k s) :
    s.reset = ⟨0.0, 1.0, k.processNoise, k.measurementNoise⟩ := by
  obtain ⟨estimate, errorCovariance, processNoise, measurementNoise⟩ := s
  obtain rfl : processNoise = k.processNoise := h.processNoise_eq
  obtain rfl : measurementNoise = k.measurementNoise := h.measurementNoise_eq
  rfl

/-- A filter restores its initial state when the reset filter answers like the constructed one. -/
theorem restores_of_alike [FloatOps G] {k : KalmanFilter1D G}
    (h : Alike process (⟨0.0, 1.0, k.processNoise, k.measurementNoise⟩ : KalmanFilter1D G) k) :
    Restores k.stage := by
  refine restores_of_invariant (S := k.stage) (SameNoise k) ⟨rfl, rfl⟩ ?_ ?_
  · intro s x hs
    exact ⟨hs.processNoise_eq, hs.measurementNoise_eq⟩
  · intro s hs
    have hreset : k.stage.reset s = ⟨0.0, 1.0, k.processNoise, k.measurementNoise⟩ := reset_eq hs
    rw [hreset]
    exact h

theorem restores_of_standard [FloatOps G] {k : KalmanFilter1D G} (h : k.Standard) : Restores k.stage := by
  refine restores_of_alike fun xs => ?_
  rw [← h.estimate_eq, ← h.errorCovariance_eq]

section
variable {K : Type u} [Field K] [LinearOrder K] [IsStrictOrderedRing K]

/-- No division by zero at the first measurement, neither as constructed nor after a reset. -/
structure Divides (k : KalmanFilter1D K) : Prop where
  constructed : k.errorCovariance + k.processNoise + k.measurementNoise ≠ 0
  reset : 1 + k.processNoise + k.measurementNoise ≠ 0

omit [IsStrictOrderedRing K] in
theorem estimate_update (k : KalmanFilter1D K) (z : K) :
    (k.update z).estimate = k.estimate + (k.errorCovariance + k.processNoise) /
      (k.errorCovariance + k.processNoise + k.measurementNoise) * (z - k.estimate) := rfl

theorem errorCovariance_update (k : KalmanFilter1D K) (z : K) :
    (k.update z).errorCovariance = (1 - (k.errorCovariance + k.processNoise) /
      (k.errorCovariance + k.processNoise + k.measurementNoise)) * (k.errorCovariance + k.processNoise) := by
  have hone : (1.0 : K) = 1 := by norm_num
  rw [← hone]
  rfl

/-- Without measurement noise a measurement replaces the estimate, and nothing is uncertain. -/
theorem update_of_noiseless {k : KalmanFilter1D K} (hnoise : k.measurementNoise = 0)
    (hne : k.errorCovariance + k.processNoise ≠ 0) (z : K) :
    k.update z = ⟨z, 0, k.processNoise, 0⟩ := by
  have hgain : (k.errorCovariance + k.processNoise) /
      (k.errorCovariance + k.processNoise + k.measurementNoise) = 1 := by
    rw [hnoise, add_zero, div_self hne]
  have hestimate : (k.update z).estimate = z := by
    rw [estimate_update, hgain]
    ring
  have hcovariance : (k.update z).errorCovariance = 0 := by
    rw [errorCovariance_update, hgain]
    ring
  calc k.update z = ⟨(k.update z).estimate, (k.update z).errorCovariance, k.processNoise, k.measurementNoise⟩ := rfl
    _ = ⟨z, 0, k.processNoise, 0⟩ := by rw [hestimate, hcovariance, hnoise]

/-- A filter that restores its initial state weighs the first measurement like the reset one. -/
theorem estimate_of_restores {k : KalmanFilter1D K} (h : Restores k.stage) (z : K) :
    (1 + k.processNoise) / (1 + k.processNoise + k.measurementNoise) * z =
      k.estimate + (k.errorCovariance + k.processNoise) /
        (k.errorCovariance + k.processNoise + k.measurementNoise) * (z - k.estimate) := by
  have houtput : some (k.reset.update z).estimate = some (k.update z).estimate := (h []).output z
  have hzero : (0.0 : K) = 0 := by norm_num
  have hone : (1.0 : K) = 1 := by norm_num
  have hreset : (k.reset.update z).estimate = (0.0 : K) + ((1.0 : K) + k.processNoise) /
      ((1.0 : K) + k.processNoise + k.measurementNoise) * (z - (0.0 : K)) := rfl
  rw [← estimate_update, ← Option.some.inj houtput, hreset, hzero, hone, zero_add, sub_zero]

/-- **When a filter restores its initial state**, in exact arithmetic. -/
theorem restores_stage_iff {k : KalmanFilter1D K} (h : k.Divides) :
    Restores k.stage ↔ k.Standard ∨ k.measurementNoise = 0 := by
  have hzero : (0.0 : K) = 0 := by norm_num
  have hone : (1.0 : K) = 1 := by norm_num
  have hconstructed := h.constructed
  have hreset := h.reset
  constructor
  · intro hrestores
    rcases eq_or_ne k.measurementNoise 0 with hnoise | hnoise
    · exact .inr hnoise
    · have hzeroth := estimate_of_restores hrestores 0
      have hfirst := estimate_of_restores hrestores 1
      -- a first measurement of zero gives the estimate, one of one the gain
      have hestimate : k.estimate * k.measurementNoise = 0 := by
        rw [mul_zero, zero_sub] at hzeroth
        field_simp at hzeroth
        linear_combination -hzeroth
      have hestimate : k.estimate = 0 := (mul_eq_zero.1 hestimate).resolve_right hnoise
      have hcovariance : (k.errorCovariance - 1) * k.measurementNoise = 0 := by
        rw [hestimate] at hfirst
        field_simp at hfirst
        linear_combination -hfirst
      have hcovariance := (mul_eq_zero.1 hcovariance).resolve_right hnoise
      refine .inl ⟨by rw [hzero, hestimate], ?_⟩
      rw [hone]
      linear_combination hcovariance
  · rintro (hstandard | hnoise)
    · exact restores_of_standard hstandard
    · rw [hnoise, add_zero] at hconstructed hreset
      refine restores_of_alike (alike_of_eq fun z => ?_)
      have hstandard := update_of_noiseless
        (k := ⟨0.0, 1.0, k.processNoise, k.measurementNoise⟩) hnoise (by rwa [hone]) z
      unfold process
      rw [hstandard, update_of_noiseless hnoise hconstructed z]

end

end KalmanFilter1D

/-! ### What is built from the filters -/

/-- The stages with a state, as their constructors make them, and chains of them. Only the Kalman
filters that `ok` allows are used. -/
inductive Built (F : Type u) [FloatOps F] [DecidableLT F] [DecidableLE F] [FloatOps G]
    (ok : KalmanFilter1D G → Prop) : {ι ο : Type u} → Stage ι ο → Prop
  | movingAverage {T : Type u} [Filterable F T] {window : ℕ} [NeZero window] :
    Built F ok (MovingAverage.stage F T window)
  | exponentialMovingAverage {T : Type u} [Filterable F T] {alpha : F} {s : ExponentialMovingAverage F T}
    (h : ExponentialMovingAverage.new alpha = some s) : Built F ok s.stage
  | lowPassFilter {T : Type u} [Filterable F T] {cutoffHz sampleRateHz : F} {s : LowPassFilter F T}
    (h : LowPassFilter.new cutoffHz sampleRateHz = some s) : Built F ok s.stage
  | highPassFilter {T : Type u} [Filterable F T] (cutoffHz sampleRateHz : F) :
    Built F ok (HighPassFilter.new cutoffHz sampleRateHz : HighPassFilter F T).stage
  | medianFilter {T : Type u} [Inhabited T] [LT T] [DecidableLT T] {window : ℕ} [NeZero window] :
    Built F ok (MedianFilter.stage T window)
  | kalmanFilter1D {k : KalmanFilter1D G} (h : ok k) : Built F ok k.stage
  | timestampSync {α β : Type u} {capacity : ℕ} [NeZero capacity] (toleranceNs : ℕ) :
    Built F ok (TimestampSync.stage α β capacity toleranceNs)
  | chain {ι μ ο : Type u} {S₁ : Stage ι μ} {S₂ : Stage μ ο} (h₁ : Built F ok S₁) (h₂ : Built F ok S₂) :
    Built F ok (S₁.chain S₂)

/-- What is built from Kalman filters that restore their initial state does so too. -/
theorem Built.restores [FloatOps F] [DecidableLT F] [DecidableLE F] [FloatOps G]
    {ok : KalmanFilter1D G → Prop} (hok : ∀ k, ok k → Restores k.stage) {S : Stage ι ο} (h : Built F ok S) :
    Restores S := by
  induction h with
  | movingAverage => exact restores_movingAverage
  | exponentialMovingAverage h =>
    exact restores_exponentialMovingAverage (ExponentialMovingAverage.value_of_new h)
  | lowPassFilter h =>
    obtain ⟨ema, hema, rfl⟩ := Option.map_eq_some_iff.1 h
    exact restores_lowPassFilter (ExponentialMovingAverage.value_of_new hema)
  | highPassFilter cutoffHz sampleRateHz => exact restores_highPassFilter cutoffHz sampleRateHz
  | medianFilter => exact restores_medianFilter
  | kalmanFilter1D h => exact hok _ h
  | timestampSync toleranceNs => exact restores_timestampSync toleranceNs
  | chain _ _ ih₁ ih₂ => exact ih₁.chain ih₂

/-- **When stages restore their initial state**: in any arithmetic if their Kalman filters are
constructed with the values that `reset` writes; and in exact arithmetic exactly if they are
constructed with these or without measurement noise. -/
theorem restores_iff {F G K : Type u} [FloatOps F] [DecidableLT F] [DecidableLE F] [FloatOps G] [Field K]
    [LinearOrder K] [IsStrictOrderedRing K] {ok : KalmanFilter1D K → Prop} (hok : ∀ k, ok k → k.Divides) :
    (∀ {ι ο : Type u} {S : Stage ι ο}, Built F (KalmanFilter1D.Standard (G := G)) S → Restores S) ∧
      ((∀ {ι ο : Type u} {S : Stage ι ο}, Built F ok S → Restores S) ↔
        ∀ k, ok k → k.Standard ∨ k.measurementNoise = 0) := by
  constructor
  · intro ι ο S hS
    exact hS.restores fun k hk => KalmanFilter1D.restores_of_standard hk
  · constructor
    · intro h k hk
      exact (KalmanFilter1D.restores_stage_iff (hok k hk)).1 (h (.kalmanFilter1D (F := F) hk))
    · intro h ι ο S hS
      exact hS.restores fun k hk => (KalmanFilter1D.restores_stage_iff (hok k hk)).2 (h k hk)

/-- A median filter before a Kalman filter, with the default parameters and without noise. -/
theorem restores_medianFilter_kalmanFilter1D :
    Restores ((MedianFilter.stage ℚ 3).chain (KalmanFilter1D.defaultParams : KalmanFilter1D ℚ).stage) ∧
      Restores ((MedianFilter.stage ℚ 3).chain (KalmanFilter1D.new 5 1 0.01 0 : KalmanFilter1D ℚ).stage) := by
  have hdivides : ∀ k : KalmanFilter1D ℚ, k = .new 5 1 0.01 0 → k.Divides := by
    rintro k rfl
    exact ⟨by decide +kernel, by decide +kernel⟩
  have hnoise : ∀ k : KalmanFilter1D ℚ, k = .new 5 1 0.01 0 → k.Standard ∨ k.measurementNoise = 0 := by
    rintro k rfl
    exact .inr rfl
  have hrestores := restores_iff (F := ℚ) (G := ℚ) hdivides
  constructor
  · exact hrestores.1 (.chain .medianFilter (.kalmanFilter1D ⟨rfl, rfl⟩))
  · exact hrestores.2.2 hnoise (.chain .medianFilter (.kalmanFilter1D rfl))

/-- Constructed with another first estimate, a Kalman filter does not restore its initial state. -/
theorem not_forall_restores : ¬ ∀ {ι ο : Type} {S : Stage ι ο},
    Built ℚ (fun _ : KalmanFilter1D ℚ => True) S → Restores S := by
  intro h
  have hrestores := h (.kalmanFilter1D (F := ℚ) (k := .new 5 1 0.01 0.1) trivial)
  have hestimate := KalmanFilter1D.estimate_of_restores hrestores 0
  revert hestimate
  decide +kernel

end SensorBridge.Stage
