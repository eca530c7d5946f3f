import SensorBridge.Metrics.JitterThreads

/-!
# The range of a jitter tracker

`range` loads the minimum, then the maximum and, when that is zero, the count, and subtracts. Any
number of threads may be in it, and in `record`, at once. A call of `record` lowers the minimum
first and raises the maximum later, so the minimum that was loaded may be that of a call which
has not come to the maximum yet; and the maximum, of another call, may be less. Then the
subtraction underflows (`not_forall_neverUnderflows`).

It does so exactly when `range` loads the maximum too early (`neverUnderflows_iff_reachBy`): no
call whose sample is as great as the minimum it has loaded is through with raising the maximum,
though the maximum is not zero, or the count is not when it is loaded in turn.
-/

namespace SensorBridge.Metrics

open Foundation Foundation.Extremum Threads
open scoped Foundation.Exact

universe u

/-! ### What a call of `record` has done to the maximum -/

/-- Where the loop for the maximum is. -/
def JitterPc.max : JitterPc → Progress ℕ
  | .updateMin _ => .load
  | .updateMax p => p
  | _ => .finished

theorem JitterPc.max_afterMin (p : Progress ℕᵒᵈ) : (JitterPc.afterMin p).max = .load := by cases p <;> rfl

theorem JitterPc.max_afterMax (p : Progress ℕ) : (JitterPc.afterMax p).max = p := by cases p <;> rfl

/-- A call, as the loop that raises the maximum sees it. -/
def JitterCall.raising (call : JitterCall) : ℕ × Progress ℕ := (call.latencyNs, call.pc.max)

namespace Jitter

/-- The maximum is that of the calls that are through with raising it. -/
structure MaxInv (s : Jitter) : Prop where
  raised : Raised 0 s.tracker.max (s.calls.map JitterCall.raising)
  attained : Attained 0 s.tracker.max (s.calls.map JitterCall.raising)

theorem maxInv_new : MaxInv ⟨.new, [], []⟩ := ⟨Raised.nil 0, .inl rfl⟩

section
variable {F : Type u} [FloatToU64 F] [DecidableLT F] {s s' : Jitter} {a : Act}

omit [FloatToU64 F] [DecidableLT F] in
/-- A step that the loop for the maximum does not see. -/
theorem MaxInv.same (h : MaxInv s) {i x : ℕ} {pc pc' : JitterPc} {t : JitterTracker} {order : List ℕ}
    (hi : s.calls[i]? = some ⟨x, pc⟩) (hpc : pc'.max = pc.max) (ht : t.max = s.tracker.max) :
    MaxInv ⟨t, s.calls.set i ⟨x, pc'⟩, order⟩ := by
  have hsame : JitterCall.raising ⟨x, pc'⟩ = JitterCall.raising ⟨x, pc⟩ := by
    rw [JitterCall.raising, JitterCall.raising, hpc]
  have hcalls := map_set_eq_self hi hsame
  exact ⟨by rw [hcalls, ht]; exact h.raised, by rw [hcalls, ht]; exact h.attained⟩

theorem MaxInv.step (h : MaxInv s) (hs : Step F s a s') : MaxInv s' := by
  cases hs with
  | @record x _ =>
    refine ⟨?_, ?_⟩
    · rw [List.map_append]
      exact h.raised.concat x
    · rw [List.map_append]
      exact h.attained.concat _
  | updateMin hi => exact h.same hi (JitterPc.max_afterMin _) rfl
  | @updateMax i x p spurious hi =>
    have hi' : (s.calls.map JitterCall.raising)[i]? = some (x, p) := by
      rw [List.getElem?_map, hi]
      rfl
    have hcalls : (s.calls.set i ⟨x, .afterMax (advance x s.tracker.max spurious p).2⟩).map JitterCall.raising =
        (s.calls.map JitterCall.raising).set i (x, (advance x s.tracker.max spurious p).2) := by
      rw [List.map_set, JitterCall.raising, JitterPc.max_afterMax]
    refine ⟨?_, ?_⟩
    · rw [goto, hcalls]
      exact h.raised.advance hi' spurious
    · rw [goto, hcalls]
      exact h.attained.advance hi' spurious
  | loadCount hi => exact h.same hi rfl rfl
  | loadMean hi => exact h.same hi rfl rfl
  | loadM2 hi => exact h.same hi rfl rfl
  | fail hi _ => exact h.same hi rfl rfl
  | exchange hi _ => exact h.same hi rfl rfl
  | storeMean hi => exact h.same hi rfl rfl
  | storeM2 hi => exact h.same hi rfl rfl

end

end Jitter

/-! ### Calls of `range` -/

/-- Where a call of `range` is: what it does next. -/
inductive RangePc where
  /-- `min.load()`. -/
  | loadMin
  /-- `max.load()`; it has the minimum. -/
  | loadMax (min : Option ℕ)
  /-- `count.load()`; the maximum was zero. -/
  | loadCount (min : Option ℕ)
  /-- It has returned. -/
  | returned
  deriving DecidableEq

/-- A tracker in use, with the calls of `range` made so far. -/
structure Ranging where
  jitter : Jitter
  /-- The calls of `range`, in the order in which they began. -/
  readers : List RangePc
  /-- The subtractions: the maximum, and the minimum. -/
  evaluated : List (ℕ × ℕ)

namespace Ranging

/-- What can happen next. -/
inductive Act where
  /-- Something happens to a call of `record`, or one begins. -/
  | jitter (a : Jitter.Act)
  /-- A thread calls `range`. -/
  | range
  /-- Call `j` of `range` takes its next step. -/
  | read (j : ℕ)

/-- Call `j` of `range` goes on to `pc`. -/
def setReader (s : Ranging) (j : ℕ) (pc : RangePc) : Ranging := { s with readers := s.readers.set j pc }

/-- `range` has loaded the maximum, and subtracts if there is a minimum. -/
def evaluate (s : Ranging) (j max : ℕ) : Option ℕ → Ranging
  | some min => { s.setReader j .returned with evaluated := s.evaluated ++ [(max, min)] }
  | none => s.setReader j .returned

/-- The next step of call `j` of `range`. -/
def stepReader (s : Ranging) (j : ℕ) : RangePc → Option Ranging
  | .loadMin => some (s.setReader j (.loadMax s.jitter.tracker.min?))
  | .loadMax min =>
    if s.jitter.tracker.max = 0 then some (s.setReader j (.loadCount min))
    else some (s.evaluate j s.jitter.tracker.max min)
  | .loadCount min =>
    -- without a maximum, nothing is subtracted
    if s.jitter.tracker.count = 0 then some (s.setReader j .returned) else some (s.evaluate j 0 min)
  | .returned => none

/-- **The subtraction never underflows.** -/
def NeverUnderflows (s : Ranging) : Prop := ∀ w ∈ s.evaluated, w.2 ≤ w.1

/-- Whether a call whose sample is no less than `min` is through with raising the maximum. -/
def raisedTo (s : Ranging) (min : ℕ) : Bool :=
  s.jitter.calls.any fun call => decide (call.pc.max = .finished ∧ min ≤ call.latencyNs)

/-- **What it takes of a step**: the maximum is loaded when it is zero, or when a call whose sample is
no less than the minimum that was loaded is through with raising it; and after a maximum of zero
the count is loaded when it is zero, or the minimum was. -/
def covered (s : Ranging) : Act → Bool
  | .read j => match s.readers[j]? with
    | some (.loadMax (some min)) => decide (s.jitter.tracker.max = 0) || s.raisedTo min
    | some (.loadCount (some min)) => decide (s.jitter.tracker.count = 0) || decide (min = 0)
    | _ => true
  | _ => true

section
variable (F : Type u) [FloatToU64 F] [DecidableLT F]

/-- One step. -/
def step (s : Ranging) : Act → Option Ranging
  | .jitter a => (s.jitter.step F a).map fun jitter => { s with jitter }
  | .range => some { s with readers := s.readers ++ [.loadMin] }
  | .read j => s.readers[j]?.bind (s.stepReader j)

/-- A new tracker. -/
def machine : Machine Ranging Act where
  init s := s = ⟨⟨.new, [], []⟩, [], []⟩
  step := step F

variable {F} {s s' : Ranging} {a : Act}

omit [FloatToU64 F] [DecidableLT F] in
/-- A call of `range` does not write. -/
theorem jitter_of_stepReader {j : ℕ} {pc : RangePc} (h : s.stepReader j pc = some s') : s'.jitter = s.jitter := by
  cases pc with
  | loadMin => cases h; rfl
  | loadMax min =>
    simp only [stepReader] at h
    split_ifs at h
    · cases h; rfl
    · cases h; cases min <;> rfl
  | loadCount min =>
    simp only [stepReader] at h
    split_ifs at h
    · cases h; rfl
    · cases h; cases min <;> rfl
  | returned => cases h

theorem maxInv_of_reach (h : (machine F).Reach s) : s.jitter.MaxInv := by
  refine h.invariant (I := fun s => s.jitter.MaxInv) ?_ ?_
  · intro s hs
    obtain rfl := hs
    exact Jitter.maxInv_new
  · intro s a s' hs _ hstep
    cases a with
    | jitter a =>
      obtain ⟨jitter, hjitter, rfl⟩ := Option.map_eq_some_iff.1 hstep
      exact hs.step (Jitter.step_of_eq_some hjitter)
    | range =>
      cases hstep
      exact hs
    | read j =>
      obtain ⟨pc, -, hread⟩ := Option.bind_eq_some_iff.1 hstep
      rw [jitter_of_stepReader hread]
      exact hs

omit [FloatToU64 F] [DecidableLT F] in
/-- A maximum that is not zero is no less than a minimum exactly when it was raised to that. -/
theorem le_max_iff (h : s.jitter.MaxInv) (hmax : s.jitter.tracker.max ≠ 0) (min : ℕ) :
    min ≤ s.jitter.tracker.max ↔ s.raisedTo min = true := by
  rw [h.attained.le_iff h.raised hmax, raisedTo, List.any_eq_true]
  constructor
  · rintro ⟨t, ht, hdone, hle⟩
    obtain ⟨call, hcall, rfl⟩ := List.mem_map.1 ht
    exact ⟨call, hcall, decide_eq_true ⟨hdone, hle⟩⟩
  · rintro ⟨call, hcall, hdone⟩
    exact ⟨_, List.mem_map_of_mem hcall, of_decide_eq_true hdone⟩

/-- What a step does to the subtractions: one is added that does not underflow exactly when the step
is covered; any other step is covered. -/
theorem evaluated_step (h : s.jitter.MaxInv) (hs : s.step F a = some s') :
    (s'.evaluated = s.evaluated ∧ s.covered a = true) ∨
      ∃ w, s'.evaluated = s.evaluated ++ [w] ∧ (w.2 ≤ w.1 ↔ s.covered a = true) := by
  cases a with
  | jitter a =>
    obtain ⟨jitter, -, rfl⟩ := Option.map_eq_some_iff.1 hs
    exact .inl ⟨rfl, rfl⟩
  | range =>
    cases hs
    exact .inl ⟨rfl, rfl⟩
  | read j =>
    obtain ⟨pc, hj, hread⟩ := Option.bind_eq_some_iff.1 hs
    cases pc with
    | loadMin =>
      cases hread
      exact .inl ⟨rfl, by simp [covered, hj]⟩
    | loadMax min =>
      simp only [stepReader] at hread
      split_ifs at hread with hmax
      · cases hread
        exact .inl ⟨rfl, by cases min <;> simp [covered, hj, hmax]⟩
      · cases hread
        cases min with
        | none => exact .inl ⟨rfl, by simp [covered, hj]⟩
        | some min =>
          refine .inr ⟨_, rfl, ?_⟩
          rw [le_max_iff h hmax]
          simp [covered, hj, hmax]
    | loadCount min =>
      simp only [stepReader] at hread
      split_ifs at hread with hcount
      · cases hread
        exact .inl ⟨rfl, by cases min <;> simp [covered, hj, hcount]⟩
      · cases hread
        cases min with
        | none => exact .inl ⟨rfl, by simp [covered, hj]⟩
        | some min => exact .inr ⟨_, rfl, by simp [covered, hj, hcount]⟩
    | returned => cases hread

/-- **The subtraction never underflows exactly when every step was covered.** -/
theorem neverUnderflows_iff_reachBy (s : Ranging) (h : (machine F).Reach s) :
    NeverUnderflows s ↔ (machine F).ReachBy (fun s a => s.covered a = true) s := by
  refine Machine.ReachBy.forall_log_iff evaluated ?_ ?_ h
  · rintro s rfl
    rfl
  · intro s a s' hr hs
    exact evaluated_step (maxInv_of_reach hr) hs

end

/-- Steps of one call of `record` in a row. -/
def stepsOf (i n : ℕ) : List Act := List.replicate n (.jitter (.step i false))

/-- A call that lowers the minimum and raises the maximum before `range` loads the latter. -/
theorem neverUnderflows_iff_reachBy_shared :
    ∃ s, NeverUnderflows s ∧ (machine ℚ).Reach s ∧ s.evaluated = [(10, 10)] := by
  obtain ⟨s, hs, htest⟩ := Machine.exists_reachBy_of_runBy (M := machine ℚ) (C := fun s a => s.covered a = true) rfl
    ([.jitter (.record 10)] ++ stepsOf 0 2 ++ [.range, .read 0] ++ stepsOf 0 2 ++ [.read 0])
    (fun s => decide (s.evaluated = [(10, 10)])) (by decide +kernel)
  exact ⟨s, (neverUnderflows_iff_reachBy s hs.reach).2 hs, hs.reach, of_decide_eq_true htest⟩

/-- Two threads record 10 and 5. The first has lowered the minimum to 10 when `range` loads it, and
not raised the maximum yet when it loads that, which is 5 by then. -/
theorem not_forall_neverUnderflows : ¬ ∀ s : Ranging, (machine ℚ).Reach s → NeverUnderflows s := by
  intro h
  obtain ⟨s, hs, htest⟩ := Machine.exists_reach_of_run (M := machine ℚ) rfl
    ([.jitter (.record 10)] ++ stepsOf 0 2 ++ [.range, .read 0, .jitter (.record 5)] ++ stepsOf 1 4 ++ [.read 0])
    (fun s => decide (s.evaluated = [(5, 10)])) (by decide +kernel)
  have hunderflow := h s hs (5, 10) (by rw [of_decide_eq_true htest]; exact List.mem_singleton_self _)
  exact absurd hunderflow (by decide)

end Ranging

end SensorBridge.Metrics
