import SensorBridge.Metrics.JitterTracker
import SensorBridge.Foundation.Extremum
import SensorBridge.Foundation.Machine

/-!
# A jitter tracker shared by threads

Any number of threads call `record` at once, one atomic access to the cells at a time. The count,
the mean and the sum of squares are loaded one by one; only the count is exchanged, and a call
that has exchanged it stores the other two afterwards.

So a call can win the exchange with values that are not those of the samples counted: another
call has yet to store its own, or has stored them since these were loaded
(`not_forall_recorded`). As long as none does (`current`), the samples are recorded one after
another, in the order of the exchanges (`recorded_of_current`).
-/

namespace SensorBridge.Metrics

open Foundation Foundation.Extremum Threads
open scoped Foundation.Exact

universe u

/-! ### Calls -/

/-- Where a call of `record` is: what it does next. -/
inductive JitterPc where
  /-- The loop that lowers the minimum. -/
  | updateMin (p : Progress ℕᵒᵈ)
  /-- The loop that raises the maximum. -/
  | updateMax (p : Progress ℕ)
  /-- `count.load()`. -/
  | loadCount
  /-- `mean_fp.load()`. -/
  | loadMean (oldCount : ℕ)
  /-- `m2_fp.load()`. -/
  | loadM2 (oldCount oldMeanFp : ℕ)
  /-- The exchange of the count. -/
  | exchange (oldCount oldMeanFp oldM2Fp : ℕ)
  /-- `mean_fp.store()`. -/
  | storeMean (newMeanFp newM2Fp : ℕ)
  /-- `m2_fp.store()`. -/
  | storeM2 (newM2Fp : ℕ)
  /-- It has returned. -/
  | returned
  deriving DecidableEq

namespace JitterPc

/-- The minimum first, then the maximum. -/
def afterMin : Progress ℕᵒᵈ → JitterPc
  | .finished => .updateMax .load
  | p => .updateMin p

/-- The maximum, then the count. -/
def afterMax : Progress ℕ → JitterPc
  | .finished => .loadCount
  | p => .updateMax p

/-- Whether the call has exchanged the count and not yet stored all of the rest. -/
def storing : JitterPc → Bool
  | .storeMean _ _ | .storeM2 _ => true
  | _ => false

/-- Whether the call has exchanged the count. -/
def counted : JitterPc → Bool
  | .storeMean _ _ | .storeM2 _ | .returned => true
  | _ => false

@[simp] theorem counted_afterMin (p : Progress ℕᵒᵈ) : (afterMin p).counted = false := by cases p <;> rfl

@[simp] theorem counted_afterMax (p : Progress ℕ) : (afterMax p).counted = false := by cases p <;> rfl

end JitterPc

/-- A call of `record`. -/
structure JitterCall where
  latencyNs : ℕ
  pc : JitterPc
  deriving DecidableEq

namespace JitterCall

/-- Whether the call has counted a sample `x`. -/
def counts (x : ℕ) (call : JitterCall) : Bool := call.pc.counted && call.latencyNs == x

variable {calls : List JitterCall} {i x : ℕ} {pc : JitterPc}

/-- What has been counted stays the same when a call takes another step than the exchange. -/
theorem countP_counts_set (hi : calls[i]? = some ⟨x, pc⟩) (pc' : JitterPc) (hpc : pc'.counted = pc.counted) (y : ℕ) :
    (calls.set i ⟨x, pc'⟩).countP (counts y) = calls.countP (counts y) := by
  have hset := countP_set_eq (a := (⟨x, pc'⟩ : JitterCall)) (counts y) hi
  simp only [counts, hpc] at hset
  exact Nat.add_right_cancel hset

/-- A call that exchanges the count adds its sample. -/
theorem countP_counts_set_counted (hi : calls[i]? = some ⟨x, pc⟩) (pc' : JitterPc) (hpc : pc.counted = false)
    (hpc' : pc'.counted = true) (y : ℕ) :
    (calls.set i ⟨x, pc'⟩).countP (counts y) = calls.countP (counts y) + if x == y then 1 else 0 := by
  have hset := countP_set_eq (a := (⟨x, pc'⟩ : JitterCall)) (counts y) hi
  have hbefore : counts y ⟨x, pc⟩ = false := by simp [counts, hpc]
  have hafter : counts y ⟨x, pc'⟩ = (x == y) := by simp [counts, hpc']
  rw [hbefore, hafter] at hset
  exact hset

/-- A call that is not storing has nothing to store. -/
theorem ne_storeMean {call : JitterCall} (h : call.pc.storing = false) (m m2 : ℕ) : call.pc ≠ .storeMean m m2 := by
  intro hpc
  rw [hpc] at h
  cases h

theorem ne_storeM2 {call : JitterCall} (h : call.pc.storing = false) (m2 : ℕ) : call.pc ≠ .storeM2 m2 := by
  intro hpc
  rw [hpc] at h
  cases h

end JitterCall

/-! ### The tracker in use -/

/-- A tracker, and the calls made so far. -/
structure Jitter where
  tracker : JitterTracker
  /-- The calls, in the order in which they began. -/
  calls : List JitterCall
  /-- The samples in the order in which their calls exchanged the count; read by proofs only. -/
  order : List ℕ

namespace Jitter

/-- What can happen next. -/
inductive Act where
  /-- A thread calls `record`. -/
  | record (latencyNs : ℕ)
  /-- Call `i` takes its next step; a weak exchange may fail for no reason. -/
  | step (i : ℕ) (spurious : Bool)

/-- Call `i`, with the given sample, goes on to `pc`. -/
def goto (s : Jitter) (i latencyNs : ℕ) (pc : JitterPc) : Jitter :=
  { s with calls := s.calls.set i ⟨latencyNs, pc⟩ }

section
variable (F : Type u) [FloatToU64 F] [DecidableLT F]

/-- **What a step can be.** -/
inductive Step (s : Jitter) : Act → Jitter → Prop where
  | record {x : ℕ} : x < 2 ^ 64 →
      Step s (.record x) { s with calls := s.calls ++ [⟨x, .updateMin .load⟩] }
  | updateMin {i x : ℕ} {p : Progress ℕᵒᵈ} {spurious : Bool} : s.calls[i]? = some ⟨x, .updateMin p⟩ →
      Step s (.step i spurious)
        { s.goto i x (.afterMin (advance (.toDual x) (.toDual s.tracker.min) spurious p).2) with
          tracker := { s.tracker with
            min := OrderDual.ofDual (advance (.toDual x) (.toDual s.tracker.min) spurious p).1 } }
  | updateMax {i x : ℕ} {p : Progress ℕ} {spurious : Bool} : s.calls[i]? = some ⟨x, .updateMax p⟩ →
      Step s (.step i spurious)
        { s.goto i x (.afterMax (advance x s.tracker.max spurious p).2) with
          tracker := { s.tracker with max := (advance x s.tracker.max spurious p).1 } }
  | loadCount {i x : ℕ} {spurious : Bool} : s.calls[i]? = some ⟨x, .loadCount⟩ →
      Step s (.step i spurious) (s.goto i x (.loadMean s.tracker.count))
  | loadMean {i x oldCount : ℕ} {spurious : Bool} : s.calls[i]? = some ⟨x, .loadMean oldCount⟩ →
      Step s (.step i spurious) (s.goto i x (.loadM2 oldCount s.tracker.meanFp))
  | loadM2 {i x oldCount oldMeanFp : ℕ} {spurious : Bool} :
      s.calls[i]? = some ⟨x, .loadM2 oldCount oldMeanFp⟩ →
      Step s (.step i spurious) (s.goto i x (.exchange oldCount oldMeanFp s.tracker.m2Fp))
  | fail {i x oldCount oldMeanFp oldM2Fp : ℕ} {spurious : Bool} :
      s.calls[i]? = some ⟨x, .exchange oldCount oldMeanFp oldM2Fp⟩ →
      (s.tracker.count ≠ oldCount ∨ spurious = true) → Step s (.step i spurious) (s.goto i x .loadCount)
  | exchange {i x oldCount oldMeanFp oldM2Fp : ℕ} :
      s.calls[i]? = some ⟨x, .exchange oldCount oldMeanFp oldM2Fp⟩ → s.tracker.count = oldCount →
      Step s (.step i false)
        { s.goto i x (.storeMean (JitterTracker.welford F oldCount oldMeanFp oldM2Fp x).2.1
            (JitterTracker.welford F oldCount oldMeanFp oldM2Fp x).2.2) with
          tracker := { s.tracker with count := (JitterTracker.welford F oldCount oldMeanFp oldM2Fp x).1 }
          order := s.order ++ [x] }
  | storeMean {i x newMeanFp newM2Fp : ℕ} {spurious : Bool} :
      s.calls[i]? = some ⟨x, .storeMean newMeanFp newM2Fp⟩ →
      Step s (.step i spurious)
        { s.goto i x (.storeM2 newM2Fp) with tracker := { s.tracker with meanFp := newMeanFp } }
  | storeM2 {i x newM2Fp : ℕ} {spurious : Bool} : s.calls[i]? = some ⟨x, .storeM2 newM2Fp⟩ →
      Step s (.step i spurious)
        { s.goto i x .returned with tracker := { s.tracker with m2Fp := newM2Fp } }

/-- The next step of call `i`, which records `x`. -/
def stepCall (s : Jitter) (i x : ℕ) (spurious : Bool) : JitterPc → Option Jitter
  | .updateMin p =>
    some { s.goto i x (.afterMin (advance (.toDual x) (.toDual s.tracker.min) spurious p).2) with
      tracker := { s.tracker with min := OrderDual.ofDual (advance (.toDual x) (.toDual s.tracker.min) spurious p).1 } }
  | .updateMax p =>
    some { s.goto i x (.afterMax (advance x s.tracker.max spurious p).2) with
      tracker := { s.tracker with max := (advance x s.tracker.max spurious p).1 } }
  | .loadCount => some (s.goto i x (.loadMean s.tracker.count))
  | .loadMean oldCount => some (s.goto i x (.loadM2 oldCount s.tracker.meanFp))
  | .loadM2 oldCount oldMeanFp => some (s.goto i x (.exchange oldCount oldMeanFp s.tracker.m2Fp))
  | .exchange oldCount oldMeanFp oldM2Fp =>
    if s.tracker.count = oldCount ∧ spurious = false then
      some { s.goto i x (.storeMean (JitterTracker.welford F oldCount oldMeanFp oldM2Fp x).2.1
          (JitterTracker.welford F oldCount oldMeanFp oldM2Fp x).2.2) with
        tracker := { s.tracker with count := (JitterTracker.welford F oldCount oldMeanFp oldM2Fp x).1 }
        order := s.order ++ [x] }
    else some (s.goto i x .loadCount)
  | .storeMean newMeanFp newM2Fp =>
    some { s.goto i x (.storeM2 newM2Fp) with tracker := { s.tracker with meanFp := newMeanFp } }
  | .storeM2 newM2Fp =>
    some { s.goto i x .returned with tracker := { s.tracker with m2Fp := newM2Fp } }
  | .returned => none

/-- The step function. -/
def step (s : Jitter) : Act → Option Jitter
  | .record latencyNs =>
    if latencyNs < 2 ^ 64 then some { s with calls := s.calls ++ [⟨latencyNs, .updateMin .load⟩] } else none
  | .step i spurious => s.calls[i]?.bind fun call => s.stepCall F i call.latencyNs spurious call.pc

/-- A new tracker. -/
def machine : Machine Jitter Act where
  init s := s = ⟨.new, [], []⟩
  step := step F

variable {F} {s s' : Jitter} {a : Act}

theorem step_of_eq_some (h : s.step F a = some s') : Step F s a s' := by
  cases a with
  | record x =>
    simp only [step, Option.ite_none_right_eq_some, Option.some.injEq] at h
    obtain ⟨hx, rfl⟩ := h
    exact .record hx
  | step i spurious =>
    obtain ⟨⟨x, pc⟩, hi, hcall⟩ := Option.bind_eq_some_iff.mp h
    clear h
    cases pc with
    | updateMin p => cases hcall; exact .updateMin hi
    | updateMax p => cases hcall; exact .updateMax hi
    | loadCount => cases hcall; exact .loadCount hi
    | loadMean oldCount => cases hcall; exact .loadMean hi
    | loadM2 oldCount oldMeanFp => cases hcall; exact .loadM2 hi
    | exchange oldCount oldMeanFp oldM2Fp =>
      simp only [stepCall] at hcall
      split_ifs at hcall with hwon
      · obtain ⟨hcount, rfl⟩ := hwon
        cases hcall
        exact .exchange hi hcount
      · cases hcall
        refine .fail hi ?_
        rcases Decidable.not_and_iff_or_not.mp hwon with hcount | hspurious
        · exact .inl hcount
        · exact .inr (Bool.eq_true_of_not_eq_false hspurious)
    | storeMean newMeanFp newM2Fp => cases hcall; exact .storeMean hi
    | storeM2 newM2Fp => cases hcall; exact .storeM2 hi
    | returned => cases hcall

/-! ### Current values -/

/-- An exchange that succeeds has current values: no call is between its exchange and its last
store, and the mean and the sum of squares are still those that were loaded. -/
def current (s : Jitter) : Act → Bool
  | .step i false =>
    match s.calls[i]?.map JitterCall.pc with
    | some (.exchange oldCount oldMeanFp oldM2Fp) =>
      decide (s.tracker.count = oldCount → s.tracker.meanFp = oldMeanFp ∧ s.tracker.m2Fp = oldM2Fp ∧
        ∀ call ∈ s.calls, call.pc.storing = false)
    | _ => true
  | _ => true

theorem eq_of_current {i x oldCount oldMeanFp oldM2Fp : ℕ} (h : s.current (.step i false) = true)
    (hi : s.calls[i]? = some ⟨x, .exchange oldCount oldMeanFp oldM2Fp⟩) (hcount : s.tracker.count = oldCount) :
    s.tracker.meanFp = oldMeanFp ∧ s.tracker.m2Fp = oldM2Fp ∧ ∀ call ∈ s.calls, call.pc.storing = false := by
  rw [current, hi] at h
  exact of_decide_eq_true h hcount

variable (F) in
/-- The cells beside a tracker that has recorded the samples one after another: they are the same,
but for what the one call that is storing is about to store. -/
structure Inv (s : Jitter) : Prop where
  count_eq : s.tracker.count = (JitterTracker.recordAll F s.order).count
  atMostOne : AtMostOne (fun call => call.pc.storing) s.calls
  storeMean : ∀ call ∈ s.calls, ∀ newMeanFp newM2Fp, call.pc = .storeMean newMeanFp newM2Fp →
    newMeanFp = (JitterTracker.recordAll F s.order).meanFp ∧ newM2Fp = (JitterTracker.recordAll F s.order).m2Fp
  storeM2 : ∀ call ∈ s.calls, ∀ newM2Fp, call.pc = .storeM2 newM2Fp →
    s.tracker.meanFp = (JitterTracker.recordAll F s.order).meanFp ∧
      newM2Fp = (JitterTracker.recordAll F s.order).m2Fp
  settled : (∀ call ∈ s.calls, call.pc.storing = false) →
    s.tracker.meanFp = (JitterTracker.recordAll F s.order).meanFp ∧
      s.tracker.m2Fp = (JitterTracker.recordAll F s.order).m2Fp
  tally : ∀ x, s.order.count x = s.calls.countP (JitterCall.counts x)

theorem inv_new : Inv F ⟨.new, [], []⟩ where
  count_eq := rfl
  atMostOne := atMostOne_nil
  storeMean := by simp
  storeM2 := by simp
  settled _ := ⟨rfl, rfl⟩
  tally := by simp

/-- A call begins. -/
theorem Inv.record (h : Inv F s) (x : ℕ) :
    Inv F { s with calls := s.calls ++ [⟨x, .updateMin .load⟩] } where
  count_eq := h.count_eq
  atMostOne := h.atMostOne.concat rfl
  storeMean call hcall m m2 hpc := by
    rcases List.mem_append.1 hcall with hcall | hcall
    · exact h.storeMean call hcall m m2 hpc
    · obtain rfl := List.mem_singleton.1 hcall
      cases hpc
  storeM2 call hcall m2 hpc := by
    rcases List.mem_append.1 hcall with hcall | hcall
    · exact h.storeM2 call hcall m2 hpc
    · obtain rfl := List.mem_singleton.1 hcall
      cases hpc
  settled hnone := h.settled fun call hcall => hnone call (List.mem_append_left _ hcall)
  tally y := by
    rw [h.tally y, List.countP_append]
    simp [JitterCall.counts, JitterPc.counted]

theorem storing_of_not_counted {pc : JitterPc} (h : pc.counted = false) : pc.storing = false := by
  cases pc <;> first | rfl | cases h

/-- A call takes a step before its exchange. -/
theorem Inv.quiet (h : Inv F s) {i x : ℕ} {pc pc' : JitterPc} {t : JitterTracker}
    (hi : s.calls[i]? = some ⟨x, pc⟩) (hpc : pc.counted = false) (hpc' : pc'.counted = false)
    (hcount : t.count = s.tracker.count) (hmean : t.meanFp = s.tracker.meanFp) (hm2 : t.m2Fp = s.tracker.m2Fp) :
    Inv F { s.goto i x pc' with tracker := t } where
  count_eq := hcount.trans h.count_eq
  atMostOne := h.atMostOne.set hi fun hstoring => by
    rw [storing_of_not_counted hpc'] at hstoring
    cases hstoring
  storeMean call hcall m m2 hstore := by
    rcases List.mem_or_eq_of_mem_set hcall with hcall | rfl
    · exact h.storeMean call hcall m m2 hstore
    · obtain rfl : pc' = .storeMean m m2 := hstore
      cases hpc'
  storeM2 call hcall m2 hstore := by
    rcases List.mem_or_eq_of_mem_set hcall with hcall | rfl
    · exact ⟨hmean.trans (h.storeM2 call hcall m2 hstore).1, (h.storeM2 call hcall m2 hstore).2⟩
    · obtain rfl : pc' = .storeM2 m2 := hstore
      cases hpc'
  settled hnone := by
    have hsettled := h.settled fun call hcall => by
      rcases mem_set_of_mem hi (a := (⟨x, pc'⟩ : JitterCall)) hcall with rfl | hcall
      · exact storing_of_not_counted hpc
      · exact hnone call hcall
    exact ⟨hmean.trans hsettled.1, hm2.trans hsettled.2⟩
  tally y := (h.tally y).trans (JitterCall.countP_counts_set hi pc' (hpc'.trans hpc.symm) y).symm

/-- A call exchanges the count, with current values. -/
theorem Inv.exchange (h : Inv F s) {i x oldCount oldMeanFp oldM2Fp : ℕ}
    (hi : s.calls[i]? = some ⟨x, .exchange oldCount oldMeanFp oldM2Fp⟩) (hcount : s.tracker.count = oldCount)
    (hc : s.current (.step i false) = true) :
    Inv F { s.goto i x (.storeMean (JitterTracker.welford F oldCount oldMeanFp oldM2Fp x).2.1
        (JitterTracker.welford F oldCount oldMeanFp oldM2Fp x).2.2) with
      tracker := { s.tracker with count := (JitterTracker.welford F oldCount oldMeanFp oldM2Fp x).1 }
      order := s.order ++ [x] } := by
  obtain ⟨hmean, hm2, hnone⟩ := eq_of_current hc hi hcount
  obtain ⟨hmean', hm2'⟩ := h.settled hnone
  subst hcount hmean hm2
  have hrecord : JitterTracker.welford F s.tracker.count s.tracker.meanFp s.tracker.m2Fp x =
      ((JitterTracker.recordAll F (s.order ++ [x])).count, (JitterTracker.recordAll F (s.order ++ [x])).meanFp,
        (JitterTracker.recordAll F (s.order ++ [x])).m2Fp) := by
    rw [h.count_eq, hmean', hm2', JitterTracker.recordAll_concat]
    rfl
  rw [hrecord]
  constructor
  · rfl
  · exact atMostOne_set hnone
  · intro call hcall m m2 hpc
    rcases List.mem_or_eq_of_mem_set hcall with hcall | rfl
    · exact absurd hpc (JitterCall.ne_storeMean (hnone call hcall) m m2)
    · cases hpc
      exact ⟨rfl, rfl⟩
  · intro call hcall m2 hpc
    rcases List.mem_or_eq_of_mem_set hcall with hcall | rfl
    · exact absurd hpc (JitterCall.ne_storeM2 (hnone call hcall) m2)
    · cases hpc
  · intro hall
    cases hall _ (List.mem_of_getElem? (getElem?_set_self hi))
  · intro y
    rw [List.count_append, List.count_singleton, h.tally y]
    exact (JitterCall.countP_counts_set_counted hi _ rfl rfl y).symm

/-- The call that is storing stores the mean. -/
theorem Inv.storesMean (h : Inv F s) {i x newMeanFp newM2Fp : ℕ}
    (hi : s.calls[i]? = some ⟨x, .storeMean newMeanFp newM2Fp⟩) :
    Inv F { s.goto i x (.storeM2 newM2Fp) with tracker := { s.tracker with meanFp := newMeanFp } } := by
  obtain ⟨hmean, hm2⟩ := h.storeMean _ (List.mem_of_getElem? hi) _ _ rfl
  -- no other call is storing
  have hother : ∀ (j : ℕ) (call : JitterCall), (s.calls.set i ⟨x, .storeM2 newM2Fp⟩)[j]? = some call →
      call = ⟨x, .storeM2 newM2Fp⟩ ∨ call.pc.storing = false := by
    intro j call hj
    rcases of_getElem?_set hj with ⟨-, rfl⟩ | ⟨hji, hj⟩
    · exact .inl rfl
    · exact .inr (h.atMostOne.eq_false hi rfl hj hji)
  constructor
  · exact h.count_eq
  · exact h.atMostOne.set hi (a := ⟨x, .storeM2 newM2Fp⟩) fun _ => rfl
  · intro call hcall m m2 hpc
    obtain ⟨j, hj⟩ := List.mem_iff_getElem?.mp hcall
    rcases hother j call hj with rfl | hnot
    · cases hpc
    · exact absurd hpc (JitterCall.ne_storeMean hnot m m2)
  · intro call hcall m2 hpc
    obtain ⟨j, hj⟩ := List.mem_iff_getElem?.mp hcall
    rcases hother j call hj with rfl | hnot
    · cases hpc
      exact ⟨hmean, hm2⟩
    · exact absurd hpc (JitterCall.ne_storeM2 hnot m2)
  · intro hall
    cases hall _ (List.mem_of_getElem? (getElem?_set_self hi))
  · intro y
    exact (h.tally y).trans (JitterCall.countP_counts_set hi (.storeM2 newM2Fp) rfl y).symm

/-- The call that is storing stores the sum of squares, and nothing is owed. -/
theorem Inv.storesM2 (h : Inv F s) {i x newM2Fp : ℕ} (hi : s.calls[i]? = some ⟨x, .storeM2 newM2Fp⟩) :
    Inv F { s.goto i x .returned with tracker := { s.tracker with m2Fp := newM2Fp } } := by
  obtain ⟨hmean, hm2⟩ := h.storeM2 _ (List.mem_of_getElem? hi) _ rfl
  have hnone : ∀ call ∈ s.calls.set i ⟨x, .returned⟩, call.pc.storing = false := by
    intro call hcall
    obtain ⟨j, hj⟩ := List.mem_iff_getElem?.mp hcall
    rcases of_getElem?_set hj with ⟨-, rfl⟩ | ⟨hji, hj⟩
    · rfl
    · exact h.atMostOne.eq_false hi rfl hj hji
  constructor
  · exact h.count_eq
  · exact h.atMostOne.set hi fun hstoring => by cases hstoring
  · intro call hcall m m2 hpc
    exact absurd hpc (JitterCall.ne_storeMean (hnone call hcall) m m2)
  · intro call hcall m2 hpc
    exact absurd hpc (JitterCall.ne_storeM2 (hnone call hcall) m2)
  · exact fun _ => ⟨hmean, hm2⟩
  · intro y
    exact (h.tally y).trans (JitterCall.countP_counts_set hi .returned rfl y).symm

theorem Inv.step (h : Inv F s) (hc : s.current a = true) (hs : Step F s a s') : Inv F s' := by
  cases hs with
  | record hx => exact h.record _
  | updateMin hi => exact h.quiet hi rfl (JitterPc.counted_afterMin _) rfl rfl rfl
  | updateMax hi => exact h.quiet hi rfl (JitterPc.counted_afterMax _) rfl rfl rfl
  | loadCount hi => exact h.quiet hi rfl rfl rfl rfl rfl
  | loadMean hi => exact h.quiet hi rfl rfl rfl rfl rfl
  | loadM2 hi => exact h.quiet hi rfl rfl rfl rfl rfl
  | fail hi _ => exact h.quiet hi rfl rfl rfl rfl rfl
  | exchange hi hcount => exact h.exchange hi hcount hc
  | storeMean hi => exact h.storesMean hi
  | storeM2 hi => exact h.storesM2 hi

/-! ### No sample is lost -/

/-- All calls have returned. -/
def AtRest (s : Jitter) : Prop := ∀ call ∈ s.calls, call.pc = .returned

instance (s : Jitter) : Decidable s.AtRest := inferInstanceAs (Decidable (∀ call ∈ s.calls, call.pc = .returned))

variable (F) in
/-- The cells are those of a tracker that has recorded the samples one after another. -/
def Recorded (s : Jitter) : Prop :=
  ∃ order : List ℕ, order.Perm (s.calls.map JitterCall.latencyNs) ∧
    s.tracker.count = (JitterTracker.recordAll F order).count ∧
    s.tracker.meanFp = (JitterTracker.recordAll F order).meanFp ∧
    s.tracker.m2Fp = (JitterTracker.recordAll F order).m2Fp

theorem Inv.recorded (h : Inv F s) (hrest : s.AtRest) : Recorded F s := by
  obtain ⟨hmean, hm2⟩ := h.settled fun call hcall => by rw [hrest call hcall]; rfl
  refine ⟨s.order, List.perm_iff_count.2 fun x => ?_, h.count_eq, hmean, hm2⟩
  rw [h.tally x, List.count, List.countP_map]
  refine List.countP_congr fun call hcall => ?_
  simp [hrest call hcall, JitterCall.counts, JitterPc.counted]

/-- **No sample is lost** when every successful exchange has current values. -/
theorem recorded_of_current (s : Jitter) (h : (machine F).ReachBy (fun s a => s.current a = true) s)
    (hrest : s.AtRest) : Recorded F s := by
  have hinv : Inv F s := by
    refine h.invariant ?_ ?_
    · intro s hs
      obtain rfl := hs
      exact inv_new
    · intro s a s' hs hc hstep
      exact hs.step hc (step_of_eq_some hstep)
  exact hinv.recorded hrest

end

/-- Some steps of one call in a row. -/
def stepsOf (i n : ℕ) : List Act := List.replicate n (.step i false)

/-- Two threads, the second of which fails its exchange and tries again. -/
theorem recorded_of_current_shared :
    ∃ s, (machine ℚ).ReachBy (fun s a => s.current a = true) s ∧ s.AtRest ∧ s.tracker.count = 2 ∧
      Recorded ℚ s := by
  obtain ⟨s, hs, htest⟩ := Machine.exists_reachBy_of_runBy (M := machine ℚ)
    (C := fun s a => s.current a = true) rfl
    ([.record 10, .record 20] ++ stepsOf 0 7 ++ stepsOf 1 6 ++ stepsOf 0 3 ++ stepsOf 1 7)
    (fun s => decide (s.AtRest ∧ s.tracker.count = 2)) (by decide +kernel)
  obtain ⟨hrest, hcount⟩ := of_decide_eq_true htest
  exact ⟨s, hs, hrest, hcount, recorded_of_current s hs hrest⟩

/-- Two threads record 10 and 20. The second loads the count that the first has exchanged and the
mean that it has yet to store: its own mean is 10, and 15 is in no order the mean of that. -/
theorem not_forall_recorded : ¬ ∀ s : Jitter, (machine ℚ).Reach s → s.AtRest → Recorded ℚ s := by
  intro h
  obtain ⟨s, hs, htest⟩ := Machine.exists_reach_of_run (M := machine ℚ) rfl
    ([.record 10, .record 20] ++ stepsOf 0 8 ++ stepsOf 1 9 ++ stepsOf 0 2)
    (fun s => decide (s.AtRest ∧ s.calls.map JitterCall.latencyNs = [10, 20] ∧ s.tracker.meanFp = 10 * 2 ^ 32))
    (by decide +kernel)
  obtain ⟨hrest, hcalls, hmean⟩ := of_decide_eq_true htest
  obtain ⟨order, hperm, -, hmean', -⟩ := h s hs hrest
  rw [hcalls] at hperm
  obtain ⟨a, b, rfl⟩ := List.length_eq_two.1 hperm.length_eq
  have ha : a = 10 ∨ a = 20 := by simpa using hperm.subset (List.mem_cons_self ..)
  rcases ha with rfl | rfl
  · obtain rfl : b = 20 := List.singleton_perm_singleton.1 ((List.perm_cons 10).1 hperm)
    exact absurd (hmean'.symm.trans hmean) (by decide +kernel)
  · have hswap := hperm.trans (List.Perm.swap 20 10 [])
    obtain rfl : b = 10 := List.singleton_perm_singleton.1 ((List.perm_cons 20).1 hswap)
    exact absurd (hmean'.symm.trans hmean) (by decide +kernel)

end Jitter

end SensorBridge.Metrics
