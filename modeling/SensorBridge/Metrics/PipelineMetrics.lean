import SensorBridge.Foundation.Held
import SensorBridge.Metrics.HistogramThreads
import SensorBridge.Metrics.JitterThreads
import SensorBridge.Metrics.Export
import Mathlib.Tactic.NormNum.OfScientific

/-!
# The metrics of a pipeline, from end to end

A `LatencyTracker` counts an item when it starts and hands out a token for it. The token is completed,
which counts the item as put out and records its latency in the histogram and then in the jitter
tracker, or it is dropped, which records nothing. Any number of threads do so at once, one atomic
access at a time, while others take snapshots: the counts of the histogram and of the jitter tracker
first, the items in and the items out after them.

Whatever the interleaving, every item is accounted for, and a snapshot counts no latency of an item
that it does not count as put out (`consistent_of_reach`). It may count more items out than in: items that
started after it had loaded the items in. The drop rate is then negative.
-/

namespace SensorBridge.Metrics

open Foundation Threads

universe u

variable (F : Type u) [FloatToU64 F] [DecidableLT F]

/-! ### What the instruments' steps leave alone -/

namespace Timing

variable {s s' : Timing}

/-- A step of a call of `record` moves that call. -/
theorem Step.calls_eq {i : ℕ} {spurious : Bool} (h : Step s (.step i spurious) s') :
    ∃ x pc pc', s.calls[i]? = some ⟨x, pc⟩ ∧ s'.calls = s.calls.set i ⟨x, pc'⟩ := by
  cases h with
  | addBucket hi => exact ⟨_, _, _, hi, rfl⟩
  | addCount hi => exact ⟨_, _, _, hi, rfl⟩
  | addSum hi => exact ⟨_, _, _, hi, rfl⟩
  | updateMin hi => exact ⟨_, _, _, hi, rfl⟩
  | updateMax hi => exact ⟨_, _, _, hi, rfl⟩

theorem Inv.count_le_calls (h : Inv s) : s.histogram.count ≤ s.calls.length := by
  rw [h.count_eq]
  exact List.countP_le_length

end Timing

namespace Jitter

variable {F} {s s' : Jitter}

theorem Step.calls_eq {i : ℕ} {spurious : Bool} (h : Step F s (.step i spurious) s') :
    ∃ x pc pc', s.calls[i]? = some ⟨x, pc⟩ ∧ s'.calls = s.calls.set i ⟨x, pc'⟩ := by
  cases h with
  | updateMin hi => exact ⟨_, _, _, hi, rfl⟩
  | updateMax hi => exact ⟨_, _, _, hi, rfl⟩
  | loadCount hi => exact ⟨_, _, _, hi, rfl⟩
  | loadMean hi => exact ⟨_, _, _, hi, rfl⟩
  | loadM2 hi => exact ⟨_, _, _, hi, rfl⟩
  | fail hi => exact ⟨_, _, _, hi, rfl⟩
  | exchange hi => exact ⟨_, _, _, hi, rfl⟩
  | storeMean hi => exact ⟨_, _, _, hi, rfl⟩
  | storeM2 hi => exact ⟨_, _, _, hi, rfl⟩

/-- The count is that of the calls that have exchanged it. -/
def Counted (s : Jitter) : Prop := s.tracker.count = s.calls.countP fun call => call.pc.counted

/-- A step of a call that leaves the count as it is. -/
theorem Counted.quiet (h : Counted s) {i x : ℕ} {pc pc' : JitterPc} {t : JitterTracker} {order : List ℕ}
    (hi : s.calls[i]? = some ⟨x, pc⟩) (hpc : pc'.counted = pc.counted) (ht : t.count = s.tracker.count) :
    Counted { s.goto i x pc' with tracker := t, order := order } := by
  have hset := countP_set_eq (a := (⟨x, pc'⟩ : JitterCall)) (fun call => call.pc.counted) hi
  rw [hpc] at hset
  exact (ht.trans h).trans (Nat.add_right_cancel hset).symm

theorem Counted.step {a : Act} (h : Counted s) (hs : Step F s a s') : Counted s' := by
  cases hs with
  | record hx => simpa [Counted, JitterPc.counted] using h
  | updateMin hi => exact h.quiet hi (JitterPc.counted_afterMin _) rfl
  | updateMax hi => exact h.quiet hi (JitterPc.counted_afterMax _) rfl
  | loadCount hi => exact h.quiet hi rfl rfl
  | loadMean hi => exact h.quiet hi rfl rfl
  | loadM2 hi => exact h.quiet hi rfl rfl
  | fail hi => exact h.quiet hi rfl rfl
  | @exchange i x oldCount oldMeanFp oldM2Fp hi hcount =>
    obtain ⟨newMeanFp, newM2Fp, hstored⟩ : ∃ m m2, (JitterTracker.welford F oldCount oldMeanFp oldM2Fp x).2 = (m, m2) :=
      ⟨_, _, rfl⟩
    have hset := countP_set_eq (a := (⟨x, .storeMean newMeanFp newM2Fp⟩ : JitterCall)) (fun call => call.pc.counted) hi
    rw [hstored]
    subst hcount
    exact (congrArg Nat.succ h).trans hset.symm
  | storeMean hi => exact h.quiet hi rfl rfl
  | storeM2 hi => exact h.quiet hi rfl rfl

theorem Counted.count_le (h : Counted s) : s.tracker.count ≤ s.calls.length := by
  rw [h]
  exact List.countP_le_length

end Jitter

/-! ### Tokens and snapshots -/

/-- A `LatencyToken`, and where the call of `complete` is. -/
inductive TokenPc where
  /-- Its item is on its way. -/
  | started
  /-- `total_output.fetch_add(1)`. -/
  | addOutput (latencyNs : ℕ)
  /-- In call `i` of the histogram's `record`. -/
  | latency (latencyNs i : ℕ)
  /-- In call `j` of the jitter tracker's `record`. -/
  | jitter (latencyNs j : ℕ)
  /-- `complete` has returned. -/
  | completed (latencyNs : ℕ)
  /-- It was dropped, which records nothing. -/
  | dropped
  deriving DecidableEq

namespace TokenPc

/-- The latency of an item that counts as put out. -/
def output : TokenPc → Option ℕ
  | latency latencyNs _ | jitter latencyNs _ | completed latencyNs => some latencyNs
  | started | addOutput _ | dropped => none

/-- Whether it has come to the jitter tracker. -/
def measured : TokenPc → Bool
  | jitter _ _ | completed _ => true
  | _ => false

/-- The call of the histogram it is in. -/
def inLatency : TokenPc → Option ℕ
  | latency _ i => some i
  | _ => none

/-- The call of the jitter tracker it is in. -/
def inJitter : TokenPc → Option ℕ
  | jitter _ j => some j
  | _ => none

/-- Whether nothing is left of it to do. -/
def hasEnded : TokenPc → Bool
  | completed _ | dropped => true
  | _ => false

end TokenPc

/-- The counts of a `PipelineMetricsSnapshot`. -/
structure SnapshotCounts where
  /-- `end_to_end_latency.count`. -/
  latencyCount : ℕ
  /-- `end_to_end_jitter.count`. -/
  jitterCount : ℕ
  totalInput : ℕ
  totalOutput : ℕ
  deriving DecidableEq

/-- Where a call of `snapshot` is. -/
inductive SnapshotPc where
  /-- `end_to_end_latency.snapshot()`. -/
  | loadLatency
  /-- `end_to_end_jitter.snapshot()`. -/
  | loadJitter (latencyCount : ℕ)
  /-- `total_input()`. -/
  | loadInput (latencyCount jitterCount : ℕ)
  /-- `total_output()`. -/
  | loadOutput (latencyCount jitterCount totalInput : ℕ)
  /-- It has returned; `begun` items had started by then, which is read by proofs only. -/
  | taken (counts : SnapshotCounts) (begun : ℕ)
  deriving DecidableEq

/-- A `PipelineMetricsAggregator` in use. -/
structure Tracking where
  /-- `end_to_end_latency`, and the calls of it. -/
  latency : Timing
  /-- `end_to_end_jitter`, and the calls of it. -/
  jitter : Jitter
  totalInput : ℕ
  totalOutput : ℕ
  /-- The tokens, in the order in which they were handed out. -/
  tokens : List TokenPc
  /-- The calls of `snapshot`. -/
  snapshots : List SnapshotPc

namespace Tracking

/-- What can happen next. -/
inductive Act where
  /-- `LatencyTracker::start`. -/
  | start
  /-- `LatencyToken::complete` is called for token `k`, this long after it started. -/
  | complete (k latencyNs : ℕ)
  /-- Token `k` is dropped. -/
  | drop (k : ℕ)
  /-- The call of `complete` for token `k` takes its next step; a weak exchange may fail for no reason. -/
  | step (k : ℕ) (spurious : Bool)
  /-- A thread calls `snapshot`. -/
  | snapshot
  /-- Call `m` of `snapshot` takes its next step. -/
  | load (m : ℕ)

/-- Token `k` goes on to `pc`. -/
def goto (s : Tracking) (k : ℕ) (pc : TokenPc) : Tracking := { s with tokens := s.tokens.set k pc }

/-- The next step of the call of `complete` for token `k`. -/
def stepToken (s : Tracking) (k : ℕ) (spurious : Bool) : TokenPc → Option Tracking
  | .addOutput latencyNs =>
    (s.latency.step (.record latencyNs)).map fun latency =>
      { s.goto k (.latency latencyNs s.latency.calls.length) with latency, totalOutput := s.totalOutput + 1 }
  | .latency latencyNs i =>
    if ∀ call ∈ s.latency.calls[i]?, call.pc = .returned then
      (s.jitter.step F (.record latencyNs)).map fun jitter =>
        { s.goto k (.jitter latencyNs s.jitter.calls.length) with jitter }
    else (s.latency.step (.step i spurious)).map fun latency => { s with latency }
  | .jitter latencyNs j =>
    if ∀ call ∈ s.jitter.calls[j]?, call.pc = .returned then some (s.goto k (.completed latencyNs))
    else (s.jitter.step F (.step j spurious)).map fun jitter => { s with jitter }
  | .started | .completed _ | .dropped => none

/-- What comes next in a call of `snapshot`. -/
def nextLoad (s : Tracking) : SnapshotPc → Option SnapshotPc
  | .loadLatency => some (.loadJitter s.latency.histogram.count)
  | .loadJitter latencyCount => some (.loadInput latencyCount s.jitter.tracker.count)
  | .loadInput latencyCount jitterCount => some (.loadOutput latencyCount jitterCount s.totalInput)
  | .loadOutput latencyCount jitterCount totalInput =>
    some (.taken ⟨latencyCount, jitterCount, totalInput, s.totalOutput⟩ s.totalInput)
  | .taken _ _ => none

/-- The step function. -/
def step (s : Tracking) : Act → Option Tracking
  | .start => some { s with totalInput := s.totalInput + 1, tokens := s.tokens ++ [.started] }
  | .complete k latencyNs =>
    if s.tokens[k]? = some .started ∧ latencyNs < 2 ^ 64 then some (s.goto k (.addOutput latencyNs)) else none
  | .drop k => if s.tokens[k]? = some .started then some (s.goto k .dropped) else none
  | .step k spurious => s.tokens[k]?.bind (s.stepToken F k spurious)
  | .snapshot => some { s with snapshots := s.snapshots ++ [.loadLatency] }
  | .load m => s.snapshots[m]?.bind fun pc =>
    (s.nextLoad pc).map fun pc' => { s with snapshots := s.snapshots.set m pc' }

/-- An aggregator that has seen nothing. -/
def new : Tracking := ⟨⟨.new, [], []⟩, ⟨.new, [], []⟩, 0, 0, [], []⟩

/-- A new aggregator. -/
def machine : Machine Tracking Act where
  init s := s = new
  step := step F

/-- **What a step can be.** -/
inductive Step (s : Tracking) : Act → Tracking → Prop where
  | start : Step s .start { s with totalInput := s.totalInput + 1, tokens := s.tokens ++ [.started] }
  | complete {k x : ℕ} : s.tokens[k]? = some .started → Step s (.complete k x) (s.goto k (.addOutput x))
  | drop {k : ℕ} : s.tokens[k]? = some .started → Step s (.drop k) (s.goto k .dropped)
  | addOutput {k x : ℕ} {spurious : Bool} : s.tokens[k]? = some (.addOutput x) → x < 2 ^ 64 →
      Step s (.step k spurious)
        { s.goto k (.latency x s.latency.calls.length) with
          latency := { s.latency with calls := s.latency.calls ++ [⟨x, .addBucket⟩] }
          totalOutput := s.totalOutput + 1 }
  | latency {k x i : ℕ} {spurious : Bool} {t : Timing} : s.tokens[k]? = some (.latency x i) →
      Timing.Step s.latency (.step i spurious) t → Step s (.step k spurious) { s with latency := t }
  | beginJitter {k x i : ℕ} {spurious : Bool} : s.tokens[k]? = some (.latency x i) →
      (∀ call, s.latency.calls[i]? = some call → call.pc = .returned) →
      Step s (.step k spurious)
        { s.goto k (.jitter x s.jitter.calls.length) with
          jitter := { s.jitter with calls := s.jitter.calls ++ [⟨x, .updateMin .load⟩] } }
  | jitter {k x j : ℕ} {spurious : Bool} {t : Jitter} : s.tokens[k]? = some (.jitter x j) →
      Jitter.Step F s.jitter (.step j spurious) t → Step s (.step k spurious) { s with jitter := t }
  | finish {k x j : ℕ} {spurious : Bool} : s.tokens[k]? = some (.jitter x j) →
      (∀ call, s.jitter.calls[j]? = some call → call.pc = .returned) →
      Step s (.step k spurious) (s.goto k (.completed x))
  | snapshot : Step s .snapshot { s with snapshots := s.snapshots ++ [.loadLatency] }
  | load {m : ℕ} {pc pc' : SnapshotPc} : s.snapshots[m]? = some pc → s.nextLoad pc = some pc' →
      Step s (.load m) { s with snapshots := s.snapshots.set m pc' }

variable {F} {s s' : Tracking} {a : Act}

theorem step_of_eq_some (h : s.step F a = some s') : Step F s a s' := by
  cases a with
  | start => cases h; exact .start
  | complete k x =>
    simp only [step, Option.ite_none_right_eq_some, Option.some.injEq] at h
    obtain ⟨⟨hk, -⟩, rfl⟩ := h
    exact .complete hk
  | drop k =>
    simp only [step, Option.ite_none_right_eq_some, Option.some.injEq] at h
    obtain ⟨hk, rfl⟩ := h
    exact .drop hk
  | step k spurious =>
    obtain ⟨pc, hk, hpc⟩ := Option.bind_eq_some_iff.1 h
    cases pc with
    | started => cases hpc
    | addOutput x =>
      obtain ⟨t, ht, rfl⟩ := Option.map_eq_some_iff.1 hpc
      have hstep : Timing.Step s.latency (.record x) t := Timing.step_of_eq_some ht
      cases hstep with
      | record hx => exact .addOutput hk hx
    | latency x i =>
      simp only [stepToken] at hpc
      split_ifs at hpc with hreturned
      · obtain ⟨t, ht, rfl⟩ := Option.map_eq_some_iff.1 hpc
        have hstep : Jitter.Step F s.jitter (.record x) t := Jitter.step_of_eq_some ht
        cases hstep with
        | record hx => exact .beginJitter hk fun call hcall => hreturned call hcall
      · obtain ⟨t, ht, rfl⟩ := Option.map_eq_some_iff.1 hpc
        exact .latency hk (Timing.step_of_eq_some ht)
    | jitter x j =>
      simp only [stepToken] at hpc
      split_ifs at hpc with hreturned
      · cases hpc
        exact .finish hk fun call hcall => hreturned call hcall
      · obtain ⟨t, ht, rfl⟩ := Option.map_eq_some_iff.1 hpc
        exact .jitter hk (Jitter.step_of_eq_some ht)
    | completed x => cases hpc
    | dropped => cases hpc
  | snapshot => cases h; exact .snapshot
  | load m =>
    obtain ⟨pc, hm, hpc⟩ := Option.bind_eq_some_iff.1 h
    obtain ⟨pc', hload, rfl⟩ := Option.map_eq_some_iff.1 hpc
    exact .load hm hload

/-! ### Every item is accounted for -/

/-- What a call of `snapshot` has loaded fits what there is now. -/
def Fits (totalInput totalOutput : ℕ) : SnapshotPc → Prop
  | .loadLatency => True
  | .loadJitter latencyCount => latencyCount ≤ totalOutput
  | .loadInput latencyCount jitterCount => latencyCount ≤ totalOutput ∧ jitterCount ≤ totalOutput
  | .loadOutput latencyCount jitterCount input =>
    latencyCount ≤ totalOutput ∧ jitterCount ≤ totalOutput ∧ input ≤ totalInput
  | .taken counts begun => counts.latencyCount ≤ counts.totalOutput ∧ counts.jitterCount ≤ counts.totalOutput ∧
      counts.totalOutput ≤ begun ∧ counts.totalInput ≤ begun ∧ begun ≤ totalInput

theorem Fits.mono {input input' output output' : ℕ} {pc : SnapshotPc} (h : Fits input output pc)
    (hinput : input ≤ input') (houtput : output ≤ output') : Fits input' output' pc := by
  cases pc with
  | loadLatency => trivial
  | loadJitter => exact le_trans h houtput
  | loadInput => exact ⟨h.1.trans houtput, h.2.trans houtput⟩
  | loadOutput => exact ⟨h.1.trans houtput, h.2.1.trans houtput, h.2.2.trans hinput⟩
  | taken => exact ⟨h.1, h.2.1, h.2.2.1, h.2.2.2.1, h.2.2.2.2.trans hinput⟩

structure Inv (s : Tracking) : Prop where
  latency : s.latency.Inv
  jitter : s.jitter.Counted
  input_eq : s.totalInput = s.tokens.length
  output_eq : s.totalOutput = s.latency.calls.length
  /-- The latencies that are recorded are those of the items put out. -/
  latencies : (s.latency.calls.map RecordCall.latencyNs).Perm (s.tokens.filterMap TokenPc.output)
  jitter_eq : s.jitter.calls.length = s.tokens.countP TokenPc.measured
  latency_held : Held (fun call : RecordCall => call.pc = .returned) TokenPc.inLatency s.latency.calls s.tokens
  jitter_held : Held (fun call : JitterCall => call.pc = .returned) TokenPc.inJitter s.jitter.calls s.tokens
  snapshots : ∀ pc ∈ s.snapshots, Fits s.totalInput s.totalOutput pc

theorem inv_new : Inv new where
  latency := Timing.inv_new
  jitter := rfl
  input_eq := rfl
  output_eq := rfl
  latencies := .nil
  jitter_eq := rfl
  latency_held := .nil _ _
  jitter_held := .nil _ _
  snapshots _ hpc := absurd hpc List.not_mem_nil

theorem Inv.length_outputs (h : Inv s) : (s.tokens.filterMap TokenPc.output).length = s.totalOutput := by
  rw [← h.latencies.length_eq, List.length_map, h.output_eq]

theorem Inv.output_le (h : Inv s) : s.totalOutput ≤ s.totalInput := by
  rw [← h.length_outputs, h.input_eq]
  exact List.length_filterMap_le _ _

theorem output_of_measured {pc : TokenPc} (h : pc.measured = true) : pc.output.isSome = true := by
  cases pc <;> simp_all [TokenPc.measured, TokenPc.output]

theorem Inv.jitter_calls_le (h : Inv s) : s.jitter.calls.length ≤ s.totalOutput := by
  rw [h.jitter_eq, ← h.length_outputs, List.length_filterMap_eq_countP]
  exact List.countP_mono_left fun _ _ => output_of_measured

/-- The counts of the instruments are no more than the items put out. -/
theorem Inv.counts_le (h : Inv s) :
    s.latency.histogram.count ≤ s.totalOutput ∧ s.jitter.tracker.count ≤ s.totalOutput :=
  ⟨h.latency.count_le_calls.trans h.output_eq.ge, h.jitter.count_le.trans h.jitter_calls_le⟩

/-- A token goes on, and has as much to show as before. -/
theorem Inv.goto (h : Inv s) {k : ℕ} {pc pc' : TokenPc} (hk : s.tokens[k]? = some pc)
    (houtput : pc'.output = pc.output) (hmeasured : pc'.measured = pc.measured) (hlatency : pc.inLatency = none)
    (hjitter : ∀ j call, pc.inJitter = some j → s.jitter.calls[j]? = some call → call.pc = .returned) :
    Inv (s.goto k pc') where
  latency := h.latency
  jitter := h.jitter
  input_eq := h.input_eq.trans (List.length_set ..).symm
  output_eq := h.output_eq
  latencies := by
    have hperm := filterMap_set_perm (a := pc') TokenPc.output hk
    rw [houtput, List.perm_append_left_iff] at hperm
    exact h.latencies.trans hperm.symm
  jitter_eq := by
    have hset := countP_set_eq (a := pc') TokenPc.measured hk
    rw [hmeasured] at hset
    exact h.jitter_eq.trans (Nat.add_right_cancel hset).symm
  latency_held := h.latency_held.set hk fun i call hi => by
    rw [hlatency] at hi
    cases hi
  jitter_held := h.jitter_held.set hk hjitter
  snapshots := h.snapshots

/-- An item is counted as put out, and its latency begins to be recorded. -/
theorem Inv.addOutput (h : Inv s) {k x : ℕ} (hk : s.tokens[k]? = some (.addOutput x)) (hx : x < 2 ^ 64) :
    Inv { s.goto k (.latency x s.latency.calls.length) with
      latency := { s.latency with calls := s.latency.calls ++ [⟨x, .addBucket⟩] }
      totalOutput := s.totalOutput + 1 } where
  latency := h.latency.record hx
  jitter := h.jitter
  input_eq := h.input_eq.trans (List.length_set ..).symm
  output_eq := by
    change s.totalOutput + 1 = (s.latency.calls ++ [_]).length
    rw [List.length_append, h.output_eq, List.length_singleton]
  latencies := by
    have hperm := filterMap_set_perm (a := .latency x s.latency.calls.length) TokenPc.output hk
    rw [List.map_append]
    exact (List.perm_append_comm.trans (h.latencies.append_left [x])).trans hperm.symm
  jitter_eq := by
    have hset := countP_set_eq (a := .latency x s.latency.calls.length) TokenPc.measured hk
    exact h.jitter_eq.trans hset.symm
  latency_held := h.latency_held.begin hk rfl rfl _
  jitter_held := h.jitter_held.set hk fun j call hj => by cases hj
  snapshots pc hpc := (h.snapshots pc hpc).mono le_rfl (Nat.le_succ _)

/-- Its latency has been recorded, and begins to be recorded for the jitter. -/
theorem Inv.beginJitter (h : Inv s) {k x i : ℕ} (hk : s.tokens[k]? = some (.latency x i))
    (hreturned : ∀ call, s.latency.calls[i]? = some call → call.pc = .returned) :
    Inv { s.goto k (.jitter x s.jitter.calls.length) with
      jitter := { s.jitter with calls := s.jitter.calls ++ [⟨x, .updateMin .load⟩] } } where
  latency := h.latency
  jitter := by
    have hcounted := h.jitter
    simp only [Jitter.Counted, List.countP_append] at hcounted ⊢
    exact hcounted
  input_eq := h.input_eq.trans (List.length_set ..).symm
  output_eq := h.output_eq
  latencies := by
    have hperm := filterMap_set_perm (a := .jitter x s.jitter.calls.length) TokenPc.output hk
    exact h.latencies.trans ((List.perm_append_left_iff [x]).1 hperm).symm
  jitter_eq := by
    have hset := countP_set_eq (a := .jitter x s.jitter.calls.length) TokenPc.measured hk
    change (s.jitter.calls ++ [_]).length = (s.tokens.set k _).countP _
    rw [List.length_append, List.length_singleton]
    exact (congrArg Nat.succ h.jitter_eq).trans hset.symm
  latency_held := h.latency_held.set hk fun i' call hi' hcall => by
    obtain rfl : i = i' := Option.some.inj hi'
    exact hreturned call hcall
  jitter_held := h.jitter_held.begin hk rfl rfl _
  snapshots := h.snapshots

/-- A call of the histogram takes a step. -/
theorem Inv.moveLatency (h : Inv s) {k x i : ℕ} {spurious : Bool} {t : Timing}
    (hk : s.tokens[k]? = some (.latency x i)) (ht : Timing.Step s.latency (.step i spurious) t) :
    Inv { s with latency := t } := by
  obtain ⟨y, pc, pc', hi, hcalls⟩ := ht.calls_eq
  have hlatencies : (s.latency.calls.set i ⟨y, pc'⟩).map RecordCall.latencyNs =
      s.latency.calls.map RecordCall.latencyNs := map_set_eq_self hi rfl
  exact { h with
    latency := h.latency.step ht
    output_eq := by
      change s.totalOutput = t.calls.length
      rw [hcalls, List.length_set, h.output_eq]
    latencies := by
      change (t.calls.map _).Perm _
      rw [hcalls, hlatencies]
      exact h.latencies
    latency_held := by
      change Held _ _ t.calls _
      rw [hcalls]
      exact h.latency_held.move hk rfl _ }

/-- A call of the jitter tracker takes a step. -/
theorem Inv.moveJitter (h : Inv s) {k x j : ℕ} {spurious : Bool} {t : Jitter}
    (hk : s.tokens[k]? = some (.jitter x j)) (ht : Jitter.Step F s.jitter (.step j spurious) t) :
    Inv { s with jitter := t } := by
  obtain ⟨y, pc, pc', hj, hcalls⟩ := ht.calls_eq
  exact { h with
    jitter := h.jitter.step ht
    jitter_eq := by
      change t.calls.length = _
      rw [hcalls, List.length_set, h.jitter_eq]
    jitter_held := by
      change Held _ _ t.calls _
      rw [hcalls]
      exact h.jitter_held.move hk rfl _ }

/-- What a snapshot loads next fits. -/
theorem Inv.nextLoad (h : Inv s) {pc pc' : SnapshotPc} (hpc : Fits s.totalInput s.totalOutput pc)
    (hload : s.nextLoad pc = some pc') : Fits s.totalInput s.totalOutput pc' := by
  cases pc with
  | loadLatency => cases hload; exact h.counts_le.1
  | loadJitter => cases hload; exact ⟨hpc, h.counts_le.2⟩
  | loadInput => cases hload; exact ⟨hpc.1, hpc.2, le_rfl⟩
  | loadOutput => cases hload; exact ⟨hpc.1, hpc.2.1, h.output_le, hpc.2.2, le_rfl⟩
  | taken => cases hload

theorem Inv.step (h : Inv s) (hs : Step F s a s') : Inv s' := by
  cases hs with
  | start =>
    exact { h with
      input_eq := by
        change s.totalInput + 1 = (s.tokens ++ [_]).length
        rw [List.length_append, h.input_eq, List.length_singleton]
      latencies := by
        rw [List.filterMap_append]
        exact h.latencies.trans (.of_eq (List.append_nil _).symm)
      jitter_eq := by simpa [TokenPc.measured] using h.jitter_eq
      latency_held := h.latency_held.concat _
      jitter_held := h.jitter_held.concat _
      snapshots := fun pc hpc => (h.snapshots pc hpc).mono (Nat.le_succ _) le_rfl }
  | complete hk => exact h.goto hk rfl rfl rfl fun j call hj => by cases hj
  | drop hk => exact h.goto hk rfl rfl rfl fun j call hj => by cases hj
  | addOutput hk hx => exact h.addOutput hk hx
  | latency hk ht => exact h.moveLatency hk ht
  | beginJitter hk hreturned => exact h.beginJitter hk hreturned
  | jitter hk ht => exact h.moveJitter hk ht
  | @finish k x j _ hk hreturned =>
    refine h.goto hk rfl rfl rfl fun j' call hj' hcall => ?_
    obtain rfl : j = j' := Option.some.inj hj'
    exact hreturned call hcall
  | snapshot =>
    refine { h with snapshots := fun pc hpc => ?_ }
    rcases List.mem_append.1 hpc with hpc | hpc
    · exact h.snapshots pc hpc
    · cases List.mem_singleton.1 hpc
      trivial
  | load hm hload =>
    refine { h with snapshots := fun pc hpc => ?_ }
    rcases List.mem_or_eq_of_mem_set hpc with hpc | rfl
    · exact h.snapshots pc hpc
    · exact h.nextLoad (h.snapshots _ (List.mem_of_getElem? hm)) hload

theorem inv_of_reach (h : (machine F).Reach s) : Inv s := by
  refine h.invariant ?_ fun s a s' hs _ hstep => hs.step (step_of_eq_some hstep)
  rintro s rfl
  exact inv_new

/-! ### At rest -/

/-- Every token has been completed or dropped. -/
def AtRest (s : Tracking) : Prop := ∀ pc ∈ s.tokens, pc.hasEnded = true

instance (s : Tracking) : Decidable s.AtRest := inferInstanceAs (Decidable (∀ pc ∈ s.tokens, pc.hasEnded = true))

/-- The latencies of the items put out. -/
def latencies (s : Tracking) : List ℕ := s.tokens.filterMap TokenPc.output

theorem Inv.latency_atRest (h : Inv s) (hrest : s.AtRest) : s.latency.AtRest := by
  refine h.latency_held.all_done fun pc hpc => ?_
  have hover := hrest pc hpc
  cases pc <;> simp_all [TokenPc.hasEnded, TokenPc.inLatency]

theorem Inv.jitter_atRest (h : Inv s) (hrest : s.AtRest) : s.jitter.AtRest := by
  refine h.jitter_held.all_done fun pc hpc => ?_
  have hover := hrest pc hpc
  cases pc <;> simp_all [TokenPc.hasEnded, TokenPc.inJitter]

/-- At rest the jitter tracker has counted every item put out. -/
theorem Inv.jitter_count (h : Inv s) (hrest : s.AtRest) : s.jitter.tracker.count = s.totalOutput := by
  have hall : s.jitter.calls.countP (fun call => call.pc.counted) = s.jitter.calls.length :=
    List.countP_eq_length.2 fun call hcall => by rw [h.jitter_atRest hrest call hcall]; rfl
  rw [h.jitter, hall, h.jitter_eq, ← h.length_outputs, List.length_filterMap_eq_countP]
  refine List.countP_congr fun pc hpc => ?_
  have hover := hrest pc hpc
  cases pc <;> simp_all [TokenPc.hasEnded, TokenPc.measured, TokenPc.output]

/-- Items that have not been put out. -/
theorem Inv.input_split (h : Inv s) :
    s.totalOutput + (s.tokens.countP fun pc => pc.output.isNone) = s.totalInput := by
  rw [← h.length_outputs, List.length_filterMap_eq_countP, h.input_eq,
    List.length_eq_countP_add_countP fun pc : TokenPc => pc.output.isSome]
  congr 1
  exact List.countP_congr fun pc _ => by cases pc.output <;> simp

/-- The histogram does not tell in which order it was given its samples. -/
theorem tallies_perm {m : LatencyHistogram} {xs ys : List ℕ} (h : m.Tallies xs) (hperm : xs.Perm ys) :
    m.Tallies ys where
  count_eq := h.count_eq.trans hperm.length_eq
  sum_buckets := h.sum_buckets
  bucket_eq b := (h.bucket_eq b).trans (hperm.countP_eq _)
  sum_eq := h.sum_eq.trans (congrArg (· % 2 ^ 64) hperm.sum_eq)
  min_eq hnil := h.min_eq (hperm.trans (.of_eq hnil)).eq_nil
  max_eq hnil := h.max_eq (hperm.trans (.of_eq hnil)).eq_nil
  isLeast hne := by
    have hset : {x | x ∈ ys} = {x | x ∈ xs} := Set.ext fun x => hperm.mem_iff.symm
    rw [hset]
    exact h.isLeast fun hnil => hne (hperm.symm.trans (.of_eq hnil)).eq_nil
  isGreatest hne := by
    have hset : {x | x ∈ ys} = {x | x ∈ xs} := Set.ext fun x => hperm.mem_iff.symm
    rw [hset]
    exact h.isGreatest fun hnil => hne (hperm.symm.trans (.of_eq hnil)).eq_nil

/-! ### Drop rates -/

theorem rate_nonneg_iff (input output : ℕ) :
    0 ≤ (if input = 0 then (0.0 : ℚ) else 1.0 - (output : ℚ) / (input : ℚ)) ↔ input = 0 ∨ output ≤ input := by
  split_ifs with hzero
  · exact iff_of_true (by norm_num) (.inl hzero)
  · have hpos : (0 : ℚ) < input := Nat.cast_pos.2 (Nat.pos_of_ne_zero hzero)
    have hone : (1.0 : ℚ) = 1 := by norm_num
    rw [hone, sub_nonneg, div_le_one hpos, Nat.cast_le]
    simp [hzero]

open scoped Exact in
/-- A drop rate is negative when more items are counted out than in. -/
theorem dropRate_nonneg_iff (p : Export.PipelineMetricsSnapshot ℚ) :
    0 ≤ p.dropRate ↔ p.totalInput = 0 ∨ p.totalOutput ≤ p.totalInput := rate_nonneg_iff _ _

open scoped Exact in
/-- **Every item is accounted for.** It has been put out, or its token is held or was dropped, and the
histogram and the jitter tracker count no more than has been put out. A snapshot has as little to hide, and
a negative drop rate only if items started while it was taken. Once all tokens have been
completed or dropped, the histogram holds the latencies of the items put out, and the jitter
tracker has counted them. -/
theorem consistent_of_reach (h : (machine F).Reach s) :
    s.totalOutput + (s.tokens.countP fun pc => pc.output.isNone) = s.totalInput ∧
      s.latency.histogram.count ≤ s.totalOutput ∧ s.jitter.tracker.count ≤ s.totalOutput ∧
      (∀ c begun, .taken c begun ∈ s.snapshots →
        c.latencyCount ≤ c.totalOutput ∧ c.jitterCount ≤ c.totalOutput ∧ c.totalOutput ≤ begun ∧ c.totalInput ≤ begun ∧
        ∀ p : Export.PipelineMetricsSnapshot ℚ, p.totalInput = c.totalInput → p.totalOutput = c.totalOutput →
          p.dropRate < 0 → c.totalInput < begun) ∧
      (s.AtRest → s.latency.histogram.Tallies s.latencies ∧ s.jitter.tracker.count = s.totalOutput ∧
        s.totalOutput + s.tokens.count .dropped = s.totalInput) := by
  have hinv := inv_of_reach h
  refine ⟨hinv.input_split, hinv.counts_le.1, hinv.counts_le.2, fun c begun hc => ?_, fun hrest => ⟨?_, ?_, ?_⟩⟩
  · obtain ⟨hlatency, hjitter, houtput, hinput, -⟩ := hinv.snapshots _ hc
    refine ⟨hlatency, hjitter, houtput, hinput, fun p hpin hpout hneg => lt_of_not_ge fun hge => ?_⟩
    have hnonneg := (dropRate_nonneg_iff p).2 (.inr (by omega))
    exact absurd hneg (not_lt.2 hnonneg)
  · exact tallies_perm (hinv.latency.tallies (hinv.latency_atRest hrest)) hinv.latencies
  · exact hinv.jitter_count hrest
  · rw [← hinv.input_split, List.count]
    congr 1
    refine List.countP_congr fun pc hpc => ?_
    have hover := hrest pc hpc
    cases pc <;> simp_all [TokenPc.hasEnded, TokenPc.output]

open scoped Exact in
/-- A snapshot has loaded the items in when a second one starts, and both are put out before it loads the
items out. -/
theorem consistent_of_reach_overtaken : ∃ (s : Tracking) (c : SnapshotCounts) (begun : ℕ), (machine ℚ).Reach s ∧
    .taken c begun ∈ s.snapshots ∧ c.totalInput < c.totalOutput ∧ c.latencyCount ≤ c.totalOutput ∧
    c.totalOutput ≤ begun := by
  obtain ⟨s, hs, htest⟩ := Machine.exists_reach_of_run (M := machine ℚ) rfl
    [.start, .complete 0 100, .snapshot, .load 0, .load 0, .load 0, .start, .complete 1 7, .step 0 false,
      .step 1 false, .step 1 false, .load 0]
    (fun s => decide (.taken ⟨0, 0, 1, 2⟩ 2 ∈ s.snapshots)) (by decide +kernel)
  have htaken := of_decide_eq_true htest
  obtain ⟨-, -, -, hsnapshots, -⟩ := consistent_of_reach hs
  obtain ⟨hlatency, -, houtput, -⟩ := hsnapshots _ _ htaken
  exact ⟨s, _, _, hs, htaken, by decide, hlatency, houtput⟩

end Tracking

end SensorBridge.Metrics
