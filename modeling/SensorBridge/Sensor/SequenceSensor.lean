import SensorBridge.Foundation.Cyclic
import SensorBridge.Timestamp.Single

/-!
# A sensor that plays a sequence

`SequenceSensor` hands out the values it was given, one a sample, and then begins again or stays at
the last. Its index never leaves the values, which is a field of the model. So what a sample returns
is known in advance: the value, the number and the timestamp are functions of how many samples there
have been since the last `reset`, and of the raw times (`sample_run`).
-/

namespace SensorBridge.Sensor

open Foundation Timestamp

universe u

/-- Errors specific to sensor operations. -/
inductive SensorError where
  | notInitialized
  | readFailed
  | disconnected
  | invalidData
  | timeout
  deriving DecidableEq

/-- Errors that can occur in the sensor pipeline. -/
inductive PipelineError where
  | bufferFull
  | bufferEmpty
  | sensorError (err : SensorError)
  | stageError (msg : String)
  | timestampError (msg : String)
  | shutdown
  deriving DecidableEq

/-- A mock sensor that produces a configurable sequence of values. -/
structure SequenceSensor (α : Type u) where
  name : String
  clock : MonotonicClock
  values : List α
  index : ℕ
  repeats : Bool
  /-- The index is that of a value, if there is one. -/
  index_lt : values ≠ [] → index < values.length

namespace SequenceSensor

variable {α : Type u}

/-- `SequenceSensor::new`. -/
def new (name : String) (values : List α) : SequenceSensor α where
  name := name
  clock := .new
  values := values
  index := 0
  repeats := false
  index_lt h := List.length_pos_of_ne_nil h

/-- `with_repeat`. -/
def withRepeat (s : SequenceSensor α) (repeats : Bool) : SequenceSensor α := { s with repeats }

/-- `reset`. -/
def reset (s : SequenceSensor α) : SequenceSensor α :=
  { s with
    index := 0
    clock := s.clock.resetSeq
    index_lt := fun h => List.length_pos_of_ne_nil h }

/-- Where `index` goes in a sequence of `len` values. -/
def advance (len : ℕ) (repeats : Bool) (index : ℕ) : ℕ :=
  if index + 1 ≥ len then
    if repeats then 0 else len - 1
  else index + 1

theorem advance_lt {len index : ℕ} (repeats : Bool) (h : index < len) : advance len repeats index < len := by
  unfold advance
  split_ifs <;> omega

/-- `sample`, where `raw` is the time the clock reads. -/
def sample (s : SequenceSensor α) (raw : ℕ) : SequenceSensor α × Except PipelineError (Timestamped α) :=
  if h : s.values = [] then (s, .error (.sensorError .readFailed))
  else
    let value := s.values.get ⟨s.index, s.index_lt h⟩
    let (clock, stamped) := s.clock.stamp raw value
    ({ s with
        clock := clock
        index := advance s.values.length s.repeats s.index
        index_lt := fun h => advance_lt s.repeats (s.index_lt h) },
      .ok stamped)

/-! ### Runs -/

/-- What is done with a sensor. -/
inductive Op where
  | sample (raw : ℕ)
  | reset

/-- What that makes of it. -/
def apply (s : SequenceSensor α) : Op → SequenceSensor α
  | .sample raw => (s.sample raw).1
  | .reset => s.reset

/-- What a list of operations makes of it. -/
def run (s : SequenceSensor α) (ops : List Op) : SequenceSensor α := ops.foldl apply s

/-- How many samples there have been since the last reset. -/
def taken (ops : List Op) : ℕ := ops.foldl (fun k op => match op with | .sample _ => k + 1 | .reset => 0) 0

/-- The latest of the raw times. -/
def latest (ops : List Op) : ℕ := ops.foldl (fun t op => match op with | .sample raw => max raw t | .reset => t) 0

/-- The place in a sequence of `len` values after `k` samples. -/
def place (len : ℕ) (repeats : Bool) (k : ℕ) : ℕ := if repeats then k % len else min k (len - 1)

theorem advance_place {len : ℕ} (hlen : 0 < len) (repeats : Bool) (k : ℕ) :
    advance len repeats (place len repeats k) = place len repeats (k + 1) := by
  cases repeats with
  | false =>
    simp only [advance, place, Bool.false_eq_true, if_false]
    split_ifs <;> omega
  | true =>
    have hlt := Nat.mod_lt k hlen
    simp only [advance, place, if_true]
    rw [← Nat.mod_add_mod k len 1, Cyclic.succ_mod_cases hlt]
    split_ifs <;> omega

variable {values : List α} {repeats : Bool} {ops : List Op} {s : SequenceSensor α}

theorem run_concat (s : SequenceSensor α) (ops : List Op) (op : Op) : s.run (ops ++ [op]) = (s.run ops).apply op := by
  rw [run, List.foldl_append]
  rfl

/-- A sample of a sensor with values. -/
theorem sample_of_getElem? {value : α} (h : s.values[s.index]? = some value) (raw : ℕ) :
    (s.sample raw).2 = .ok (s.clock.stamp raw value).2 ∧ (s.sample raw).1.values = s.values ∧
      (s.sample raw).1.repeats = s.repeats ∧ (s.sample raw).1.clock = (s.clock.stamp raw value).1 ∧
      (s.sample raw).1.index = advance s.values.length s.repeats s.index := by
  obtain ⟨hlt, rfl⟩ := List.getElem?_eq_some_iff.1 h
  have hne : s.values ≠ [] := List.ne_nil_of_length_pos (by omega)
  rw [sample, dif_neg hne]
  exact ⟨rfl, rfl, rfl, rfl, rfl⟩

/-- What a sensor is like after these operations, if it has values. -/
structure Plays (values : List α) (repeats : Bool) (ops : List Op) (s : SequenceSensor α) : Prop where
  values_eq : s.values = values
  repeats_eq : s.repeats = repeats
  index_eq : s.index = place values.length repeats (taken ops)
  sequence_eq : s.clock.sequence = taken ops % 2 ^ 64
  lastTimestamp_eq : s.clock.lastTimestamp = latest ops

theorem Plays.getElem? (h : Plays values repeats ops s) (hne : values ≠ []) :
    ∃ value, values[place values.length repeats (taken ops)]? = some value ∧ s.values[s.index]? = some value := by
  have hlt := s.index_lt (h.values_eq ▸ hne)
  refine ⟨s.values[s.index], ?_, List.getElem?_eq_getElem hlt⟩
  rw [← h.index_eq, ← List.getElem?_eq_getElem hlt, h.values_eq]

theorem taken_sample (ops : List Op) (raw : ℕ) : taken (ops ++ [.sample raw]) = taken ops + 1 := List.foldl_append

theorem taken_reset (ops : List Op) : taken (ops ++ [.reset]) = 0 := List.foldl_append

theorem latest_sample (ops : List Op) (raw : ℕ) : latest (ops ++ [.sample raw]) = max raw (latest ops) :=
  List.foldl_append

theorem latest_reset (ops : List Op) : latest (ops ++ [.reset]) = latest ops := List.foldl_append

theorem Plays.sample (h : Plays values repeats ops s) (hne : values ≠ []) (raw : ℕ) :
    Plays values repeats (ops ++ [.sample raw]) (s.sample raw).1 := by
  obtain ⟨value, -, hvalue⟩ := h.getElem? hne
  obtain ⟨-, hvalues, hrepeats, hclock, hindex⟩ := sample_of_getElem? hvalue raw
  refine ⟨hvalues.trans h.values_eq, hrepeats.trans h.repeats_eq, ?_, ?_, ?_⟩
  · rw [taken_sample, ← advance_place (List.length_pos_of_ne_nil hne), ← h.index_eq, hindex, h.values_eq, h.repeats_eq]
  · rw [taken_sample, hclock, MonotonicClock.stamp, h.sequence_eq, Nat.mod_add_mod]
  · rw [latest_sample, hclock, MonotonicClock.stamp, h.lastTimestamp_eq]

theorem Plays.reset (h : Plays values repeats ops s) : Plays values repeats (ops ++ [.reset]) s.reset := by
  refine ⟨h.values_eq, h.repeats_eq, ?_, ?_, ?_⟩
  · rw [taken_reset]
    cases repeats <;> simp [SequenceSensor.reset, place]
  · rw [taken_reset]
    rfl
  · rw [latest_reset]
    exact h.lastTimestamp_eq

theorem plays_run (hne : values ≠ []) (name : String) (repeats : Bool) (ops : List Op) :
    Plays values repeats ops (((new name values).withRepeat repeats).run ops) := by
  induction ops using List.reverseRecOn with
  | nil =>
    refine ⟨rfl, rfl, ?_, rfl, rfl⟩
    cases repeats <;> simp [run, withRepeat, new, place, taken]
  | append_singleton ops op ih =>
    rw [run_concat]
    cases op with
    | sample raw => exact ih.sample hne raw
    | reset => exact ih.reset

/-- A sensor without values has none later. -/
theorem run_eq_nil (h : s.values = []) (ops : List Op) : (s.run ops).values = [] := by
  induction ops using List.reverseRecOn with
  | nil => exact h
  | append_singleton ops op ih =>
    rw [run_concat]
    cases op with
    | sample raw => rw [apply, sample, dif_pos ih, ih]
    | reset => exact ih

/-- **What a sample returns**, after any operations: the value whose turn it is, with the number of
samples since the last reset and the latest raw time so far; or an error, if there are no values. -/
theorem sample_run (name : String) (values : List α) (repeats : Bool) (ops : List Op) (raw : ℕ) :
    ((((new name values).withRepeat repeats).run ops).sample raw).2 =
      match values[place values.length repeats (taken ops)]? with
      | some value => .ok ⟨max raw (latest ops), taken ops % 2 ^ 64, value⟩
      | none => .error (.sensorError .readFailed) := by
  by_cases hne : values = []
  · subst hne
    rw [sample, dif_pos (run_eq_nil rfl ops), List.getElem?_nil]
  · have hplays := plays_run hne name repeats ops
    obtain ⟨value, hplace, hvalue⟩ := hplays.getElem? hne
    rw [(sample_of_getElem? hvalue raw).1, hplace, MonotonicClock.stamp, hplays.sequence_eq,
      hplays.lastTimestamp_eq]

end SequenceSensor

end SensorBridge.Sensor
