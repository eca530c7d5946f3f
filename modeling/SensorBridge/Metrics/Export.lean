import SensorBridge.Foundation.SlidingWindow
import SensorBridge.Foundation.Text

/-!
# Export

`MetricsExporter` writes a snapshot of a pipeline's metrics as JSON, as CSV or as text for people,
each put together from formatted pieces, and `MetricsRecorder` keeps the last snapshots and writes
them all. The texts are the ones of the source, character by character; a writer takes all that is
written to it.

`record` drops the first snapshot when there are as many as may be kept. It does so before the new
one is there, and with none to keep there is none to drop: what is kept is the window of the last
ones exactly when something may be kept, or nothing is recorded (`keepsRecent_iff`).
-/

namespace SensorBridge.Metrics.Export

open Foundation

universe u

/-! ### Snapshots -/

/-- `LatencySnapshot`, what is exported of it. -/
structure LatencySnapshot (F : Type u) where
  count : ℕ
  meanNs : F
  p50Ns : ℕ
  p95Ns : ℕ
  p99Ns : ℕ
  p999Ns : ℕ

/-- `JitterSnapshot`, what is exported of it. -/
structure JitterSnapshot (F : Type u) where
  count : ℕ
  meanNs : F
  stdDevNs : F

/-- `StageMetricsSnapshot`, what is exported of it. -/
structure StageMetricsSnapshot (F : Type u) where
  name : String
  inputCount : ℕ
  outputCount : ℕ
  filteredCount : ℕ
  droppedCount : ℕ
  errorCount : ℕ
  latency : LatencySnapshot F
  jitter : JitterSnapshot F

/-- `PipelineMetricsSnapshot`. -/
structure PipelineMetricsSnapshot (F : Type u) where
  stages : List (StageMetricsSnapshot F)
  endToEndLatency : LatencySnapshot F
  endToEndJitter : JitterSnapshot F
  totalInput : ℕ
  totalOutput : ℕ
  elapsedSecs : F

variable {F : Type u}

section
variable [FloatDisplay F]

/-- `p99_us`. -/
def LatencySnapshot.p99Us (s : LatencySnapshot F) : F := (s.p99Ns : F) / 1000.0

/-- `std_dev_us`. -/
def JitterSnapshot.stdDevUs (s : JitterSnapshot F) : F := s.stdDevNs / 1000.0

/-- `std_dev_ms`. -/
def JitterSnapshot.stdDevMs (s : JitterSnapshot F) : F := s.stdDevNs / 1000000.0

/-- `throughput_ratio`. -/
def StageMetricsSnapshot.throughputRatio (s : StageMetricsSnapshot F) : F :=
  if s.inputCount = 0 then 0.0 else (s.outputCount : F) / (s.inputCount : F)

namespace PipelineMetricsSnapshot

/-- `throughput`. -/
def throughput [DecidableLT F] (s : PipelineMetricsSnapshot F) : F :=
  if 0.0 < s.elapsedSecs then (s.totalOutput : F) / s.elapsedSecs else 0.0

/-- `drop_rate`. -/
def dropRate (s : PipelineMetricsSnapshot F) : F :=
  if s.totalInput = 0 then 0.0 else 1.0 - (s.totalOutput : F) / (s.totalInput : F)

/-- The ratio in the row of the pipeline. -/
def throughputRatio (s : PipelineMetricsSnapshot F) : F :=
  if 0 < s.totalInput then (s.totalOutput : F) / (s.totalInput : F) else 0.0

end PipelineMetricsSnapshot

end

/-- Stages of these names that have seen nothing. -/
def idle (names : List String) : PipelineMetricsSnapshot ℚ where
  stages := names.map (⟨·, 0, 0, 0, 0, 0, ⟨0, 0, 0, 0, 0, 0⟩, ⟨0, 0, 0⟩⟩)
  endToEndLatency := ⟨0, 0, 0, 0, 0, 0⟩
  endToEndJitter := ⟨0, 0, 0⟩
  totalInput := 0
  totalOutput := 0
  elapsedSecs := 0

section
variable [FloatDisplay F]

/-! ### Text for people -/

/-- `Display` of a stage's snapshot. -/
def StageMetricsSnapshot.display (s : StageMetricsSnapshot F) : String :=
  String.join
    [s.name, ": in=", toString s.inputCount, " out=", toString s.outputCount,
      " filtered=", toString s.filteredCount, " dropped=", toString s.droppedCount,
      " errors=", toString s.errorCount, " p99=", fixed 1 s.latency.p99Us, "us jitter=",
      fixed 1 s.jitter.stdDevUs, "us"]

/-- `Display` of a pipeline's snapshot. -/
def PipelineMetricsSnapshot.display [DecidableLT F] (s : PipelineMetricsSnapshot F) : String :=
  String.join
      ["Pipeline Metrics:\n",
        "  Throughput: " ++ fixed 1 s.throughput ++ " items/sec\n",
        "  Total: " ++ toString s.totalInput ++ " in, " ++ toString s.totalOutput ++ " out\n",
        "  Drop rate: " ++ fixed 2 (s.dropRate * 100.0) ++ "%\n",
        "  End-to-end p99: " ++ fixed 1 s.endToEndLatency.p99Us ++ "us\n",
        "  Jitter: " ++ fixed 2 s.endToEndJitter.stdDevMs ++ "ms\n",
        "  Elapsed: " ++ fixed 2 s.elapsedSecs ++ "s\n",
        "\n",
        "Per-stage:\n"] ++
    String.join (s.stages.map fun stage => "  " ++ stage.display ++ "\n")

/-! ### The exporter -/

/-- `ExportFormat`. -/
inductive ExportFormat where
  | json
  | csv
  | text

namespace MetricsExporter

/-- `stage_to_json`. -/
def stageToJson (stage : StageMetricsSnapshot F) (isLast : Bool) : String :=
  String.join
    ["    \x7b\n",
      "      \"name\": \"" ++ stage.name ++ "\",\n",
      "      \"input_count\": " ++ toString stage.inputCount ++ ",\n",
      "      \"output_count\": " ++ toString stage.outputCount ++ ",\n",
      "      \"filtered_count\": " ++ toString stage.filteredCount ++ ",\n",
      "      \"dropped_count\": " ++ toString stage.droppedCount ++ ",\n",
      "      \"error_count\": " ++ toString stage.errorCount ++ ",\n",
      "      \"throughput_ratio\": " ++ fixed 4 stage.throughputRatio ++ ",\n",
      "      \"latency\": \x7b\n",
      "        \"mean_ns\": " ++ fixed 2 stage.latency.meanNs ++ ",\n",
      "        \"p99_ns\": " ++ toString stage.latency.p99Ns ++ "\n",
      "      \x7d,\n",
      "      \"jitter\": \x7b\n",
      "        \"std_dev_ns\": " ++ fixed 2 stage.jitter.stdDevNs ++ "\n",
      "      \x7d\n",
      "    \x7d",
      if isLast then "" else ",",
      "\n"]

/-- `to_json`. -/
def toJson [DecidableLT F] (snapshot : PipelineMetricsSnapshot F) : String :=
  String.join
      ["\x7b\n",
        "  \"throughput\": " ++ fixed 2 snapshot.throughput ++ ",\n",
        "  \"total_input\": " ++ toString snapshot.totalInput ++ ",\n",
        "  \"total_output\": " ++ toString snapshot.totalOutput ++ ",\n",
        "  \"drop_rate\": " ++ fixed 4 snapshot.dropRate ++ ",\n",
        "  \"elapsed_secs\": " ++ fixed 3 snapshot.elapsedSecs ++ ",\n",
        "  \"end_to_end_latency\": \x7b\n",
        "    \"count\": " ++ toString snapshot.endToEndLatency.count ++ ",\n",
        "    \"mean_ns\": " ++ fixed 2 snapshot.endToEndLatency.meanNs ++ ",\n",
        "    \"p50_ns\": " ++ toString snapshot.endToEndLatency.p50Ns ++ ",\n",
        "    \"p95_ns\": " ++ toString snapshot.endToEndLatency.p95Ns ++ ",\n",
        "    \"p99_ns\": " ++ toString snapshot.endToEndLatency.p99Ns ++ ",\n",
        "    \"p999_ns\": " ++ toString snapshot.endToEndLatency.p999Ns ++ "\n",
        "  \x7d,\n",
        "  \"end_to_end_jitter\": \x7b\n",
        "    \"count\": " ++ toString snapshot.endToEndJitter.count ++ ",\n",
        "    \"mean_ns\": " ++ fixed 2 snapshot.endToEndJitter.meanNs ++ ",\n",
        "    \"std_dev_ns\": " ++ fixed 2 snapshot.endToEndJitter.stdDevNs ++ "\n",
        "  \x7d,\n",
        "  \"stages\": [\n"] ++
    String.join (snapshot.stages.mapIdx fun i stage => stageToJson stage (i == snapshot.stages.length - 1)) ++
    String.join ["  ]\n", "\x7d\n"]

/-- The header of `to_csv`. -/
def csvHeader : String :=
  "timestamp,stage,input_count,output_count,filtered_count,dropped_count," ++
    "error_count,throughput_ratio,mean_latency_ns,p99_latency_ns,jitter_ns"

/-- The row of the pipeline in `to_csv`. -/
def csvSummary (snapshot : PipelineMetricsSnapshot F) : String :=
  String.join
    [fixed 3 snapshot.elapsedSecs, ",_pipeline,", toString snapshot.totalInput, ",",
      toString snapshot.totalOutput, ",", toString 0, ",",
      toString (snapshot.totalInput - snapshot.totalOutput), ",", toString 0, ",",
      fixed 4 snapshot.throughputRatio, ",", fixed 2 snapshot.endToEndLatency.meanNs, ",",
      toString snapshot.endToEndLatency.p99Ns, ",", fixed 2 snapshot.endToEndJitter.stdDevNs]

/-- The row of a stage in `to_csv`. -/
def csvRow (timestamp : F) (stage : StageMetricsSnapshot F) : String :=
  String.join
    [fixed 3 timestamp, ",", stage.name, ",", toString stage.inputCount, ",",
      toString stage.outputCount, ",", toString stage.filteredCount, ",",
      toString stage.droppedCount, ",", toString stage.errorCount, ",",
      fixed 4 stage.throughputRatio, ",", fixed 2 stage.latency.meanNs, ",",
      toString stage.latency.p99Ns, ",", fixed 2 stage.jitter.stdDevNs]

/-- `to_csv`: the header and the rows. -/
def toCsv (snapshot : PipelineMetricsSnapshot F) : String × List String :=
  (csvHeader, csvSummary snapshot :: snapshot.stages.map (csvRow snapshot.elapsedSecs))

/-- `to_text`. -/
def toText [DecidableLT F] (snapshot : PipelineMetricsSnapshot F) : String := snapshot.display

/-- `write`, what is written. -/
def write [DecidableLT F] (snapshot : PipelineMetricsSnapshot F) : ExportFormat → String
  | .json => toJson snapshot
  | .csv => (toCsv snapshot).1 ++ "\n" ++ String.join ((toCsv snapshot).2.map (· ++ "\n"))
  | .text => toText snapshot

end MetricsExporter

end

/-! ### The recorder -/

/-- `MetricsRecorder`. -/
structure MetricsRecorder (F : Type u) where
  snapshots : List (PipelineMetricsSnapshot F)
  maxSnapshots : ℕ

/-- What panics: a capacity of more than `isize::MAX` bytes, an index to remove that is not there. -/
inductive Panic where
  | capacityOverflow
  | removalIndex

/-- `isize::MAX`. -/
def isizeMax : ℕ := 2 ^ 63 - 1

namespace MetricsRecorder

/-- `new`, where a snapshot takes so many bytes. -/
def new (snapshotSize maxSnapshots : ℕ) : Except Panic (MetricsRecorder F) :=
  if isizeMax < maxSnapshots * snapshotSize then .error .capacityOverflow else .ok ⟨[], maxSnapshots⟩

/-- `Vec::remove(0)`. -/
def removeFirst {α : Type u} : List α → Except Panic (List α)
  | [] => .error .removalIndex
  | _ :: rest => .ok rest

/-- `record`. -/
def record (r : MetricsRecorder F) (snapshot : PipelineMetricsSnapshot F) :
    Except Panic (MetricsRecorder F) := do
  let kept ← if r.maxSnapshots ≤ r.snapshots.length then removeFirst r.snapshots else pure r.snapshots
  pure { r with snapshots := kept ++ [snapshot] }

/-- `clear`. -/
def clear (r : MetricsRecorder F) : MetricsRecorder F := { r with snapshots := [] }

/-- `export_csv`, what is written. -/
def exportCsv [FloatDisplay F] (r : MetricsRecorder F) : String :=
  match r.snapshots with
  | [] => ""
  | first :: _ =>
    (MetricsExporter.toCsv first).1 ++ "\n" ++
      String.join (r.snapshots.map fun snapshot =>
        String.join ((MetricsExporter.toCsv snapshot).2.map (· ++ "\n")))

/-- `export_json`, what is written. -/
def exportJson [FloatDisplay F] [DecidableLT F] (r : MetricsRecorder F) : String :=
  "[\n" ++
    String.join (r.snapshots.mapIdx fun i snapshot =>
      String.join ((lines (MetricsExporter.toJson snapshot)).map fun line => "  " ++ line ++ "\n") ++
        if i < r.snapshots.length - 1 then ",\n" else "") ++
    "]\n"

/-- A call that changes what is kept. -/
inductive Call (F : Type u) where
  | record (snapshot : PipelineMetricsSnapshot F)
  | clear

/-- A call. -/
def call (r : MetricsRecorder F) : Call F → Except Panic (MetricsRecorder F)
  | .record snapshot => r.record snapshot
  | .clear => .ok r.clear

/-- A recorder, and the calls on it. -/
def run (snapshotSize maxSnapshots : ℕ) (calls : List (Call F)) : Except Panic (MetricsRecorder F) := do
  let r ← new snapshotSize maxSnapshots
  calls.foldlM call r

/-- What has been recorded since the last `clear`, with one more call. -/
def Call.append (recorded : List (PipelineMetricsSnapshot F)) : Call F → List (PipelineMetricsSnapshot F)
  | .record snapshot => recorded ++ [snapshot]
  | .clear => []

/-- What has been recorded since the last `clear`. -/
def recorded (calls : List (Call F)) : List (PipelineMetricsSnapshot F) := calls.foldl Call.append []

/-- No call panics, and the last snapshots are kept. -/
def KeepsRecent (snapshotSize maxSnapshots : ℕ) (calls : List (Call F)) : Prop :=
  ∃ r, run snapshotSize maxSnapshots calls = .ok r ∧ r.snapshots = (recorded calls).rtake maxSnapshots

/-! #### What is kept -/

/-- The recorder holds the last of these snapshots. -/
structure Holds (maxSnapshots : ℕ) (r : MetricsRecorder F) (xs : List (PipelineMetricsSnapshot F)) : Prop where
  max_eq : r.maxSnapshots = maxSnapshots
  snapshots_eq : r.snapshots = xs.rtake maxSnapshots

variable {snapshotSize maxSnapshots : ℕ} {r : MetricsRecorder F} {xs : List (PipelineMetricsSnapshot F)}

theorem length_rtake {α : Type u} (l : List α) (n : ℕ) : (l.rtake n).length = min l.length n := by
  rw [List.rtake, List.length_drop]
  omega

/-- Where something may be kept, a call goes on with the window. -/
theorem Holds.step (h : Holds maxSnapshots r xs) (hpos : 0 < maxSnapshots) (c : Call F) :
    ∃ r', call r c = .ok r' ∧ Holds maxSnapshots r' (c.append xs) := by
  cases c with
  | clear => exact ⟨r.clear, rfl, h.max_eq, (List.rtake_nil maxSnapshots).symm⟩
  | record snapshot =>
    have hlength : r.snapshots.length = min xs.length maxSnapshots := by rw [h.snapshots_eq, length_rtake]
    by_cases hfull : maxSnapshots ≤ xs.length
    · have hle : r.maxSnapshots ≤ r.snapshots.length := by
        rw [h.max_eq, hlength]
        omega
      obtain ⟨first, rest, hrest⟩ := List.exists_cons_of_length_pos
        (show 0 < r.snapshots.length by omega)
      have hrecord : r.record snapshot = .ok { r with snapshots := rest ++ [snapshot] } := by
        rw [record, if_pos hle, hrest]
        rfl
      have htail : (xs.rtake maxSnapshots).tail = rest := by rw [← h.snapshots_eq, hrest, List.tail_cons]
      refine ⟨_, hrecord, h.max_eq, ?_⟩
      rw [Call.append, SlidingWindow.rtake_concat hpos hfull, htail]
    · have hlt : ¬ r.maxSnapshots ≤ r.snapshots.length := by
        rw [h.max_eq, hlength]
        omega
      have hrecord : r.record snapshot = .ok { r with snapshots := r.snapshots ++ [snapshot] } := by
        rw [record, if_neg hlt]
        rfl
      have hfits : (xs ++ [snapshot]).length ≤ maxSnapshots := by
        rw [List.length_append, List.length_singleton]
        omega
      refine ⟨_, hrecord, h.max_eq, ?_⟩
      rw [Call.append, SlidingWindow.rtake_of_length_le hfits, h.snapshots_eq,
        SlidingWindow.rtake_of_length_le (by omega)]

theorem Holds.run (h : Holds maxSnapshots r xs) (hpos : 0 < maxSnapshots) (calls : List (Call F)) :
    ∃ r', calls.foldlM call r = .ok r' ∧ Holds maxSnapshots r' (calls.foldl Call.append xs) := by
  induction calls generalizing r xs with
  | nil => exact ⟨r, rfl, h⟩
  | cons c calls ih =>
    obtain ⟨r', hcall, hr'⟩ := h.step hpos c
    rw [List.foldlM_cons, hcall]
    exact ih hr'

/-- Where nothing may be kept, there is nothing to remove for the first snapshot. -/
theorem foldlM_of_zero {calls : List (Call F)} :
    calls.foldlM call ⟨[], 0⟩ = .ok r ↔ (∀ c ∈ calls, c = .clear) ∧ r = ⟨[], 0⟩ := by
  induction calls with
  | nil =>
    rw [List.foldlM_nil, and_iff_right (List.forall_mem_nil _)]
    exact ⟨fun h => (Except.ok.inj h).symm, fun h => congrArg Except.ok h.symm⟩
  | cons c calls ih =>
    rw [List.forall_mem_cons, List.foldlM_cons]
    cases c with
    | clear => exact ih.trans (and_congr_left fun _ => (and_iff_right rfl).symm)
    | record snapshot =>
      refine iff_of_false ?_ ?_
      · rintro ⟨⟩
      · rintro ⟨⟨⟨⟩, -⟩, -⟩

/-- **The recorder keeps the last snapshots** exactly when room for them can be asked for and either
some may be kept or none is recorded. -/
theorem keepsRecent_iff (snapshotSize maxSnapshots : ℕ) (calls : List (Call F)) :
    KeepsRecent snapshotSize maxSnapshots calls ↔
      maxSnapshots * snapshotSize ≤ isizeMax ∧ (0 < maxSnapshots ∨ ∀ c ∈ calls, c = .clear) := by
  by_cases hfits : maxSnapshots * snapshotSize ≤ isizeMax
  · have hrun : run snapshotSize maxSnapshots calls = calls.foldlM call ⟨[], maxSnapshots⟩ := by
      rw [run, new, if_neg (not_lt.2 hfits)]
      rfl
    rw [KeepsRecent, hrun, and_iff_right hfits]
    rcases Nat.eq_zero_or_pos maxSnapshots with rfl | hpos
    · rw [or_iff_right (lt_irrefl 0)]
      constructor
      · rintro ⟨r, hr, -⟩
        exact (foldlM_of_zero.1 hr).1
      · intro hclear
        exact ⟨_, foldlM_of_zero.2 ⟨hclear, rfl⟩, (List.rtake_zero _).symm⟩
    · have hholds : Holds maxSnapshots (⟨[], maxSnapshots⟩ : MetricsRecorder F) [] :=
        ⟨rfl, (List.rtake_nil maxSnapshots).symm⟩
      obtain ⟨r, hr, hrecent⟩ := hholds.run hpos calls
      exact iff_of_true ⟨r, hr, hrecent.snapshots_eq⟩ (.inl hpos)
  · have hrun : run snapshotSize maxSnapshots calls = .error .capacityOverflow := by
      rw [run, new, if_pos (not_le.1 hfits)]
      rfl
    refine iff_of_false ?_ fun h => hfits h.1
    rintro ⟨r, hr, -⟩
    rw [hrun] at hr
    cases hr

/-- The first snapshot that is recorded where none may be kept. -/
theorem not_keepsRecent_zero : ¬ KeepsRecent 184 0 [.record (idle [])] := by
  rintro ⟨r, hr, -⟩
  cases hr

end MetricsRecorder

end SensorBridge.Metrics.Export
