import SensorBridge.Foundation.Csv
import SensorBridge.Metrics.Export

/-!
# The columns of the CSV export

The rows are put together by commas, and what stands between these is written as it is. All of it
but the name of a stage is made of letters and digits that no reader minds (`bare_fixed`,
`bare_toString`). So the rows are read back with the columns of the header and the names in their
place exactly when the names are read as themselves: without commas and newlines, and, as the reader
is strict or not, without quotes or without one in front (`csv_columns`).
-/

namespace SensorBridge.Metrics.Export

open Foundation Csv Csv.Reader MetricsExporter

universe u

variable {F : Type u} [FloatDisplay F]

/-! ### What is written -/

/-- The columns. -/
def csvColumns : List String :=
  ["timestamp", "stage", "input_count", "output_count", "filtered_count", "dropped_count",
    "error_count", "throughput_ratio", "mean_latency_ns", "p99_latency_ns", "jitter_ns"]

/-- The fields of the row of the pipeline. -/
def summaryFields (s : PipelineMetricsSnapshot F) : List String :=
  [fixed 3 s.elapsedSecs, "_pipeline", toString s.totalInput, toString s.totalOutput, toString 0,
    toString (s.totalInput - s.totalOutput), toString 0, fixed 4 s.throughputRatio,
    fixed 2 s.endToEndLatency.meanNs, toString s.endToEndLatency.p99Ns, fixed 2 s.endToEndJitter.stdDevNs]

/-- The fields of the row of a stage. -/
def stageFields (timestamp : F) (stage : StageMetricsSnapshot F) : List String :=
  [fixed 3 timestamp, stage.name, toString stage.inputCount, toString stage.outputCount,
    toString stage.filteredCount, toString stage.droppedCount, toString stage.errorCount,
    fixed 4 stage.throughputRatio, fixed 2 stage.latency.meanNs, toString stage.latency.p99Ns,
    fixed 2 stage.jitter.stdDevNs]

/-- The fields of the rows of a snapshot. -/
def csvFields (s : PipelineMetricsSnapshot F) : List (List String) :=
  summaryFields s :: s.stages.map (stageFields s.elapsedSecs)

/-- The stages that the rows of a snapshot are of, the first is of none. -/
def rowNames (s : PipelineMetricsSnapshot F) : List (Option String) := none :: s.stages.map (some ·.name)

/-- A text that is read back as a header and the rows of these stages: each has the columns of the
header, and that of a stage has its name in the second. -/
def KeepsColumns (strict : Bool) (names : List (Option String)) (text : String) : Prop :=
  ∃ rows, read strict text = some (csvColumns :: rows) ∧
    List.Forall₂ (fun name row => row.length = csvColumns.length ∧ ∀ n ∈ name, row[1]? = some n) names rows

/-- A row, as characters. -/
def chars (fields : List String) : List (List Char) := fields.map String.toList

theorem csvSummary_eq (s : PipelineMetricsSnapshot F) : csvSummary s = ",".intercalate (summaryFields s) := by
  have hname (rest : String) : ",_pipeline," ++ rest = "," ++ ("_pipeline," ++ rest) := by
    rw [← String.append_assoc]
    rfl
  simp [csvSummary, summaryFields, String.append_assoc, hname]

theorem csvRow_eq (timestamp : F) (stage : StageMetricsSnapshot F) :
    csvRow timestamp stage = ",".intercalate (stageFields timestamp stage) := by
  simp [csvRow, stageFields, String.append_assoc]

theorem csvHeader_eq : csvHeader = ",".intercalate csvColumns := by decide

theorem toList_line (fields : List String) :
    (",".intercalate fields ++ "\n").toList = line (chars fields) := by
  simp [line, chars]

/-! ### Fields that no reader minds -/

variable {strict : Bool}

theorem ne_of_isDigit {c : Char} (h : c.isDigit = true) : c ≠ ',' ∧ c ≠ '\n' ∧ c ≠ '"' :=
  ⟨fun hc => absurd (hc ▸ h) (by decide), fun hc => absurd (hc ▸ h) (by decide),
    fun hc => absurd (hc ▸ h) (by decide)⟩

theorem bare_toDigits (n : ℕ) : Bare strict (Nat.toDigits 10 n) :=
  bare_of_forall fun c hc => ne_of_isDigit ((digits_toDigits n).2 c hc)

theorem bare_fixed (precision : ℕ) (x : F) : Bare strict (fixed precision x).toList := by
  have hword : ∀ c ∈ "-.NaNinf".toList, c ≠ ',' ∧ c ≠ '\n' ∧ c ≠ '"' := by simp
  refine bare_of_forall fun c hc => ?_
  rcases isFloatChar_fixed c hc with hdigit | hother
  · exact ne_of_isDigit hdigit
  · exact hword c hother

/-- The fields of a row: the second one is the name, or there is no name to it and it is read as
itself, and the others are read as themselves. -/
inductive IsRow (strict : Bool) : Option String → List String → Prop where
  | intro {name : Option String} {first second third : String} {rest : List String}
      (hlength : (first :: second :: third :: rest).length = csvColumns.length)
      (hfirst : Bare strict first.toList) (hrest : ∀ f ∈ third :: rest, Bare strict f.toList)
      (hname : ∀ n ∈ name, second = n) (hsecond : name = none → Bare strict second.toList) :
      IsRow strict name (first :: second :: third :: rest)

theorem isRow_summary (s : PipelineMetricsSnapshot F) : IsRow strict none (summaryFields s) := by
  have hzero : Bare strict ['0'] := bare_toDigits 0
  exact .intro rfl (bare_fixed 3 s.elapsedSecs) (by simp [bare_fixed, bare_toDigits, hzero]) (by simp)
    fun _ => bare_of_forall (by simp)

theorem isRow_stage (timestamp : F) (stage : StageMetricsSnapshot F) :
    IsRow strict (some stage.name) (stageFields timestamp stage) :=
  .intro rfl (bare_fixed 3 timestamp) (by simp [bare_fixed, bare_toDigits]) (by simp) (by simp)

theorem isRow_csvFields (s : PipelineMetricsSnapshot F) :
    List.Forall₂ (IsRow strict) (rowNames s) (csvFields s) := by
  refine .cons (isRow_summary s) ?_
  rw [List.forall₂_map_left_iff, List.forall₂_map_right_iff]
  exact List.forall₂_same.2 fun stage _ => isRow_stage s.elapsedSecs stage

variable {name : Option String} {names : List (Option String)} {fields : List String}
  {records : List (List String)} {rs : List (List (List Char))} {ds : List Char}
  {out : List (List (List Char))}

theorem IsRow.chars_ne_nil (h : IsRow strict name fields) : chars fields ≠ [] := by
  cases h
  exact List.cons_ne_nil _ _

/-- The columns of a row. -/
theorem IsRow.columns (h : IsRow strict name fields) :
    fields.length = csvColumns.length ∧ ∀ n ∈ name, fields[1]? = some n := by
  obtain ⟨hlength, -, -, hname, -⟩ := h
  exact ⟨hlength, fun n hn => congrArg some (hname n hn)⟩

/-- Where the name is read as itself, all fields are. -/
theorem IsRow.bare (h : IsRow strict name fields) (hname : ∀ n ∈ name, Bare strict n.toList) :
    ∀ cs ∈ chars fields, Bare strict cs := by
  obtain ⟨-, hfirst, hrest, hsecond, hnone⟩ := h
  rename_i first second third rest
  have hbare : Bare strict second.toList := by
    cases name with
    | none => exact hnone rfl
    | some n => exact hsecond n rfl ▸ hname n rfl
  rw [chars, List.forall_mem_map, List.forall_mem_cons, List.forall_mem_cons]
  exact ⟨hfirst, hbare, hrest⟩

/-- Where the name is read back, it is read as itself. -/
theorem IsRow.bare_of_reads (h : IsRow strict name fields)
    (hreads : Reads strict ⟨rs, [], [], .start⟩ (line (chars fields) ++ ds) out)
    (hcell : ∀ n ∈ name, cell out rs.length 1 = some n.toList) : ∀ n ∈ name, Bare strict n.toList := by
  intro n hn
  obtain ⟨-, hfirst, -, hsecond, -⟩ := h
  rename_i first second third rest
  have hbefore : ∀ f ∈ [first.toList], Bare strict f := by simpa using hfirst
  have hrow : chars (first :: second :: third :: rest) =
      [first.toList] ++ n.toList :: third.toList :: chars rest := by
    rw [← hsecond n hn]
    rfl
  rw [hrow] at hreads
  exact bare_of_reads_record hbefore hreads (hcell n hn)

/-- Where all names are read as themselves, the rows are. -/
theorem run_rows (h : List.Forall₂ (IsRow strict) names records)
    (hnames : ∀ name ∈ names, ∀ n ∈ name, Bare strict n.toList) :
    (⟨rs, [], [], .start⟩ : Reader).run strict ((records.map chars).flatMap line) =
      some ⟨rs ++ records.map chars, [], [], .start⟩ := by
  induction h generalizing rs with
  | nil => rw [List.map_nil, List.flatMap_nil, run_nil, List.append_nil]
  | cons hrow _ ih =>
    obtain ⟨hname, hnames⟩ := List.forall_mem_cons.1 hnames
    rw [List.map_cons, List.flatMap_cons, run_append, run_record hrow.chars_ne_nil (hrow.bare hname),
      Option.bind_some, ih hnames, List.nil_append, List.append_assoc, List.singleton_append]

/-- Where all names are read back, they are read as themselves. -/
theorem bare_of_reads_rows (h : List.Forall₂ (IsRow strict) names records)
    (hreads : Reads strict ⟨rs, [], [], .start⟩ ((records.map chars).flatMap line) out)
    (hcell : ∀ i n, names[i]? = some (some n) → cell out (rs.length + i) 1 = some n.toList) :
    ∀ name ∈ names, ∀ n ∈ name, Bare strict n.toList := by
  induction h generalizing rs with
  | nil => exact List.forall_mem_nil _
  | @cons name fields names records hrow _ ih =>
    rw [List.map_cons, List.flatMap_cons] at hreads
    have hname : ∀ n ∈ name, Bare strict n.toList := by
      refine hrow.bare_of_reads hreads fun n hn => hcell 0 n ?_
      rw [List.getElem?_cons_zero, Option.mem_def.1 hn]
    rw [reads_append (run_record hrow.chars_ne_nil (hrow.bare hname))] at hreads
    refine List.forall_mem_cons.2 ⟨hname, ih hreads fun i n hi => ?_⟩
    rw [← hcell (i + 1) n hi, List.length_append, List.length_singleton, Nat.add_assoc, Nat.add_comm 1]

/-- A header and rows, as they are written. -/
def csvText (records : List (List String)) : String :=
  csvHeader ++ "\n" ++ String.join (records.map fun fields => ",".intercalate fields ++ "\n")

theorem toList_csvText (records : List (List String)) :
    (csvText records).toList = line (chars csvColumns) ++ (records.map chars).flatMap line := by
  rw [csvText, csvHeader_eq, String.toList_append, toList_line, String.toList_join, List.flatMap_map,
    List.flatMap_map]
  simp only [toList_line]

theorem forall₂_getElem? {α β : Type} {R : α → β → Prop} {xs : List α} {ys : List β}
    (h : List.Forall₂ R xs ys) {i : ℕ} {x : α} (hx : xs[i]? = some x) : ∃ y, ys[i]? = some y ∧ R x y := by
  obtain ⟨hi, rfl⟩ := List.getElem?_eq_some_iff.1 hx
  have hi' : i < ys.length := h.length_eq ▸ hi
  exact ⟨ys[i], List.getElem?_eq_getElem hi', h.get hi hi'⟩

/-- The rows keep their columns when the names are read as themselves, and only then. -/
theorem keepsColumns_csvText (h : List.Forall₂ (IsRow strict) names records) :
    KeepsColumns strict names (csvText records) ↔ ∀ name ∈ names, ∀ n ∈ name, Bare strict n.toList := by
  have hcolumns : ∀ cs ∈ chars csvColumns, Bare strict cs := by
    have hcharacters : ∀ cs ∈ chars csvColumns, ∀ c ∈ cs, c ≠ ',' ∧ c ≠ '\n' ∧ c ≠ '"' := by
      simp [chars, csvColumns]
    exact fun cs hcs => bare_of_forall (hcharacters cs hcs)
  have hheader : initial.run strict (line (chars csvColumns)) = some ⟨[chars csvColumns], [], [], .start⟩ :=
    run_record (by decide) hcolumns
  constructor
  · rintro ⟨rows, hread, hrows⟩
    rw [read_eq_some, toList_csvText, reads_append hheader] at hread
    refine bare_of_reads_rows h hread fun i n hi => ?_
    obtain ⟨row, hrow, -, hname⟩ := forall₂_getElem? hrows hi
    rw [List.length_singleton, Nat.add_comm, cell, List.map_cons, List.getElem?_cons_succ, List.getElem?_map,
      hrow, Option.map_some, Option.bind_some, List.getElem?_map, hname n rfl, Option.map_some]
  · intro hnames
    refine ⟨records, ?_, ?_⟩
    · rw [read_eq_some, toList_csvText, reads_append hheader, Reads, run_rows h hnames]
      rfl
    · exact h.imp fun _ _ hrow => hrow.columns

/-! ### The export -/

theorem toCsv_rows (s : PipelineMetricsSnapshot F) :
    (toCsv s).2 = (csvFields s).map fun fields => ",".intercalate fields := by
  rw [toCsv, csvFields, List.map_cons, List.map_map, csvSummary_eq]
  exact congrArg _ (List.map_congr_left fun stage _ => csvRow_eq s.elapsedSecs stage)

theorem write_csv [DecidableLT F] (s : PipelineMetricsSnapshot F) : write s .csv = csvText (csvFields s) := by
  rw [write, toCsv_rows, List.map_map, csvText]
  rfl

theorem join_flatMap {α : Type u} (f : α → List String) (xs : List α) :
    String.join (xs.flatMap f) = String.join (xs.map fun x => String.join (f x)) := by
  induction xs with
  | nil => rfl
  | cons x xs ih => rw [List.flatMap_cons, String.join_append, ih, List.map_cons, String.join_cons]

theorem exportCsv_cons (s : PipelineMetricsSnapshot F) (ss : List (PipelineMetricsSnapshot F)) (n : ℕ) :
    MetricsRecorder.exportCsv ⟨s :: ss, n⟩ = csvText ((s :: ss).flatMap csvFields) := by
  rw [csvText, List.map_flatMap, join_flatMap]
  simp only [MetricsRecorder.exportCsv, toCsv_rows, List.map_map]
  rfl

/-- **The CSV export keeps its columns** exactly when no name has a comma or a newline, and, where the
reader is strict, no quote, or else none in front. So it is for one snapshot, and for any of a
recorder. -/
theorem csv_columns [DecidableLT F] (strict : Bool) :
    (∀ s : PipelineMetricsSnapshot F, KeepsColumns strict (rowNames s) (write s .csv) ↔
      ∀ stage ∈ s.stages, Bare strict stage.name.toList) ∧
    ∀ (s : PipelineMetricsSnapshot F) (ss : List (PipelineMetricsSnapshot F)) (maxSnapshots : ℕ),
      KeepsColumns strict ((s :: ss).flatMap rowNames) (MetricsRecorder.exportCsv ⟨s :: ss, maxSnapshots⟩) ↔
        ∀ t ∈ s :: ss, ∀ stage ∈ t.stages, Bare strict stage.name.toList := by
  have hnames (s : PipelineMetricsSnapshot F) : (∀ name ∈ rowNames s, ∀ n ∈ name, Bare strict n.toList) ↔
      ∀ stage ∈ s.stages, Bare strict stage.name.toList := by
    simp [rowNames]
  refine ⟨fun s => ?_, fun s ss maxSnapshots => ?_⟩
  · rw [write_csv, keepsColumns_csvText (isRow_csvFields s), hnames]
  · have hrows : List.Forall₂ (IsRow strict) ((s :: ss).flatMap rowNames) ((s :: ss).flatMap csvFields) := by
      refine List.rel_flatMap (List.forall₂_same.2 fun _ _ => rfl) ?_
      rintro t _ rfl
      exact isRow_csvFields t
    rw [exportCsv_cons, keepsColumns_csvText hrows, List.forall_mem_flatMap]
    exact forall₂_congr fun t _ => hnames t

open scoped Foundation.Exact in
/-- A name with a comma: its row has a column too many. -/
theorem not_keepsColumns_comma : ¬ KeepsColumns false (rowNames (idle ["a,b"])) (write (idle ["a,b"]) .csv) := by
  rw [write_csv, keepsColumns_csvText (isRow_csvFields (idle ["a,b"]))]
  intro h
  have hbare : Bare false "a,b".toList := h (some "a,b") (by simp [rowNames, idle]) "a,b" rfl
  exact hbare.2.1 (by decide)

end SensorBridge.Metrics.Export
