import SensorBridge.Foundation.JsonParse
import SensorBridge.Metrics.Export

/-!
# The JSON export

The lines of the export are scanned one after the other. All of them but that of a stage's name are
scanned to the same tokens whatever the snapshot, but for the numbers, so the text is read as the
value of the snapshot when the names are scanned as they are (`scans_toJson`), which plain names
are. For the other direction the strings are counted: names that are decoded are as long as
the names that have been written, and only plain ones leave enough in the text for that
(`costs_toJson`).

Between the snapshots of a recorder come commas, and the lines are indented, which changes nothing
of what is scanned.
-/

namespace SensorBridge.Metrics.Export

open Foundation Json MetricsExporter

universe u

variable {F : Type u} [FloatDisplay F]

/-! ### Numbers -/

/-- The literal that a text is. -/
def literalOf (text : String) : Literal := (readLiteral text.toList).getD .null

/-- A text that is a literal. -/
structure IsLiteral (text : String) : Prop where
  ne_nil : text.toList ≠ []
  word : ∀ c ∈ text.toList, IsWordChar c
  read_eq : readLiteral text.toList = some (literalOf text)

theorem isLiteral_of_read {text : String} {q : ℚ} (hne : text.toList ≠ [])
    (hword : ∀ c ∈ text.toList, IsWordChar c) (hread : readLiteral text.toList = some (.number q)) : IsLiteral text := by
  refine ⟨hne, hword, ?_⟩
  rw [literalOf, hread, Option.getD_some]

theorem toList_toString (n : ℕ) : (toString n).toList = Nat.toDigits 10 n := Nat.toList_repr

@[simp] theorem literalOf_repr (n : ℕ) : literalOf n.repr = .number n := by
  rw [literalOf, Nat.toList_repr, readLiteral_toDigits, Option.getD_some]

theorem isLiteral_toString (n : ℕ) : IsLiteral (toString n) := by
  refine isLiteral_of_read (q := n) ?_ ?_ ?_ <;> rw [toList_toString]
  · exact Nat.toDigits_ne_nil
  · exact fun c hc => isWordChar_of_isDigit ((digits_toDigits n).2 c hc)
  · exact readLiteral_toDigits n

theorem isWordChar_of_isFloatChar {c : Char} (h : IsFloatChar c) : IsWordChar c := by
  rcases h with hdigit | hother
  · exact isWordChar_of_isDigit hdigit
  · have hall : ∀ c ∈ "-.NaNinf".toList, IsWordChar c := by simp [IsWordChar, isWhitespace, structural]
    exact hall c hother

theorem isLiteral_fixed {precision : ℕ} (hpos : 0 < precision) {x : F} (h : IsFinite x) :
    IsLiteral (fixed precision x) := by
  have hdecimal := decimal_fixed hpos h
  obtain ⟨q, hread⟩ := readLiteral_decimal hdecimal
  refine isLiteral_of_read ?_ (fun c hc => isWordChar_of_isFloatChar (isFloatChar_fixed c hc)) hread
  obtain ⟨negative, whole, fraction, -, -, heq⟩ := hdecimal
  rw [heq]
  simp

/-! ### Lines -/

/-- A number, as a member of an object that others follow. -/
def member (key text : String) : List Token := [.string key, .colon, .literal (literalOf text), .comma]

/-- A number, as the last member. -/
def lastMember (key text : String) : List Token := [.string key, .colon, .literal (literalOf text)]

theorem scans_member {pre text key : String} (hpre : Scans (.word []) pre.toList [.string key, .colon] (.word []))
    (htext : IsLiteral text) :
    Scans (.word []) (pre ++ text ++ ",\n").toList (member key text) (.word []) := by
  rw [String.toList_append, String.toList_append, List.append_assoc]
  exact hpre.append (scans_literal htext.word htext.read_eq htext.ne_nil).2

theorem scans_lastMember {pre text key : String}
    (hpre : Scans (.word []) pre.toList [.string key, .colon] (.word [])) (htext : IsLiteral text) :
    Scans (.word []) (pre ++ text ++ "\n").toList (lastMember key text) (.word []) := by
  rw [String.toList_append, String.toList_append, List.append_assoc]
  exact hpre.append (scans_literal htext.word htext.read_eq htext.ne_nil).1

/-! ### Finite snapshots -/

/-- The floats of a stage's snapshot can be written as numbers. -/
structure StageMetricsSnapshot.Finite (s : StageMetricsSnapshot F) : Prop where
  throughputRatio : IsFinite s.throughputRatio
  latencyMean : IsFinite s.latency.meanNs
  jitterStdDev : IsFinite s.jitter.stdDevNs

/-- The floats of a snapshot can be written as numbers. -/
structure PipelineMetricsSnapshot.Finite [DecidableLT F] (s : PipelineMetricsSnapshot F) : Prop where
  throughput : IsFinite s.throughput
  dropRate : IsFinite s.dropRate
  elapsedSecs : IsFinite s.elapsedSecs
  latencyMean : IsFinite s.endToEndLatency.meanNs
  jitterMean : IsFinite s.endToEndJitter.meanNs
  jitterStdDev : IsFinite s.endToEndJitter.stdDevNs
  stages : ∀ stage ∈ s.stages, stage.Finite

open scoped Foundation.Exact in
/-- All of exact arithmetic is finite. -/
theorem finite_exact (s : PipelineMetricsSnapshot ℚ) : s.Finite where
  throughput := isFinite_exact _
  dropRate := isFinite_exact _
  elapsedSecs := isFinite_exact _
  latencyMean := isFinite_exact _
  jitterMean := isFinite_exact _
  jitterStdDev := isFinite_exact _
  stages _ _ := ⟨isFinite_exact _, isFinite_exact _, isFinite_exact _⟩

/-! ### Decoding -/

/-- A count. -/
def count (n : ℕ) : Value := .literal (.number n)

/-- A value that is decoded to a stage: its name and its counts. -/
def DecodesStage (L : Lookup) (stage : StageMetricsSnapshot F) (v : Value) : Prop :=
  ∃ members, v = .object members ∧
    L.find members "name" = some (.string stage.name) ∧
    L.find members "input_count" = some (count stage.inputCount) ∧
    L.find members "output_count" = some (count stage.outputCount) ∧
    L.find members "filtered_count" = some (count stage.filteredCount) ∧
    L.find members "dropped_count" = some (count stage.droppedCount) ∧
    L.find members "error_count" = some (count stage.errorCount)

/-- A value that is decoded to a snapshot: its totals, and its stages in order. -/
def Decodes (L : Lookup) (s : PipelineMetricsSnapshot F) (v : Value) : Prop :=
  ∃ members stages, v = .object members ∧
    L.find members "total_input" = some (count s.totalInput) ∧
    L.find members "total_output" = some (count s.totalOutput) ∧
    L.find members "stages" = some (.array stages) ∧
    List.Forall₂ (DecodesStage L) s.stages stages

omit [FloatDisplay F] in
/-- A value that is decoded to a stage has its name in it. -/
theorem DecodesStage.length_le {L : Lookup} {stage : StageMetricsSnapshot F} {v : Value}
    (h : DecodesStage L stage v) : stage.name.length ≤ v.letters := by
  obtain ⟨members, rfl, hname, -⟩ := h
  exact letters_le_of_mem (L.mem_of_find hname)

/-- Values that are decoded to items have as many characters as these at least. -/
theorem sum_le_itemLetters {α : Type u} {R : α → Value → Prop} {xs : List α} {vs : List Value}
    (h : List.Forall₂ R xs vs) (n : α → ℕ) (hR : ∀ x v, R x v → n x ≤ v.letters) :
    (xs.map n).sum ≤ itemLetters vs := by
  induction h with
  | nil => exact Nat.le_refl 0
  | @cons x v _ _ hx _ ih =>
    rw [List.map_cons, List.sum_cons, itemLetters]
    exact Nat.add_le_add (hR x v hx) ih

omit [FloatDisplay F] in
/-- And one that is decoded to a snapshot all names. -/
theorem Decodes.length_le {L : Lookup} {s : PipelineMetricsSnapshot F} {v : Value} (h : Decodes L s v) :
    (s.stages.map (·.name.length)).sum ≤ v.letters := by
  obtain ⟨members, stages, rfl, -, -, hstages, hdecodes⟩ := h
  have hle : itemLetters stages ≤ memberLetters members := letters_le_of_mem (L.mem_of_find hstages)
  exact (sum_le_itemLetters hdecodes _ fun _ _ => DecodesStage.length_le).trans hle

/-! ### Stages -/

/-- The tokens of a stage, after its name. -/
def stageTokens (stage : StageMetricsSnapshot F) : List (List Token) :=
  [member "input_count" (toString stage.inputCount),
    member "output_count" (toString stage.outputCount),
    member "filtered_count" (toString stage.filteredCount),
    member "dropped_count" (toString stage.droppedCount),
    member "error_count" (toString stage.errorCount),
    member "throughput_ratio" (fixed 4 stage.throughputRatio),
    [.string "latency", .colon, .openObject],
    member "mean_ns" (fixed 2 stage.latency.meanNs),
    lastMember "p99_ns" (toString stage.latency.p99Ns),
    [.closeObject, .comma],
    [.string "jitter", .colon, .openObject],
    lastMember "std_dev_ns" (fixed 2 stage.jitter.stdDevNs),
    [.closeObject],
    [.closeObject]]

/-- The lines of a stage: the name, and what follows. -/
theorem stageToJson_parts {stage : StageMetricsSnapshot F} (h : stage.Finite) (isLast : Bool) :
    ∃ rest, stageToJson stage isLast = "    \x7b\n" ++ ("      \"name\": \"" ++ stage.name ++ "\",\n" ++ rest) ∧
      Scans (.word []) rest.toList ((stageTokens stage).flatten ++ commaUnless isLast) (.word []) := by
  refine ⟨_, (String.join_cons ..).trans (congrArg _ (String.join_cons ..)), ?_⟩
  have hcomma : Scans (.word []) (if isLast then "" else ",").toList (commaUnless isLast) (.word []) := by
    cases isLast <;> rfl
  have htokens : (stageTokens stage).flatten ++ commaUnless isLast =
      (stageTokens stage ++ [commaUnless isLast, []]).flatten := by simp
  rw [htokens]
  refine scans_lines ?_
  rw [stageTokens, List.cons_append]
  exact .cons (scans_member rfl (isLiteral_toString stage.inputCount)) <|
    .cons (scans_member rfl (isLiteral_toString stage.outputCount)) <|
    .cons (scans_member rfl (isLiteral_toString stage.filteredCount)) <|
    .cons (scans_member rfl (isLiteral_toString stage.droppedCount)) <|
    .cons (scans_member rfl (isLiteral_toString stage.errorCount)) <|
    .cons (scans_member rfl (isLiteral_fixed (by decide) h.throughputRatio)) <|
    .cons rfl <|
    .cons (scans_member rfl (isLiteral_fixed (by decide) h.latencyMean)) <|
    .cons (scans_lastMember rfl (isLiteral_toString stage.latency.p99Ns)) <|
    .cons rfl <|
    .cons rfl <|
    .cons (scans_lastMember rfl (isLiteral_fixed (by decide) h.jitterStdDev)) <|
    .cons rfl <| .cons rfl <| .cons hcomma <| .cons rfl .nil

/-- All tokens of a stage. -/
def namedTokens (stage : StageMetricsSnapshot F) : List Token :=
  [.openObject, .string "name", .colon, .string stage.name, .comma] ++ (stageTokens stage).flatten

/-- A member of an object that is a number. -/
def numberMember (key text : String) : String × Value := (key, .literal (literalOf text))

/-- The value of a stage. -/
def stageValue (stage : StageMetricsSnapshot F) : Value :=
  .object
    [("name", .string stage.name),
      numberMember "input_count" (toString stage.inputCount),
      numberMember "output_count" (toString stage.outputCount),
      numberMember "filtered_count" (toString stage.filteredCount),
      numberMember "dropped_count" (toString stage.droppedCount),
      numberMember "error_count" (toString stage.errorCount),
      numberMember "throughput_ratio" (fixed 4 stage.throughputRatio),
      ("latency", .object
        [numberMember "mean_ns" (fixed 2 stage.latency.meanNs),
          numberMember "p99_ns" (toString stage.latency.p99Ns)]),
      ("jitter", .object [numberMember "std_dev_ns" (fixed 2 stage.jitter.stdDevNs)])]

theorem parses_stage (stage : StageMetricsSnapshot F) : Parser.Parses (namedTokens stage) (stageValue stage) :=
  fun _ => rfl

theorem decodes_stageValue (L : Lookup) (stage : StageMetricsSnapshot F) :
    DecodesStage L stage (stageValue stage) := by
  refine ⟨_, rfl, ?_, ?_, ?_, ?_, ?_, ?_⟩ <;> refine L.find_of_unique ?_ ?_ <;>
    simp [numberMember, count]

theorem scans_stageOpening : Scans (.word []) "    \x7b\n".toList [.openObject] (.word []) := rfl

/-- The name of a stage starts a string. -/
theorem scans_nameKey :
    Scans (.word []) "      \"name\": \"".toList [.string "name", .colon] (.string []) := rfl

/-- A stage with a plain name. -/
theorem scans_stage {stage : StageMetricsSnapshot F} (h : stage.Finite) (hplain : Plain stage.name.toList)
    (isLast : Bool) :
    Scans (.word []) (stageToJson stage isLast).toList (namedTokens stage ++ commaUnless isLast) (.word []) := by
  obtain ⟨rest, heq, hrest⟩ := stageToJson_parts h isLast
  have hname := scans_string hplain
  rw [String.ofList_toList] at hname
  have hall := scans_stageOpening.append ((scans_nameKey.append hname).append hrest)
  rw [heq]
  simpa [namedTokens] using hall

/-- A stage is its name of strings at most, and only as much if this is plain. -/
theorem costs_stage {stage : StageMetricsSnapshot F} (h : stage.Finite) (isLast : Bool) :
    Costs (stageToJson stage isLast).toList stage.name.length (Plain stage.name.toList) := by
  obtain ⟨rest, heq, hrest⟩ := stageToJson_parts h isLast
  have hcost : cost ((stageTokens stage).flatten ++ commaUnless isLast) = 0 := by cases isLast <;> rfl
  have hname : Costs _ stage.name.toList.length (Plain stage.name.toList) := costs_string scans_nameKey rfl
  have hall := (costs_of_scans scans_stageOpening rfl).append (hname.append (costs_of_scans hrest hcost))
  rw [heq]
  simpa [← String.length_toList] using hall

/-! ### Snapshots -/

variable [DecidableLT F]

/-- The tokens of a snapshot before its stages. -/
def headTokens (s : PipelineMetricsSnapshot F) : List (List Token) :=
  [[.openObject],
    member "throughput" (fixed 2 s.throughput),
    member "total_input" (toString s.totalInput),
    member "total_output" (toString s.totalOutput),
    member "drop_rate" (fixed 4 s.dropRate),
    member "elapsed_secs" (fixed 3 s.elapsedSecs),
    [.string "end_to_end_latency", .colon, .openObject],
    member "count" (toString s.endToEndLatency.count),
    member "mean_ns" (fixed 2 s.endToEndLatency.meanNs),
    member "p50_ns" (toString s.endToEndLatency.p50Ns),
    member "p95_ns" (toString s.endToEndLatency.p95Ns),
    member "p99_ns" (toString s.endToEndLatency.p99Ns),
    lastMember "p999_ns" (toString s.endToEndLatency.p999Ns),
    [.closeObject, .comma],
    [.string "end_to_end_jitter", .colon, .openObject],
    member "count" (toString s.endToEndJitter.count),
    member "mean_ns" (fixed 2 s.endToEndJitter.meanNs),
    lastMember "std_dev_ns" (fixed 2 s.endToEndJitter.stdDevNs),
    [.closeObject, .comma],
    [.string "stages", .colon, .openArray]]

/-- All tokens of a snapshot. -/
def jsonTokens (s : PipelineMetricsSnapshot F) : List Token :=
  (headTokens s).flatten ++ (Parser.separated (s.stages.map namedTokens) ++ [.closeArray, .closeObject])

/-- The value of a snapshot. -/
def jsonValue (s : PipelineMetricsSnapshot F) : Value :=
  .object
    [numberMember "throughput" (fixed 2 s.throughput),
      numberMember "total_input" (toString s.totalInput),
      numberMember "total_output" (toString s.totalOutput),
      numberMember "drop_rate" (fixed 4 s.dropRate),
      numberMember "elapsed_secs" (fixed 3 s.elapsedSecs),
      ("end_to_end_latency", .object
        [numberMember "count" (toString s.endToEndLatency.count),
          numberMember "mean_ns" (fixed 2 s.endToEndLatency.meanNs),
          numberMember "p50_ns" (toString s.endToEndLatency.p50Ns),
          numberMember "p95_ns" (toString s.endToEndLatency.p95Ns),
          numberMember "p99_ns" (toString s.endToEndLatency.p99Ns),
          numberMember "p999_ns" (toString s.endToEndLatency.p999Ns)]),
      ("end_to_end_jitter", .object
        [numberMember "count" (toString s.endToEndJitter.count),
          numberMember "mean_ns" (fixed 2 s.endToEndJitter.meanNs),
          numberMember "std_dev_ns" (fixed 2 s.endToEndJitter.stdDevNs)]),
      ("stages", .array (s.stages.map stageValue))]

theorem parses_json (s : PipelineMetricsSnapshot F) : Parser.Parses (jsonTokens s) (jsonValue s) := by
  intro stack
  have hstages : List.Forall₂ Parser.Parses (s.stages.map namedTokens) (s.stages.map stageValue) := by
    rw [List.forall₂_map_left_iff, List.forall₂_map_right_iff]
    exact List.forall₂_same.2 fun stage _ => parses_stage stage
  exact (Parser.run_array hstages).trans rfl

/-- The stages of a snapshot, as they are written. -/
def stagesText (s : PipelineMetricsSnapshot F) : String :=
  String.join (s.stages.mapIdx fun i stage => stageToJson stage (i == s.stages.length - 1))

/-- The text of a snapshot: the lines before the stages, the stages and the lines after them. -/
theorem toJson_parts {s : PipelineMetricsSnapshot F} (h : s.Finite) :
    ∃ before after, toJson s = before ++ stagesText s ++ after ∧
      Scans (.word []) before.toList (headTokens s).flatten (.word []) ∧
      Scans (.word []) after.toList [.closeArray, .closeObject] (.word []) := by
  refine ⟨_, _, rfl, scans_lines ?_, rfl⟩
  exact .cons rfl <|
    .cons (scans_member rfl (isLiteral_fixed (by decide) h.throughput)) <|
    .cons (scans_member rfl (isLiteral_toString s.totalInput)) <|
    .cons (scans_member rfl (isLiteral_toString s.totalOutput)) <|
    .cons (scans_member rfl (isLiteral_fixed (by decide) h.dropRate)) <|
    .cons (scans_member rfl (isLiteral_fixed (by decide) h.elapsedSecs)) <|
    .cons rfl <|
    .cons (scans_member rfl (isLiteral_toString s.endToEndLatency.count)) <|
    .cons (scans_member rfl (isLiteral_fixed (by decide) h.latencyMean)) <|
    .cons (scans_member rfl (isLiteral_toString s.endToEndLatency.p50Ns)) <|
    .cons (scans_member rfl (isLiteral_toString s.endToEndLatency.p95Ns)) <|
    .cons (scans_member rfl (isLiteral_toString s.endToEndLatency.p99Ns)) <|
    .cons (scans_lastMember rfl (isLiteral_toString s.endToEndLatency.p999Ns)) <|
    .cons rfl <|
    .cons rfl <|
    .cons (scans_member rfl (isLiteral_toString s.endToEndJitter.count)) <|
    .cons (scans_member rfl (isLiteral_fixed (by decide) h.jitterMean)) <|
    .cons (scans_lastMember rfl (isLiteral_fixed (by decide) h.jitterStdDev)) <|
    .cons rfl <| .cons rfl .nil

theorem scans_toJson {s : PipelineMetricsSnapshot F} (h : s.Finite)
    (hplain : ∀ stage ∈ s.stages, Plain stage.name.toList) :
    Scans (.word []) (toJson s).toList (jsonTokens s) (.word []) := by
  obtain ⟨before, after, heq, hbefore, hafter⟩ := toJson_parts h
  have hstages : Scans (.word []) (stagesText s).toList
      (Parser.separated (s.stages.map namedTokens)) (.word []) := by
    refine scans_mapIdx fun i hi stage hstage => ?_
    have hlast : (i + 1 == s.stages.length) = (i == s.stages.length - 1) := by
      rw [Bool.eq_iff_iff, beq_iff_eq, beq_iff_eq]
      omega
    rw [hlast]
    exact scans_stage (h.stages stage hstage) (hplain stage hstage) _
  rw [heq, String.toList_append, String.toList_append, List.append_assoc]
  exact hbefore.append (hstages.append hafter)

/-- A snapshot is the names of its stages of strings at most, and only as much if these are plain. -/
theorem costs_toJson {s : PipelineMetricsSnapshot F} (h : s.Finite) :
    Costs (toJson s).toList (s.stages.map (·.name.length)).sum (∀ stage ∈ s.stages, Plain stage.name.toList) := by
  obtain ⟨before, after, heq, hbefore, hafter⟩ := toJson_parts h
  have hstages : Costs (stagesText s).toList (s.stages.map (·.name.length)).sum
      (∀ stage ∈ s.stages, Plain stage.name.toList) :=
    costs_mapIdx fun i _ stage hstage => costs_stage (h.stages stage hstage) _
  have hall := (costs_of_scans hbefore rfl).append (hstages.append (costs_of_scans hafter rfl))
  rw [Nat.add_zero, Nat.zero_add, true_and, and_true] at hall
  rw [heq, String.toList_append, String.toList_append, List.append_assoc]
  exact hall

/-! ### Recorders -/

/-- The lines of a snapshot, as a recorder indents them. -/
def indented (s : PipelineMetricsSnapshot F) : String :=
  String.join ((lines (toJson s)).map fun line => "  " ++ line ++ "\n")

theorem getLast?_toJson (s : PipelineMetricsSnapshot F) : (toJson s).toList.getLast? = some '\n' := by
  obtain ⟨before, heq⟩ : ∃ before, toJson s = before ++ String.join ["  ]\n", "\x7d\n"] := ⟨_, rfl⟩
  have hend : (String.join ["  ]\n", "\x7d\n"]).toList = "  ]\n\x7d".toList ++ ['\n'] := rfl
  rw [heq, String.toList_append, hend, ← List.append_assoc, List.getLast?_concat]

/-- The tokens of all snapshots of a recorder. -/
def recorderTokens (r : MetricsRecorder F) : List Token :=
  .openArray :: (Parser.separated (r.snapshots.map jsonTokens) ++ [.closeArray])

theorem parses_recorder (r : MetricsRecorder F) :
    Parser.Parses (recorderTokens r) (.array (r.snapshots.map jsonValue)) := by
  intro stack
  have hsnapshots : List.Forall₂ Parser.Parses (r.snapshots.map jsonTokens) (r.snapshots.map jsonValue) := by
    rw [List.forall₂_map_left_iff, List.forall₂_map_right_iff]
    exact List.forall₂_same.2 fun s _ => parses_json s
  exact (Parser.run_array hsnapshots).trans rfl

/-- A snapshot of a recorder, and the comma after it. -/
def itemText (r : MetricsRecorder F) (i : ℕ) (s : PipelineMetricsSnapshot F) : String :=
  indented s ++ if i < r.snapshots.length - 1 then ",\n" else ""

theorem exportJson_eq (r : MetricsRecorder F) :
    r.exportJson = "[\n" ++ String.join (r.snapshots.mapIdx (itemText r)) ++ "]\n" := rfl

theorem scans_recorderOpening : Scans (.word []) "[\n".toList [.openArray] (.word []) := rfl

theorem scans_recorderClosing : Scans (.word []) "]\n".toList [.closeArray] (.word []) := rfl

/-- What follows a snapshot. -/
theorem scans_comma {i n : ℕ} (hi : i < n) :
    Scans (.word []) (if i < n - 1 then ",\n" else "").toList (commaUnless (i + 1 == n)) (.word []) := by
  by_cases hlast : i < n - 1
  · have hnext : (i + 1 == n) = false := beq_false_of_ne (by omega)
    rw [if_pos hlast, hnext]
    rfl
  · have hnext : (i + 1 == n) = true := beq_iff_eq.2 (by omega)
    rw [if_neg hlast, hnext]
    rfl

theorem scans_exportJson {r : MetricsRecorder F} (h : ∀ s ∈ r.snapshots, s.Finite)
    (hplain : ∀ s ∈ r.snapshots, ∀ stage ∈ s.stages, Plain stage.name.toList) :
    Scans (.word []) r.exportJson.toList (recorderTokens r) (.word []) := by
  have hitems : Scans (.word []) (String.join (r.snapshots.mapIdx (itemText r))).toList
      (Parser.separated (r.snapshots.map jsonTokens)) (.word []) := by
    refine scans_mapIdx fun i hi s hs => ?_
    rw [itemText, String.toList_append]
    have hsnapshot := (scans_indented (getLast?_toJson s)).2 (scans_toJson (h s hs) (hplain s hs))
    exact hsnapshot.append (scans_comma hi)
  rw [exportJson_eq, String.toList_append, String.toList_append, List.append_assoc]
  exact scans_recorderOpening.append (hitems.append scans_recorderClosing)

theorem costs_exportJson {r : MetricsRecorder F} (h : ∀ s ∈ r.snapshots, s.Finite) :
    Costs r.exportJson.toList (r.snapshots.map fun s => (s.stages.map (·.name.length)).sum).sum
      (∀ s ∈ r.snapshots, ∀ stage ∈ s.stages, Plain stage.name.toList) := by
  have hitems : Costs (String.join (r.snapshots.mapIdx (itemText r))).toList
      (r.snapshots.map fun s => (s.stages.map (·.name.length)).sum).sum
      (∀ s ∈ r.snapshots, ∀ stage ∈ s.stages, Plain stage.name.toList) := by
    refine costs_mapIdx fun i hi s hs => ?_
    have hsnapshot : Costs (indented s).toList (s.stages.map (·.name.length)).sum
        (∀ stage ∈ s.stages, Plain stage.name.toList) :=
      fun ts m hscans => costs_toJson (h s hs) ((scans_indented (getLast?_toJson s)).1 hscans)
    have hcomma : Costs (if i < r.snapshots.length - 1 then ",\n" else "").toList 0 True :=
      costs_of_scans (scans_comma hi) (cost_commaUnless _)
    have hall := hsnapshot.append hcomma
    rw [Nat.add_zero, and_true] at hall
    rw [itemText, String.toList_append]
    exact hall
  have hafter := hitems.append (costs_of_scans scans_recorderClosing rfl)
  have hall := (costs_of_scans scans_recorderOpening rfl).append hafter
  rw [Nat.add_zero, Nat.zero_add, true_and, and_true] at hall
  rw [exportJson_eq, String.toList_append, String.toList_append, List.append_assoc]
  exact hall

/-! ### What is read -/

theorem decodes_jsonValue (L : Lookup) (s : PipelineMetricsSnapshot F) : Decodes L s (jsonValue s) := by
  refine ⟨_, s.stages.map stageValue, rfl, ?_, ?_, ?_, ?_⟩
  · refine L.find_of_unique ?_ ?_ <;> simp [numberMember, count]
  · refine L.find_of_unique ?_ ?_ <;> simp [numberMember, count]
  · refine L.find_of_unique ?_ ?_ <;> simp [numberMember]
  · rw [List.forall₂_map_right_iff]
    exact List.forall₂_same.2 fun stage _ => decodes_stageValue L stage

/-- **The JSON export is faithful** exactly when the names of the stages are plain: then the text of a
finite snapshot is read as an object with its totals and its stages, and that of a recorder as an
array of such objects, one for each of its snapshots, in order. Which of several members of one
name is taken makes no difference. -/
theorem json_faithful (L : Lookup) :
    (∀ s : PipelineMetricsSnapshot F, s.Finite →
      ((∃ v, read (toJson s) = some v ∧ Decodes L s v) ↔ ∀ stage ∈ s.stages, Plain stage.name.toList)) ∧
    ∀ r : MetricsRecorder F, (∀ s ∈ r.snapshots, s.Finite) →
      ((∃ vs, read r.exportJson = some (.array vs) ∧ List.Forall₂ (Decodes L) r.snapshots vs) ↔
        ∀ s ∈ r.snapshots, ∀ stage ∈ s.stages, Plain stage.name.toList) := by
  refine ⟨fun s h => ⟨?_, fun hplain => ?_⟩, fun r h => ⟨?_, fun hplain => ?_⟩⟩
  · rintro ⟨v, hread, hdecodes⟩
    exact ((costs_toJson h).letters_le hread).2 hdecodes.length_le
  · exact ⟨jsonValue s, read_of_scans (scans_toJson h hplain) (parses_json s), decodes_jsonValue L s⟩
  · rintro ⟨vs, hread, hdecodes⟩
    have hle := sum_le_itemLetters hdecodes _ fun _ _ => Decodes.length_le
    exact ((costs_exportJson h).letters_le hread).2 hle
  · refine ⟨_, read_of_scans (scans_exportJson h hplain) (parses_recorder r), ?_⟩
    rw [List.forall₂_map_right_iff]
    exact List.forall₂_same.2 fun s _ => decodes_jsonValue L s

/-- Two stages after half a second: 1000 items went in, 990 came through the first and 987 out. -/
def halfSecond : PipelineMetricsSnapshot ℚ where
  stages := [⟨"imu", 1000, 990, 7, 3, 0, ⟨990, 1234.5, 1200, 1900, 2500, 4100⟩, ⟨990, 1234.5, 210.25⟩⟩,
    ⟨"fusion", 990, 987, 2, 0, 1, ⟨987, 880.125, 800, 1300, 1700, 2200⟩, ⟨987, 880.125, 95⟩⟩]
  endToEndLatency := ⟨987, 21500, 20000, 31000, 47000, 65000⟩
  endToEndJitter := ⟨987, 21500, 3100.5⟩
  totalInput := 1000
  totalOutput := 987
  elapsedSecs := 0.5

open scoped Foundation.Exact in
/-- Plain names, of one snapshot and of two. -/
theorem json_faithful_plain :
    (∃ v, read (toJson halfSecond) = some v ∧ Decodes Lookup.first halfSecond v) ∧
      ∃ vs, read (MetricsRecorder.exportJson ⟨[idle ["imu"], halfSecond], 2⟩) = some (.array vs) ∧
        List.Forall₂ (Decodes Lookup.first) [idle ["imu"], halfSecond] vs :=
  ⟨((json_faithful Lookup.first).1 halfSecond (finite_exact _)).2 (by simp [halfSecond, Plain]),
    ((json_faithful Lookup.first).2 ⟨[idle ["imu"], halfSecond], 2⟩ fun s _ => finite_exact s).2
      (by simp [idle, halfSecond, Plain])⟩

open scoped Foundation.Exact in
/-- A name with a quote: the text is not that of its snapshot. -/
theorem not_decodes_quote :
    ¬ ∃ v, read (toJson (idle ["a\"b"])) = some v ∧ Decodes Lookup.first (idle ["a\"b"]) v := by
  rintro ⟨v, hread, hdecodes⟩
  have hplain := ((costs_toJson (finite_exact _)).letters_le hread).2 hdecodes.length_le
  have hname : Plain "a\"b".toList := hplain _ (List.mem_singleton.2 rfl)
  simp [Plain] at hname

end SensorBridge.Metrics.Export
