import SensorBridge.Channel.Bounded
import SensorBridge.Pipeline.StageHandle
import SensorBridge.Stage.Traits
import Mathlib.Data.List.Induction
import Mathlib.Tactic.SplitIfs

/-!
# The stage worker

`stage_worker` is the loop each stage's thread runs. Here it is a program counter
and a step for each thing that another thread can see or change: the loads and
stores of the control cells, the operations on the two channels, the counters, and
the calls of the stage's methods. `Worker.step` is a function, since a worker has no
choice: what varies is what it finds in the cells and the channels.

A worker also keeps a history, which the source does not have: what it took from its
input, what the stage's methods returned, and what became of each value.

The latency histogram and the times are left out; nothing reads them here.
-/

namespace SensorBridge.Pipeline

open Channel

universe u

/-- Metrics for a single pipeline stage. -/
structure StageMetrics where
  /-- Number of items received. -/
  inputCount : ℕ
  /-- Number of items output. -/
  outputCount : ℕ
  /-- Number of items filtered (dropped by stage logic). -/
  filteredCount : ℕ
  /-- Number of items dropped due to backpressure. -/
  droppedCount : ℕ
  deriving DecidableEq

namespace StageMetrics

/-- `StageMetrics::new`. -/
def new : StageMetrics := ⟨0, 0, 0, 0⟩

/-- Records processing of an input item. -/
def recordInput (m : StageMetrics) : StageMetrics := { m with inputCount := m.inputCount + 1 }

/-- Records an output item. -/
def recordOutput (m : StageMetrics) : StageMetrics := { m with outputCount := m.outputCount + 1 }

/-- Records a filtered (dropped by stage) item. -/
def recordFiltered (m : StageMetrics) : StageMetrics := { m with filteredCount := m.filteredCount + 1 }

/-- Records a dropped item due to backpressure. -/
def recordDropped (m : StageMetrics) : StageMetrics := { m with droppedCount := m.droppedCount + 1 }

/-- Resets all metrics. -/
def reset (_ : StageMetrics) : StageMetrics := new

end StageMetrics

/-! ### What a worker has done -/

/-- What a worker's history records. -/
inductive Event (ι ο : Type u) where
  /-- `recv_timeout` returned this item. -/
  | took (item : ι)
  /-- `stage.process(item)` returned. -/
  | processed (item : ι) (result : Option ο)
  /-- `stage.tick()` returned. -/
  | ticked (result : Option ο)
  /-- `stage.flush()` returned. -/
  | flushed (result : Option ο)
  /-- The value was put in the output channel. -/
  | placed (value : ο)
  /-- `send_or_drop` dropped the value. -/
  | dropped (value : ο)
  /-- `send` gave the value back. -/
  | refused (value : ο)
  /-- `stage.reset()`. -/
  | stageReset
  /-- `metrics.reset()`. -/
  | metricsReset

namespace Event

variable {ι ο : Type u}

/-- The item taken. -/
@[simp] def took? : Event ι ο → Option ι
  | took item => some item
  | _ => none

/-- The item processed. -/
@[simp] def item? : Event ι ο → Option ι
  | processed item _ => some item
  | _ => none

/-- What `process` returned. -/
@[simp] def result? : Event ι ο → Option ο
  | processed _ result => result
  | _ => none

/-- An item for which `process` returned `None`. -/
@[simp] def filtered? : Event ι ο → Option ι
  | processed item none => some item
  | _ => none

/-- What `tick` or `flush` returned. -/
@[simp] def extra? : Event ι ο → Option ο
  | ticked result | flushed result => result
  | _ => none

/-- What any method returned. -/
@[simp] def out? : Event ι ο → Option ο
  | processed _ result | ticked result | flushed result => result
  | _ => none

/-- A value put in the output channel. -/
@[simp] def placed? : Event ι ο → Option ο
  | placed value => some value
  | _ => none

/-- A value dropped. -/
@[simp] def dropped? : Event ι ο → Option ο
  | dropped value => some value
  | _ => none

/-- A value given back by `send`. -/
@[simp] def refused? : Event ι ο → Option ο
  | refused value => some value
  | _ => none

/-- A value sent, whatever became of it. -/
@[simp] def handled? : Event ι ο → Option ο
  | placed value | dropped value | refused value => some value
  | _ => none

/-- Whether the stage was reset. -/
@[simp] def isStageReset : Event ι ο → Bool
  | stageReset => true
  | _ => false

/-- Whether `flush` was called. -/
@[simp] def isFlushed : Event ι ο → Bool
  | flushed _ => true
  | _ => false

end Event

section Histories

variable {ι ο : Type u}

/-- What has happened since the last `metrics.reset()`. -/
def sinceReset (es : List (Event ι ο)) : List (Event ι ο) :=
  es.foldl (fun acc e => match e with
    | .metricsReset => []
    | e => acc ++ [e]) []

/-- What one event holds of a kind. -/
@[simp] theorem filterMap_singleton {α : Type u} {β : Type u} (f : α → Option β) (e : α) :
    [e].filterMap f = (f e).toList := by
  rw [List.filterMap_cons, List.filterMap_nil]
  cases f e <;> rfl

/-- An event that holds nothing of a kind. -/
theorem filterMap_concat_none {α : Type u} {β : Type u} {f : α → Option β} {e : α} (h : f e = none)
    (es : List α) : (es ++ [e]).filterMap f = es.filterMap f := by
  rw [List.filterMap_append, filterMap_singleton, h, Option.toList_none, List.append_nil]

theorem sinceReset_concat (es : List (Event ι ο)) (e : Event ι ο) :
    sinceReset (es ++ [e]) = match e with
      | .metricsReset => []
      | e => sinceReset es ++ [e] := by
  simp only [sinceReset, List.foldl_append, List.foldl_cons, List.foldl_nil]

theorem sinceReset_append {es new : List (Event ι ο)} (h : .metricsReset ∉ new) :
    sinceReset (es ++ new) = sinceReset es ++ new := by
  induction new using List.reverseRecOn with
  | nil => simp
  | append_singleton new e ih =>
    rw [List.mem_append, not_or] at h
    rw [← List.append_assoc, sinceReset_concat]
    cases e with
    | metricsReset => exact absurd (List.mem_singleton_self _) h.2
    | _ => simp only [ih h.1, List.append_assoc]

theorem sinceReset_suffix (es : List (Event ι ο)) : sinceReset es <:+ es := by
  induction es using List.reverseRecOn with
  | nil => exact List.suffix_rfl
  | append_singleton es e ih =>
    rw [sinceReset_concat]
    obtain ⟨old, hold⟩ := ih
    cases e with
    | metricsReset => exact List.nil_suffix
    | _ => exact ⟨old, by rw [← List.append_assoc, hold]⟩

/-- Every value sent was put in the channel, dropped, or given back. -/
theorem handled_perm (es : List (Event ι ο)) : (es.filterMap Event.handled?).Perm
    (es.filterMap Event.placed? ++ es.filterMap Event.dropped? ++ es.filterMap Event.refused?) := by
  induction es with
  | nil => exact .nil
  | cons e es ih =>
    cases e with
    | placed y => exact ih.cons y
    | dropped y =>
      refine (ih.cons y).trans ?_
      simp only [List.filterMap_cons, Event.placed?, Event.dropped?, Event.refused?, List.append_assoc,
        List.cons_append]
      exact List.perm_middle.symm
    | refused y =>
      refine (ih.cons y).trans ?_
      simp only [List.filterMap_cons, Event.placed?, Event.dropped?, Event.refused?]
      exact List.perm_middle.symm
    | _ => exact ih

/-- What was put in the channel was sent, in that order. -/
theorem placed_sublist_handled (es : List (Event ι ο)) :
    (es.filterMap Event.placed?).Sublist (es.filterMap Event.handled?) := by
  induction es with
  | nil => exact .slnil
  | cons e es ih =>
    cases e with
    | placed y => exact ih.cons_cons y
    | dropped y | refused y => exact ih.cons y
    | _ => exact ih

end Histories

/-! ### The loop -/

/-- Where a worker is in `stage_worker`: what it does next. -/
inductive Pc (ι ο : Type u) where
  /-- `control.set_state(StageState::Running)`. -/
  | start
  /-- The head of the loop: `control.is_shutdown()`. -/
  | checkShutdown
  /-- `control.is_paused()`. -/
  | checkPaused
  /-- `control.command()`. -/
  | checkCommand
  /-- `stage.reset()`. -/
  | stageReset
  /-- `metrics.reset()`. -/
  | metricsReset
  /-- The first store of `control.set_command(StageCommand::Run)`. -/
  | ackCommand
  /-- The second store of `control.set_command(StageCommand::Run)`. -/
  | ackFlag
  /-- `input.recv_timeout(recv_timeout)` is called. -/
  | recv
  /-- `input.recv_timeout(recv_timeout)` returns. -/
  | waiting
  /-- `metrics.record_input()`. -/
  | recordInput (item : ι)
  /-- `stage.process(item)`. -/
  | process (item : ι)
  /-- `output.send_or_drop(result)`. -/
  | sendOrDrop (result : ο)
  /-- `metrics.record_output()`, after a send. -/
  | recordOutput
  /-- `metrics.record_dropped()`. -/
  | recordDropped
  /-- `metrics.record_filtered()`. -/
  | recordFiltered
  /-- `stage.tick()`. -/
  | tick
  /-- `control.set_state(StageState::Stopping)`, after the loop. -/
  | stopping
  /-- `stage.flush()`. -/
  | flush
  /-- `output.send(result)`. -/
  | send (result : ο)
  /-- `metrics.record_output()`, after `output.send`. -/
  | recordFlush
  /-- `control.set_state(StageState::Stopped)`. -/
  | stopped
  /-- The parameters are dropped, the last first: `output`. -/
  | dropOutput
  /-- The parameters are dropped: `input`. -/
  | dropInput
  /-- The function has returned. -/
  | returned
  deriving DecidableEq

namespace Pc

variable {ι ο : Type u}

/-- Whether the worker is in its loop, or before it. -/
@[simp] def inLoop : Pc ι ο → Bool
  | stopping | flush | send _ | recordFlush | stopped | dropOutput | dropInput | returned => false
  | _ => true

/-- Whether the worker is at the head of its loop. -/
@[simp] def isLoopHead : Pc ι ο → Bool
  | checkShutdown => true
  | _ => false

/-- Whether the worker has dropped its output sender. -/
@[simp] def hasDroppedOutput : Pc ι ο → Bool
  | dropInput | returned => true
  | _ => false

/-- Whether the worker has returned. -/
@[simp] def isReturned : Pc ι ο → Bool
  | returned => true
  | _ => false

/-- The item in hand. -/
@[simp] def item : Pc ι ο → Option ι
  | recordInput item | process item => some item
  | _ => none

/-- The value in hand. -/
@[simp] def result : Pc ι ο → Option ο
  | sendOrDrop result | send result => some result
  | _ => none

/-- Whether `record_input` is due for an item already taken. -/
@[simp] def owedInput : Pc ι ο → ℕ
  | recordInput _ => 1
  | _ => 0

/-- Whether `record_output` is due. -/
@[simp] def owedOutput : Pc ι ο → ℕ
  | recordOutput | recordFlush => 1
  | _ => 0

/-- Whether `record_dropped` is due for a value already dropped. -/
@[simp] def owedDropped : Pc ι ο → ℕ
  | recordDropped => 1
  | _ => 0

/-- Whether `record_filtered` is due for an item already processed. -/
@[simp] def owedFiltered : Pc ι ο → ℕ
  | recordFiltered => 1
  | _ => 0

variable {pc : Pc ι ο}

theorem eq_returned (h : pc.isReturned = true) : pc = .returned := by
  cases pc with
  | returned => rfl
  | _ => cases h

theorem isReturned_of_inLoop (h : pc.inLoop = true) : pc.isReturned = false := by
  cases pc with
  | returned => cases h
  | _ => rfl

theorem inLoop_of_hasDroppedOutput (h : pc.hasDroppedOutput = true) : pc.inLoop = false := by
  cases pc with
  | dropInput | returned => rfl
  | _ => cases h

end Pc

/-- A worker: the arguments and the local state of `stage_worker`, apart from the two
channels. -/
structure Worker {ι ο : Type u} (S : Stage ι ο) where
  /-- Where it is. -/
  pc : Pc ι ο
  /-- The stage. -/
  stage : S.State
  /-- The control cells. -/
  control : StageControl
  /-- The metrics. -/
  metrics : StageMetrics
  /-- What it has done, oldest first. -/
  hist : List (Event ι ο)

namespace Worker

variable {ι ο : Type u} {S : Stage ι ο}

/-- A worker about to run. -/
def spawn (S : Stage ι ο) : Worker S := ⟨.start, S.init, .new, .new, []⟩

/-- One step of `stage_worker`: `none` when it has returned, or when `output.send` blocks. -/
def step (w : Worker S) (input : Chan ι) (output : Chan ο) : Option (Worker S × Chan ι × Chan ο) :=
  match w.pc with
  | .start =>
    some ({ w with pc := .checkShutdown, control := w.control.setState .running }, input, output)
  | .checkShutdown =>
    some ({ w with pc := if w.control.shutdown then .stopping else .checkPaused }, input, output)
  | .checkPaused =>
    some ({ w with pc := if w.control.paused then .checkShutdown else .checkCommand }, input, output)
  | .checkCommand =>
    some ({ w with pc := if w.control.command = .reset then .stageReset else .recv }, input, output)
  | .stageReset =>
    some ({ w with pc := .metricsReset, stage := S.reset w.stage, hist := w.hist ++ [.stageReset] },
      input, output)
  | .metricsReset =>
    some ({ w with pc := .ackCommand, metrics := w.metrics.reset, hist := w.hist ++ [.metricsReset] },
      input, output)
  | .ackCommand =>
    some ({ w with pc := .ackFlag, control := w.control.storeCommand .run }, input, output)
  | .ackFlag => some ({ w with pc := .recv, control := w.control.storeFlag .run }, input, output)
  | .recv => some ({ w with pc := .waiting }, input.beginRecv, output)
  | .waiting =>
    match input.endRecv with
    | (.ok item, input) =>
      some ({ w with pc := .recordInput item, hist := w.hist ++ [.took item] }, input, output)
    | (.error .empty, input) => some ({ w with pc := .tick }, input, output)
    | (.error .disconnected, input) => some ({ w with pc := .stopping }, input, output)
  | .recordInput item =>
    some ({ w with pc := .process item, metrics := w.metrics.recordInput }, input, output)
  | .process item =>
    match S.process w.stage item with
    | (stage, some result) =>
      some ({ w with pc := .sendOrDrop result, stage := stage
                     hist := w.hist ++ [.processed item (some result)] }, input, output)
    | (stage, none) =>
      some ({ w with pc := .recordFiltered, stage := stage
                     hist := w.hist ++ [.processed item none] }, input, output)
  | .sendOrDrop result =>
    match output.sendOrDrop result with
    | (output, true) =>
      some ({ w with pc := .recordOutput, hist := w.hist ++ [.placed result] }, input, output)
    | (output, false) =>
      some ({ w with pc := .recordDropped, hist := w.hist ++ [.dropped result] }, input, output)
  | .recordOutput =>
    some ({ w with pc := .checkShutdown, metrics := w.metrics.recordOutput }, input, output)
  | .recordDropped =>
    some ({ w with pc := .checkShutdown, metrics := w.metrics.recordDropped }, input, output)
  | .recordFiltered =>
    some ({ w with pc := .checkShutdown, metrics := w.metrics.recordFiltered }, input, output)
  | .tick =>
    match S.tick w.stage with
    | (stage, some result) =>
      some ({ w with pc := .sendOrDrop result, stage := stage
                     hist := w.hist ++ [.ticked (some result)] }, input, output)
    | (stage, none) =>
      some ({ w with pc := .checkShutdown, stage := stage, hist := w.hist ++ [.ticked none] },
        input, output)
  | .stopping => some ({ w with pc := .flush, control := w.control.setState .stopping }, input, output)
  | .flush =>
    match S.flush w.stage with
    | (stage, some result) =>
      some ({ w with pc := .send result, stage := stage
                     hist := w.hist ++ [.flushed (some result)] }, input, output)
    | (stage, none) =>
      some ({ w with pc := .stopped, stage := stage, hist := w.hist ++ [.flushed none] }, input, output)
  | .send result =>
    -- let _ = output.send(result): what it returns is not looked at
    match output.send result with
    | none => none
    | some (.ok output) =>
      some ({ w with pc := .recordFlush, hist := w.hist ++ [.placed result] }, input, output)
    | some (.error _) =>
      some ({ w with pc := .recordFlush, hist := w.hist ++ [.refused result] }, input, output)
  | .recordFlush =>
    some ({ w with pc := .stopped, metrics := w.metrics.recordOutput }, input, output)
  | .stopped => some ({ w with pc := .dropOutput, control := w.control.setState .stopped }, input, output)
  | .dropOutput => some ({ w with pc := .dropInput }, input, output.dropSender)
  | .dropInput => some ({ w with pc := .returned }, input.dropReceiver, output)
  | .returned => none

/-- What one step of a worker can be. -/
inductive Step (w : Worker S) (input : Chan ι) (output : Chan ο) :
    Worker S → Chan ι → Chan ο → Prop
  | start : w.pc = .start →
      Step w input output { w with pc := .checkShutdown, control := w.control.setState .running }
        input output
  | shutdown : w.pc = .checkShutdown → w.control.shutdown = true →
      Step w input output { w with pc := .stopping } input output
  | notShutdown : w.pc = .checkShutdown → w.control.shutdown = false →
      Step w input output { w with pc := .checkPaused } input output
  | paused : w.pc = .checkPaused → w.control.paused = true →
      Step w input output { w with pc := .checkShutdown } input output
  | notPaused : w.pc = .checkPaused → w.control.paused = false →
      Step w input output { w with pc := .checkCommand } input output
  | reset : w.pc = .checkCommand → w.control.command = .reset →
      Step w input output { w with pc := .stageReset } input output
  | noReset : w.pc = .checkCommand → w.control.command ≠ .reset →
      Step w input output { w with pc := .recv } input output
  | stageReset : w.pc = .stageReset →
      Step w input output
        { w with pc := .metricsReset, stage := S.reset w.stage, hist := w.hist ++ [.stageReset] }
        input output
  | metricsReset : w.pc = .metricsReset →
      Step w input output
        { w with pc := .ackCommand, metrics := w.metrics.reset, hist := w.hist ++ [.metricsReset] }
        input output
  | ackCommand : w.pc = .ackCommand →
      Step w input output { w with pc := .ackFlag, control := w.control.storeCommand .run }
        input output
  | ackFlag : w.pc = .ackFlag →
      Step w input output { w with pc := .recv, control := w.control.storeFlag .run } input output
  | recv : w.pc = .recv → Step w input output { w with pc := .waiting } input.beginRecv output
  | took (item : ι) (queue : List ι) : w.pc = .waiting → input.queue = item :: queue →
      Step w input output { w with pc := .recordInput item, hist := w.hist ++ [.took item] }
        (input.take item queue) output
  | empty : w.pc = .waiting → input.queue = [] → input.sender = true →
      Step w input output { w with pc := .tick } input.giveUp output
  | disconnected : w.pc = .waiting → input.queue = [] → input.sender = false →
      Step w input output { w with pc := .stopping } input.giveUp output
  | recordInput (item : ι) : w.pc = .recordInput item →
      Step w input output { w with pc := .process item, metrics := w.metrics.recordInput } input output
  | processSome (item : ι) (stage : S.State) (result : ο) : w.pc = .process item →
      S.process w.stage item = (stage, some result) →
      Step w input output
        { w with pc := .sendOrDrop result, stage := stage
                 hist := w.hist ++ [.processed item (some result)] } input output
  | processNone (item : ι) (stage : S.State) : w.pc = .process item →
      S.process w.stage item = (stage, none) →
      Step w input output
        { w with pc := .recordFiltered, stage := stage, hist := w.hist ++ [.processed item none] }
        input output
  | placed (result : ο) : w.pc = .sendOrDrop result → output.receiver = true → output.HasRoom →
      Step w input output { w with pc := .recordOutput, hist := w.hist ++ [.placed result] }
        input (output.push result)
  | dropped (result : ο) : w.pc = .sendOrDrop result → ¬ (output.receiver = true ∧ output.HasRoom) →
      Step w input output { w with pc := .recordDropped, hist := w.hist ++ [.dropped result] }
        input output
  | recordOutput : w.pc = .recordOutput →
      Step w input output { w with pc := .checkShutdown, metrics := w.metrics.recordOutput }
        input output
  | recordDropped : w.pc = .recordDropped →
      Step w input output { w with pc := .checkShutdown, metrics := w.metrics.recordDropped }
        input output
  | recordFiltered : w.pc = .recordFiltered →
      Step w input output { w with pc := .checkShutdown, metrics := w.metrics.recordFiltered }
        input output
  | tickSome (stage : S.State) (result : ο) : w.pc = .tick → S.tick w.stage = (stage, some result) →
      Step w input output
        { w with pc := .sendOrDrop result, stage := stage, hist := w.hist ++ [.ticked (some result)] }
        input output
  | tickNone (stage : S.State) : w.pc = .tick → S.tick w.stage = (stage, none) →
      Step w input output
        { w with pc := .checkShutdown, stage := stage, hist := w.hist ++ [.ticked none] } input output
  | stopping : w.pc = .stopping →
      Step w input output { w with pc := .flush, control := w.control.setState .stopping } input output
  | flushSome (stage : S.State) (result : ο) : w.pc = .flush → S.flush w.stage = (stage, some result) →
      Step w input output
        { w with pc := .send result, stage := stage, hist := w.hist ++ [.flushed (some result)] }
        input output
  | flushNone (stage : S.State) : w.pc = .flush → S.flush w.stage = (stage, none) →
      Step w input output
        { w with pc := .stopped, stage := stage, hist := w.hist ++ [.flushed none] } input output
  | sent (result : ο) : w.pc = .send result → output.receiver = true → output.HasRoom →
      Step w input output { w with pc := .recordFlush, hist := w.hist ++ [.placed result] }
        input (output.push result)
  | refused (result : ο) : w.pc = .send result → output.receiver = false →
      Step w input output { w with pc := .recordFlush, hist := w.hist ++ [.refused result] } input output
  | recordFlush : w.pc = .recordFlush →
      Step w input output { w with pc := .stopped, metrics := w.metrics.recordOutput } input output
  | stopped : w.pc = .stopped →
      Step w input output { w with pc := .dropOutput, control := w.control.setState .stopped }
        input output
  | dropOutput : w.pc = .dropOutput →
      Step w input output { w with pc := .dropInput } input output.dropSender
  | dropInput : w.pc = .dropInput →
      Step w input output { w with pc := .returned } input.dropReceiver output

/-- **A worker steps only so.** -/
theorem step_cases {w w' : Worker S} {input input' : Chan ι} {output output' : Chan ο}
    (h : w.step input output = some (w', input', output')) : Step w input output w' input' output' := by
  revert h
  unfold step
  cases hpc : w.pc with
  | start =>
    intro hw
    cases hw
    exact .start hpc
  | checkShutdown =>
    intro hw
    cases hw
    split_ifs with hs
    · exact .shutdown hpc hs
    · exact .notShutdown hpc (Bool.eq_false_iff.mpr hs)
  | checkPaused =>
    intro hw
    cases hw
    split_ifs with hp
    · exact .paused hpc hp
    · exact .notPaused hpc (Bool.eq_false_iff.mpr hp)
  | checkCommand =>
    intro hw
    cases hw
    split_ifs with hc
    · exact .reset hpc hc
    · exact .noReset hpc hc
  | stageReset =>
    intro hw
    cases hw
    exact .stageReset hpc
  | metricsReset =>
    intro hw
    cases hw
    exact .metricsReset hpc
  | ackCommand =>
    intro hw
    cases hw
    exact .ackCommand hpc
  | ackFlag =>
    intro hw
    cases hw
    exact .ackFlag hpc
  | recv =>
    intro hw
    cases hw
    exact .recv hpc
  | waiting =>
    rcases input.endRecv_cases with ⟨item, queue, hq, he⟩ | ⟨hq, hs, he⟩ | ⟨hq, hs, he⟩
    · simp only [he]
      intro hw
      cases hw
      exact .took item queue hpc hq
    · simp only [he]
      intro hw
      cases hw
      exact .empty hpc hq hs
    · simp only [he]
      intro hw
      cases hw
      exact .disconnected hpc hq hs
  | recordInput item =>
    intro hw
    cases hw
    exact .recordInput item hpc
  | process item =>
    dsimp only
    cases hp : S.process w.stage item with
    | mk stage r => cases r with
      | none =>
        intro hw
        cases hw
        exact .processNone item stage hpc hp
      | some result =>
        intro hw
        cases hw
        exact .processSome item stage result hpc hp
  | sendOrDrop result =>
    rcases output.sendOrDrop_cases result with ⟨hr, hroom, he⟩ | ⟨hno, he⟩
    · simp only [he]
      intro hw
      cases hw
      exact .placed result hpc hr hroom
    · simp only [he]
      intro hw
      cases hw
      exact .dropped result hpc hno
  | recordOutput =>
    intro hw
    cases hw
    exact .recordOutput hpc
  | recordDropped =>
    intro hw
    cases hw
    exact .recordDropped hpc
  | recordFiltered =>
    intro hw
    cases hw
    exact .recordFiltered hpc
  | tick =>
    cases ht : S.tick w.stage with
    | mk stage r => cases r with
      | none =>
        intro hw
        cases hw
        exact .tickNone stage hpc ht
      | some result =>
        intro hw
        cases hw
        exact .tickSome stage result hpc ht
  | stopping =>
    intro hw
    cases hw
    exact .stopping hpc
  | flush =>
    cases hf : S.flush w.stage with
    | mk stage r => cases r with
      | none =>
        intro hw
        cases hw
        exact .flushNone stage hpc hf
      | some result =>
        intro hw
        cases hw
        exact .flushSome stage result hpc hf
  | send result =>
    rcases output.send_cases result with ⟨hr, hroom, he⟩ | ⟨hr, he⟩ | ⟨-, -, he⟩
    · simp only [he]
      intro hw
      cases hw
      exact .sent result hpc hr hroom
    · simp only [he]
      intro hw
      cases hw
      exact .refused result hpc hr
    · simp only [he]
      intro hw
      cases hw
  | recordFlush =>
    intro hw
    cases hw
    exact .recordFlush hpc
  | stopped =>
    intro hw
    cases hw
    exact .stopped hpc
  | dropOutput =>
    intro hw
    cases hw
    exact .dropOutput hpc
  | dropInput =>
    intro hw
    cases hw
    exact .dropInput hpc
  | returned =>
    intro hw
    cases hw

/-- **A worker stands still only when it has returned, or when `output.send` blocks**: the
receiver is there and the channel has no room. -/
theorem isSome_step {w : Worker S} {input : Chan ι} {output : Chan ο} (hret : w.pc.isReturned = false)
    (hsend : ∀ y, w.pc = .send y → output.receiver = false ∨ output.HasRoom) :
    (w.step input output).isSome = true := by
  unfold step
  cases hpc : w.pc with
  | waiting =>
    rcases input.endRecv_cases with ⟨item, queue, -, he⟩ | ⟨-, -, he⟩ | ⟨-, -, he⟩ <;> simp only [he] <;> rfl
  | process item =>
    dsimp only
    rcases S.process w.stage item with ⟨stage, _ | result⟩ <;> rfl
  | sendOrDrop result =>
    rcases output.sendOrDrop_cases result with ⟨-, -, he⟩ | ⟨-, he⟩ <;> simp only [he] <;> rfl
  | tick =>
    dsimp only
    rcases S.tick w.stage with ⟨stage, _ | result⟩ <;> rfl
  | flush =>
    dsimp only
    rcases S.flush w.stage with ⟨stage, _ | result⟩ <;> rfl
  | send result =>
    rcases output.send_cases result with ⟨-, -, he⟩ | ⟨-, he⟩ | ⟨hr, hroom, -⟩
    · simp only [he]
      rfl
    · simp only [he]
      rfl
    · rcases hsend result hpc with hr' | hroom'
      · rw [hr] at hr'
        cases hr'
      · exact absurd hroom' hroom
  | returned =>
    rw [hpc] at hret
    cases hret
  | _ => rfl

end Worker

/-! ### What a worker keeps track of -/

/-- **Nothing gets lost inside a worker**: what it took it processed, in order, apart from
the item in hand; what the stage returned it sent, in order, apart from the value in hand. -/
structure Flow {ι ο : Type u} (es : List (Event ι ο)) (pc : Pc ι ο) : Prop where
  took_eq : es.filterMap Event.took? = es.filterMap Event.item? ++ pc.item.toList
  out_eq : es.filterMap Event.out? = es.filterMap Event.handled? ++ pc.result.toList

/-- **What the counters count**, apart from what is due. `output_count` also counts the
values that `output.send` gave back. -/
structure Counts {ι ο : Type u} (es : List (Event ι ο)) (pc : Pc ι ο) (m : StageMetrics) : Prop where
  input : m.inputCount + pc.owedInput = (es.filterMap Event.took?).length
  output : m.outputCount + pc.owedOutput =
    (es.filterMap Event.placed?).length + (es.filterMap Event.refused?).length
  dropped : m.droppedCount + pc.owedDropped = (es.filterMap Event.dropped?).length
  filtered : m.filteredCount + pc.owedFiltered = (es.filterMap Event.filtered?).length

/-- What one step adds to the history accounts for what it does to the item and the value in
hand, and to the counters. -/
structure Adds {ι ο : Type u} (es : List (Event ι ο)) (pc pc' : Pc ι ο) (m m' : StageMetrics) :
    Prop where
  took : pc.item.toList ++ es.filterMap Event.took? = es.filterMap Event.item? ++ pc'.item.toList
  out : pc.result.toList ++ es.filterMap Event.out? = es.filterMap Event.handled? ++ pc'.result.toList
  input : m'.inputCount + pc'.owedInput =
    m.inputCount + pc.owedInput + (es.filterMap Event.took?).length
  output : m'.outputCount + pc'.owedOutput = m.outputCount + pc.owedOutput +
    ((es.filterMap Event.placed?).length + (es.filterMap Event.refused?).length)
  dropped : m'.droppedCount + pc'.owedDropped =
    m.droppedCount + pc.owedDropped + (es.filterMap Event.dropped?).length
  filtered : m'.filteredCount + pc'.owedFiltered =
    m.filteredCount + pc.owedFiltered + (es.filterMap Event.filtered?).length

section Adds

variable {ι ο : Type u} {es new : List (Event ι ο)} {pc pc' : Pc ι ο} {m m' : StageMetrics}

theorem Flow.adds (h : Flow es pc) (ha : Adds new pc pc' m m') : Flow (es ++ new) pc' where
  took_eq := by
    rw [List.filterMap_append, List.filterMap_append, h.took_eq, List.append_assoc, ha.took,
      List.append_assoc]
  out_eq := by
    rw [List.filterMap_append, List.filterMap_append, h.out_eq, List.append_assoc, ha.out,
      List.append_assoc]

theorem Counts.adds (h : Counts es pc m) (ha : Adds new pc pc' m m') : Counts (es ++ new) pc' m' where
  input := by
    rw [ha.input, h.input, List.filterMap_append, List.length_append]
  output := by
    rw [ha.output, h.output]
    simp only [List.filterMap_append, List.length_append]
    omega
  dropped := by
    rw [ha.dropped, h.dropped, List.filterMap_append, List.length_append]
  filtered := by
    rw [ha.filtered, h.filtered, List.filterMap_append, List.length_append]

end Adds

/-- **What holds of every worker**: nothing gets lost inside it, in all or since the last
`metrics.reset()`, and its counters count. -/
structure Worker.Kept {ι ο : Type u} {S : Stage ι ο} (w : Worker S) : Prop where
  flow : Flow w.hist w.pc
  recent : Flow (sinceReset w.hist) w.pc
  counts : Counts (sinceReset w.hist) w.pc w.metrics

theorem Worker.Kept.spawn {ι ο : Type u} (S : Stage ι ο) : Kept (.spawn S) :=
  ⟨⟨rfl, rfl⟩, ⟨rfl, rfl⟩, ⟨rfl, rfl, rfl, rfl⟩⟩

/-- A worker and its input channel. -/
structure Reads {ι ο : Type u} {S : Stage ι ο} (w : Worker S) (input : Chan ι) : Prop where
  /-- What has come out of the channel is what the worker took. -/
  took_eq : input.received = w.hist.filterMap Event.took?
  /-- The worker has the receiver until it returns. -/
  receiver_eq : input.receiver = !w.pc.isReturned

/-- A worker and its output channel. -/
structure Writes {ι ο : Type u} {S : Stage ι ο} (w : Worker S) (output : Chan ο) : Prop where
  /-- What has gone into the channel is what the worker placed. -/
  placed_eq : output.sent = w.hist.filterMap Event.placed?
  /-- The worker has the sender until it drops it. -/
  sender_eq : output.sender = !w.pc.hasDroppedOutput

section Sides

variable {ι ο : Type u} {S : Stage ι ο} {w : Worker S}

theorem Reads.congr {c c' : Chan ι} (h : Reads w c) (hc : c.SameReceiver c') : Reads w c' :=
  ⟨hc.received_eq.trans h.took_eq, hc.receiver_eq.trans h.receiver_eq⟩

theorem Writes.congr {c c' : Chan ο} (h : Writes w c) (hc : c.SameSender c') : Writes w c' :=
  ⟨hc.sent_eq.trans h.placed_eq, hc.sender_eq.trans h.sender_eq⟩

end Sides

namespace Worker.Step

variable {ι ο : Type u} {S : Stage ι ο} {w w' : Worker S} {input input' : Chan ι}
  {output output' : Chan ο}

/-- The history grows by one event at most. -/
theorem hist_isPrefix (h : Step w input output w' input' output') : w.hist <+: w'.hist := by
  cases h <;> first | exact List.prefix_rfl | exact List.prefix_append _ _

/-- A step resets the metrics, or adds to the history what the item and the value in hand and
the counters tell of. -/
theorem adds (h : Step w input output w' input' output') :
    (w.pc = .metricsReset ∧ w'.pc = .ackCommand ∧ w'.hist = w.hist ++ [.metricsReset] ∧
      w'.metrics = w.metrics.reset) ∨
    ∃ es, .metricsReset ∉ es ∧ w'.hist = w.hist ++ es ∧ Adds es w.pc w'.pc w.metrics w'.metrics := by
  cases h with
  | metricsReset hpc => exact .inl ⟨hpc, rfl, rfl, rfl⟩
  | stageReset hpc | took item queue hpc hq | processSome item stage result hpc hp
  | processNone item stage hpc hp | placed result hpc hr hroom | dropped result hpc hno
  | tickSome stage result hpc ht | tickNone stage hpc ht | flushSome stage result hpc hf
  | flushNone stage hpc hf | sent result hpc hr hroom | refused result hpc hr =>
    refine .inr ⟨[_], ?_, rfl, ?_⟩
    · simp
    · rw [hpc]
      exact ⟨rfl, rfl, rfl, rfl, rfl, rfl⟩
  | recordInput item hpc | recordOutput hpc | recordDropped hpc | recordFiltered hpc | recordFlush hpc
  | start hpc | shutdown hpc | notShutdown hpc | paused hpc | notPaused hpc | reset hpc | noReset hpc
  | ackCommand hpc | ackFlag hpc | recv hpc | empty hpc | disconnected hpc | stopping hpc
  | stopped hpc | dropOutput hpc | dropInput hpc =>
    refine .inr ⟨[], List.not_mem_nil, (List.append_nil _).symm, ?_⟩
    rw [hpc]
    exact ⟨rfl, rfl, rfl, rfl, rfl, rfl⟩

theorem kept (h : Step w input output w' input' output') (hk : w.Kept) : w'.Kept := by
  obtain ⟨hflow, hrecent, hcounts⟩ := hk
  rcases h.adds with ⟨hpc, hpc', hhist, hm⟩ | ⟨es, hno, hhist, hadds⟩
  · have hnil : sinceReset w'.hist = [] := by rw [hhist, sinceReset_concat]
    constructor
    · rw [hpc] at hflow
      rw [hhist, hpc']
      exact ⟨by simpa using hflow.took_eq, by simpa using hflow.out_eq⟩
    · rw [hnil, hpc']
      exact ⟨rfl, rfl⟩
    · rw [hnil, hpc', hm]
      exact ⟨rfl, rfl, rfl, rfl⟩
  · have hsince : sinceReset w'.hist = sinceReset w.hist ++ es := by
      rw [hhist, sinceReset_append hno]
    constructor
    · rw [hhist]
      exact hflow.adds hadds
    · rw [hsince]
      exact hrecent.adds hadds
    · rw [hsince]
      exact hcounts.adds hadds

/-- A send that finds its receiver gives nothing back. -/
theorem refused_eq_nil (h : Step w input output w' input' output')
    (hr : ∀ y, w.pc = .send y → output.receiver = true)
    (href : w.hist.filterMap Event.refused? = []) : w'.hist.filterMap Event.refused? = [] := by
  cases h with
  | refused result hpc hgone =>
    rw [hr result hpc] at hgone
    cases hgone
  | stageReset | metricsReset | took | processSome | processNone | placed | dropped | tickSome | tickNone
  | flushSome | flushNone | sent =>
    rw [filterMap_concat_none rfl]
    exact href
  | _ => exact href

/-- While `metrics.reset()` forgets no drop, all drops are remembered. -/
theorem dropped_eq (h : Step w input output w' input' output') (hc : w.Kept)
    (hr : w.pc = .metricsReset → w.metrics.droppedCount = 0)
    (hd : (sinceReset w.hist).filterMap Event.dropped? = w.hist.filterMap Event.dropped?) :
    (sinceReset w'.hist).filterMap Event.dropped? = w'.hist.filterMap Event.dropped? := by
  rcases h.adds with ⟨hpc, -, hhist, -⟩ | ⟨es, hno, hhist, -⟩
  · have hcount := hc.counts.dropped
    rw [hr hpc, hpc, hd] at hcount
    rw [hhist, sinceReset_concat, filterMap_concat_none rfl]
    exact (List.eq_nil_of_length_eq_zero hcount.symm).symm
  · rw [hhist, sinceReset_append hno, List.filterMap_append, List.filterMap_append, hd]

/-! The two channels. -/

theorem reads (h : Step w input output w' input' output') (hr : Reads w input) : Reads w' input' := by
  obtain ⟨htook, hreceiver⟩ := hr
  cases h with
  | took item queue hpc =>
    rw [hpc] at hreceiver
    refine ⟨?_, hreceiver⟩
    rw [List.filterMap_append, ← htook]
    rfl
  | dropInput => exact ⟨htook, rfl⟩
  | stageReset hpc | metricsReset hpc | processSome item stage result hpc | processNone item stage hpc
  | placed result hpc | dropped result hpc | tickSome stage result hpc | tickNone stage hpc
  | flushSome stage result hpc | flushNone stage hpc | sent result hpc | refused result hpc =>
    rw [hpc] at hreceiver
    refine ⟨?_, hreceiver⟩
    rw [filterMap_concat_none rfl]
    exact htook
  | recordInput item hpc | recordOutput hpc | recordDropped hpc | recordFiltered hpc | recordFlush hpc
  | start hpc | shutdown hpc | notShutdown hpc | paused hpc | notPaused hpc | reset hpc | noReset hpc
  | ackCommand hpc | ackFlag hpc | recv hpc | empty hpc | disconnected hpc | stopping hpc
  | stopped hpc | dropOutput hpc =>
    rw [hpc] at hreceiver
    exact ⟨htook, hreceiver⟩

theorem writes (h : Step w input output w' input' output') (hw : Writes w output) :
    Writes w' output' := by
  obtain ⟨hplaced, hsender⟩ := hw
  cases h with
  | placed result hpc | sent result hpc =>
    rw [hpc] at hsender
    refine ⟨?_, hsender⟩
    rw [List.filterMap_append, ← hplaced]
    rfl
  | dropOutput => exact ⟨hplaced, rfl⟩
  | stageReset hpc | metricsReset hpc | took item queue hpc | processSome item stage result hpc
  | processNone item stage hpc | dropped result hpc | tickSome stage result hpc | tickNone stage hpc
  | flushSome stage result hpc | flushNone stage hpc | refused result hpc =>
    rw [hpc] at hsender
    refine ⟨?_, hsender⟩
    rw [filterMap_concat_none rfl]
    exact hplaced
  | recordInput item hpc | recordOutput hpc | recordDropped hpc | recordFiltered hpc | recordFlush hpc
  | start hpc | shutdown hpc | notShutdown hpc | paused hpc | notPaused hpc | reset hpc | noReset hpc
  | ackCommand hpc | ackFlag hpc | recv hpc | empty hpc | disconnected hpc | stopping hpc
  | stopped hpc | dropInput hpc =>
    rw [hpc] at hsender
    exact ⟨hplaced, hsender⟩

theorem sameSender_input (h : Step w input output w' input' output') : input.SameSender input' := by
  cases h <;> exact ⟨rfl, rfl⟩

theorem sameReceiver_output (h : Step w input output w' input' output') :
    output.SameReceiver output' := by
  cases h <;> exact ⟨rfl, rfl⟩

theorem fifo_input (h : Step w input output w' input' output') (hf : input.Fifo) : input'.Fifo := by
  cases h with
  | recv => exact hf.beginRecv
  | took item queue hpc hq => exact hf.take hq
  | empty | disconnected => exact hf.giveUp
  | dropInput => exact hf.dropReceiver
  | _ => exact hf

theorem fifo_output (h : Step w input output w' input' output') (hf : output.Fifo) : output'.Fifo := by
  cases h with
  | placed result hpc hr hroom | sent result hpc hr hroom => exact hf.push hr result
  | dropOutput => exact hf.dropSender
  | _ => exact hf

/-- A worker out of its loop takes nothing. -/
theorem received_eq (h : Step w input output w' input' output') (hw : w.pc.inLoop = false) :
    input'.received = input.received := by
  cases h <;> simp_all [Chan.dropReceiver]

/-- A worker puts something in its output channel when it sends, and there is room. -/
theorem sent_cases (h : Step w input output w' input' output') : output'.sent = output.sent ∨
    output.receiver = true ∧ output.HasRoom ∧ (∃ y, w.pc = .sendOrDrop y ∨ w.pc = .send y) := by
  cases h <;> simp_all [Chan.dropSender]

/-! The control cells. -/

/-- The worker stores a command in one place. -/
theorem command_cases (h : Step w input output w' input' output') :
    w.pc = .ackCommand ∨ w'.control.command = w.control.command := by
  cases h <;> simp_all

/-- The worker stores the paused flag in one place. -/
theorem paused_cases (h : Step w input output w' input' output') :
    w.pc = .ackFlag ∧ w'.control.paused = false ∨
      w.pc ≠ .ackFlag ∧ w'.control.paused = w.control.paused := by
  cases h <;> simp_all [StageControl.paused_storeFlag]

/-- The worker does not touch the shutdown flag. -/
theorem shutdown_eq (h : Step w input output w' input' output') :
    w'.control.shutdown = w.control.shutdown := by
  cases h <;> simp

/-- The worker does not come back to its loop. -/
theorem inLoop_eq_false (h : Step w input output w' input' output') (hw : w.pc.inLoop = false) :
    w'.pc.inLoop = false := by
  cases h <;> simp_all

/-- A worker leaves its loop when it finds the shutdown flag set, or its input empty and
disconnected. -/
theorem leave_cases (h : Step w input output w' input' output') (hin : w.pc.inLoop = true)
    (hout : w'.pc.inLoop = false) :
    input'.queue = input.queue ∧ input'.received = input.received ∧
      (w.pc = .checkShutdown ∧ w.control.shutdown = true ∨ input.queue = [] ∧ input.sender = false) := by
  cases h <;> simp_all [Chan.giveUp]

/-- A worker comes to `output.send` with what `flush` returned. -/
theorem send_cases (h : Step w input output w' input' output') {y : ο} (hpc : w'.pc = .send y) :
    w.pc = .flush ∧ (S.flush w.stage).2 = some y ∧ output' = output := by
  cases h <;> simp_all

end Worker.Step

end SensorBridge.Pipeline
