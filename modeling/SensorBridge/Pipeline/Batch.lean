import SensorBridge.Pipeline.Executor
import Mathlib.Computability.StateTransition

/-!
# The batch worker

`batch_stage_worker` is `stage_worker` with batches: it takes items until it has `batch_size` of
them, or finds no more, and then processes them one after the other. When it finds its input
disconnected it stores `Stopping`, and leaves its loop at the next empty batch.

Before its loop it makes room for a batch, and `Vec::with_capacity` panics when that is more than
`isize::MAX` bytes (`BatchWorker.panics`).

A command is looked at by `stage_worker` alone. So a pending `Reset` resets the stage and the metrics
of the one worker and not of the other. Apart from that both do with the same items, one by one,
what `Job.feed` does (`Worker.returns`, `BatchWorker.returns`), and agree (`workersAgree_iff`).

Like `Worker.step`, `BatchWorker.step` is a function. A worker that nobody disturbs is a program that
`StateTransition.eval` runs.
-/

namespace SensorBridge

open Foundation.Transducer

universe u

/-- What a stage gives for some items, and when it is flushed after them. -/
def Stage.results {ι ο : Type u} (S : Stage ι ο) (s : S.State) (xs : List ι) : List ο :=
  emit S.process s xs ++ (S.flush (after S.process s xs)).2.toList

/-- What it is in the end. -/
def Stage.final {ι ο : Type u} (S : Stage ι ο) (s : S.State) (xs : List ι) : S.State :=
  (S.flush (after S.process s xs)).1

namespace Pipeline

open Channel StateTransition

variable {ι ο : Type u}

/-- Where a worker is in `batch_stage_worker`: what it does next. -/
inductive BatchPc (ι ο : Type u) where
  /-- `control.set_state(StageState::Running)`. -/
  | start
  /-- `Vec::with_capacity(batch_size)`. -/
  | withCapacity
  /-- The head of the loop: `control.is_shutdown()`. -/
  | checkShutdown
  /-- `control.is_paused()`. -/
  | checkPaused
  /-- `batch.clear()`. -/
  | clear
  /-- The head of the inner loop: `batch.len() < batch_size`. -/
  | checkLen
  /-- `input.recv_timeout(recv_timeout)` is called. -/
  | recv
  /-- `input.recv_timeout(recv_timeout)` returns. -/
  | waiting
  /-- `control.set_state(StageState::Stopping)`. -/
  | stopping
  /-- `batch.is_empty()`. -/
  | checkBatch
  /-- `batch.drain(..)`, the next item. -/
  | drain
  /-- `metrics.record_input()`. -/
  | recordInput (item : ι)
  /-- `stage.process(item)`. -/
  | process (item : ι)
  /-- `output.send_or_drop(result)`. -/
  | sendOrDrop (result : ο)
  /-- `metrics.record_output()`, after a send. -/
  | recordOutput
  /-- `metrics.record_dropped()`. -/
  | recordDropped
  /-- `metrics.record_filtered()`. -/
  | recordFiltered
  /-- `control.state()`. -/
  | checkState
  /-- `stage.tick()`. -/
  | tick
  /-- `output.send_or_drop(result)`, after `stage.tick()`. -/
  | sendTick (result : ο)
  /-- `metrics.record_output()`, after that. -/
  | recordTick
  /-- `stage.flush()`. -/
  | flush
  /-- `output.send(result)`. -/
  | send (result : ο)
  /-- `metrics.record_output()`, after `output.send`. -/
  | recordFlush
  /-- `control.set_state(StageState::Stopped)`. -/
  | stopped
  /-- The parameters are dropped, the last first: `output`. -/
  | dropOutput
  /-- The parameters are dropped: `input`. -/
  | dropInput
  /-- The function has returned. -/
  | returned
  /-- `Vec::with_capacity` has panicked: capacity overflow. -/
  | panicked

/-- A worker: the arguments and the local state of `batch_stage_worker`, apart from the two
channels. -/
structure BatchWorker (S : Stage ι ο) where
  /-- Where it is. -/
  pc : BatchPc ι ο
  /-- The stage. -/
  stage : S.State
  /-- The control cells. -/
  control : StageControl
  /-- The metrics. -/
  metrics : StageMetrics
  batchSize : ℕ
  /-- `size_of::<S::Input>()`. -/
  itemSize : ℕ
  /-- The items that have been taken and not processed. -/
  batch : List ι

variable {S : Stage ι ο}

/-- `isize::MAX`, the most bytes that a `Vec` has room for. -/
def isizeMax : ℕ := 2 ^ 63 - 1

/-- One step of `batch_stage_worker`: `none` when it has returned or panicked, or when `output.send`
blocks. -/
def BatchWorker.step (w : BatchWorker S) (input : Chan ι) (output : Chan ο) :
    Option (BatchWorker S × Chan ι × Chan ο) :=
  match w.pc with
  | .start =>
    some ({ w with pc := .withCapacity, control := w.control.setState .running }, input, output)
  | .withCapacity =>
    if w.batchSize * w.itemSize ≤ isizeMax then some ({ w with pc := .checkShutdown, batch := [] }, input, output)
    else
      -- the panic unwinds, and drops the parameters
      some ({ w with pc := .panicked }, input.dropReceiver, output.dropSender)
  | .checkShutdown =>
    some ({ w with pc := if w.control.shutdown then .flush else .checkPaused }, input, output)
  | .checkPaused =>
    some ({ w with pc := if w.control.paused then .checkShutdown else .clear }, input, output)
  | .clear => some ({ w with pc := .checkLen, batch := [] }, input, output)
  | .checkLen =>
    some ({ w with pc := if w.batch.length < w.batchSize then .recv else .checkBatch }, input, output)
  | .recv => some ({ w with pc := .waiting }, input.beginRecv, output)
  | .waiting =>
    match input.endRecv with
    | (.ok item, input) => some ({ w with pc := .checkLen, batch := w.batch ++ [item] }, input, output)
    | (.error .empty, input) => some ({ w with pc := .checkBatch }, input, output)
    | (.error .disconnected, input) => some ({ w with pc := .stopping }, input, output)
  | .stopping =>
    some ({ w with pc := .checkBatch, control := w.control.setState .stopping }, input, output)
  | .checkBatch =>
    some ({ w with pc := if w.batch.isEmpty then .checkState else .drain }, input, output)
  | .drain =>
    match w.batch with
    | item :: batch => some ({ w with pc := .recordInput item, batch }, input, output)
    | [] => some ({ w with pc := .checkShutdown }, input, output)
  | .recordInput item =>
    some ({ w with pc := .process item, metrics := w.metrics.recordInput }, input, output)
  | .process item =>
    match S.process w.stage item with
    | (stage, some result) => some ({ w with pc := .sendOrDrop result, stage }, input, output)
    | (stage, none) => some ({ w with pc := .recordFiltered, stage }, input, output)
  | .sendOrDrop result =>
    match output.sendOrDrop result with
    | (output, true) => some ({ w with pc := .recordOutput }, input, output)
    | (output, false) => some ({ w with pc := .recordDropped }, input, output)
  | .recordOutput => some ({ w with pc := .drain, metrics := w.metrics.recordOutput }, input, output)
  | .recordDropped => some ({ w with pc := .drain, metrics := w.metrics.recordDropped }, input, output)
  | .recordFiltered => some ({ w with pc := .drain, metrics := w.metrics.recordFiltered }, input, output)
  | .checkState =>
    some ({ w with pc := if w.control.state = .stopping then .flush else .tick }, input, output)
  | .tick =>
    match S.tick w.stage with
    | (stage, some result) => some ({ w with pc := .sendTick result, stage }, input, output)
    | (stage, none) => some ({ w with pc := .checkShutdown, stage }, input, output)
  | .sendTick result =>
    -- what is dropped here is not counted
    match output.sendOrDrop result with
    | (output, true) => some ({ w with pc := .recordTick }, input, output)
    | (output, false) => some ({ w with pc := .checkShutdown }, input, output)
  | .recordTick => some ({ w with pc := .checkShutdown, metrics := w.metrics.recordOutput }, input, output)
  | .flush =>
    match S.flush w.stage with
    | (stage, some result) => some ({ w with pc := .send result, stage }, input, output)
    | (stage, none) => some ({ w with pc := .stopped, stage }, input, output)
  | .send result =>
    -- let _ = output.send(result): what it returns is not looked at
    match output.send result with
    | none => none
    | some (.ok output) => some ({ w with pc := .recordFlush }, input, output)
    | some (.error _) => some ({ w with pc := .recordFlush }, input, output)
  | .recordFlush => some ({ w with pc := .stopped, metrics := w.metrics.recordOutput }, input, output)
  | .stopped => some ({ w with pc := .dropOutput, control := w.control.setState .stopped }, input, output)
  | .dropOutput => some ({ w with pc := .dropInput }, input, output.dropSender)
  | .dropInput => some ({ w with pc := .returned }, input.dropReceiver, output)
  | .returned => none
  | .panicked => none

/-! ### What either worker does with an item -/

/-- What a worker works with: the stage, the metrics and the output channel. -/
structure Job (S : Stage ι ο) where
  stage : S.State
  metrics : StageMetrics
  output : Chan ο

namespace Job

/-- An item is processed, with room for the result. -/
def feed (j : Job S) (item : ι) : Job S :=
  match S.process j.stage item with
  | (stage, some result) => ⟨stage, j.metrics.recordInput.recordOutput, j.output.push result⟩
  | (stage, none) => ⟨stage, j.metrics.recordInput.recordFiltered, j.output⟩

/-- The stage is flushed. -/
def finish (j : Job S) : Job S :=
  match S.flush j.stage with
  | (stage, some result) => ⟨stage, j.metrics.recordOutput, j.output.push result⟩
  | (stage, none) => ⟨stage, j.metrics, j.output⟩

/-- All items are processed, and the stage is flushed. -/
def run (j : Job S) (xs : List ι) : Job S := (xs.foldl feed j).finish

end Job

/-- The counts after some items and a flush, without drops. -/
def StageMetrics.counting (m : StageMetrics) (S : Stage ι ο) (s : S.State) (xs : List ι) : StageMetrics where
  inputCount := m.inputCount + xs.length
  outputCount := m.outputCount + (S.results s xs).length
  filteredCount := m.filteredCount + (xs.length - (emit S.process s xs).length)
  droppedCount := m.droppedCount

namespace Job

theorem stage_foldl (j : Job S) (xs : List ι) : (xs.foldl feed j).stage = after S.process j.stage xs := by
  induction xs generalizing j with
  | nil => rfl
  | cons x xs ih =>
    have hstage : (j.feed x).stage = (S.process j.stage x).1 := by
      unfold feed
      rcases S.process j.stage x with ⟨stage, _ | result⟩ <;> rfl
    rw [List.foldl_cons, ih, hstage]
    rfl

theorem sent_foldl (j : Job S) (xs : List ι) :
    (xs.foldl feed j).output.sent = j.output.sent ++ emit S.process j.stage xs := by
  induction xs generalizing j with
  | nil => exact (List.append_nil _).symm
  | cons x xs ih =>
    rw [List.foldl_cons, ih, emit_cons, ← List.append_assoc]
    unfold feed
    rcases S.process j.stage x with ⟨stage, _ | result⟩
    · rw [Option.toList_none, List.append_nil]
    · rfl

/-- Every item is an input, and an output or filtered. -/
theorem metrics_foldl (j : Job S) (xs : List ι) : (xs.foldl feed j).metrics =
    ⟨j.metrics.inputCount + xs.length, j.metrics.outputCount + (emit S.process j.stage xs).length,
      j.metrics.filteredCount + (xs.length - (emit S.process j.stage xs).length), j.metrics.droppedCount⟩ := by
  induction xs generalizing j with
  | nil => rfl
  | cons x xs ih =>
    have hle := length_emit_le S.process (S.process j.stage x).1 xs
    rw [List.foldl_cons, ih, emit_cons]
    unfold feed
    rcases hp : S.process j.stage x with ⟨stage, _ | result⟩
    · simp only [hp] at hle
      simp only [StageMetrics.recordInput, StageMetrics.recordFiltered, StageMetrics.mk.injEq, List.length_cons,
        Option.toList_none, List.nil_append, and_true, true_and]
      omega
    · simp only [hp] at hle
      simp only [StageMetrics.recordInput, StageMetrics.recordOutput, StageMetrics.mk.injEq, List.length_cons,
        Option.toList_some, List.length_append, List.length_nil, and_true]
      omega

theorem stage_run (j : Job S) (xs : List ι) : (j.run xs).stage = S.final j.stage xs := by
  rw [Stage.final, ← stage_foldl]
  unfold run finish
  rcases S.flush (xs.foldl feed j).stage with ⟨stage, _ | result⟩ <;> rfl

theorem sent_run (j : Job S) (xs : List ι) :
    (j.run xs).output.sent = j.output.sent ++ S.results j.stage xs := by
  rw [Stage.results, ← List.append_assoc, ← sent_foldl, ← stage_foldl]
  unfold run finish
  rcases S.flush (xs.foldl feed j).stage with ⟨stage, _ | result⟩
  · exact (List.append_nil _).symm
  · rfl

theorem metrics_run (j : Job S) (xs : List ι) : (j.run xs).metrics = j.metrics.counting S j.stage xs := by
  have hmetrics := metrics_foldl j xs
  rw [StageMetrics.counting, Stage.results, ← stage_foldl, List.length_append]
  unfold run finish
  rcases S.flush (xs.foldl feed j).stage with ⟨stage, _ | result⟩
  · exact hmetrics
  · simp only [StageMetrics.recordOutput, hmetrics]
    rfl

end Job

/-- There is room for all that the stage gives, and someone to receive it. -/
structure Job.Fits (j : Job S) (xs : List ι) : Prop where
  receiver : j.output.receiver = true
  room : j.output.queue.length + (S.results j.stage xs).length ≤ j.output.capacity

namespace Job.Fits

variable {j : Job S} {x : ι} {xs : List ι}

theorem hasRoom_of_process (h : j.Fits (x :: xs)) {stage : S.State} {result : ο}
    (hp : S.process j.stage x = (stage, some result)) : j.output.HasRoom := by
  have hroom := h.room
  simp only [Stage.results, emit_cons, hp, Option.toList_some, List.length_append, List.length_singleton] at hroom
  exact .inl (by omega)

theorem hasRoom_of_flush (h : j.Fits []) {stage : S.State} {result : ο}
    (hf : S.flush j.stage = (stage, some result)) : j.output.HasRoom := by
  have hafter : after S.process j.stage [] = j.stage := rfl
  have hroom := h.room
  simp only [Stage.results, emit_nil, hafter, hf, Option.toList_some, List.nil_append, List.length_singleton] at hroom
  exact .inl (by omega)

theorem feed (h : j.Fits (x :: xs)) : (j.feed x).Fits xs := by
  have hroom := h.room
  have hafter : after S.process j.stage (x :: xs) = after S.process (S.process j.stage x).1 xs := rfl
  simp only [Stage.results, emit_cons, hafter] at hroom
  unfold Job.feed
  rcases hp : S.process j.stage x with ⟨stage, _ | result⟩
  · rw [hp] at hroom
    exact ⟨h.receiver, hroom⟩
  · rw [hp] at hroom
    refine ⟨h.receiver, ?_⟩
    simp only [Stage.results, Chan.push, Option.toList_some, List.length_append, List.length_singleton] at hroom ⊢
    omega

theorem foldl {ys : List ι} (h : j.Fits (xs ++ ys)) : (xs.foldl Job.feed j).Fits ys := by
  induction xs generalizing j with
  | nil => exact h
  | cons x xs ih => exact ih h.feed

end Job.Fits

/-! ### The plain worker, undisturbed -/

theorem Chan.sendOrDrop_eq {c : Chan ο} (hr : c.receiver = true) (hroom : c.HasRoom) (result : ο) :
    c.sendOrDrop result = (c.push result, true) := by
  rcases c.sendOrDrop_cases result with ⟨-, -, he⟩ | ⟨hno, -⟩
  · exact he
  · exact absurd ⟨hr, hroom⟩ hno

theorem Chan.send_eq {c : Chan ο} (hr : c.receiver = true) (hroom : c.HasRoom) (result : ο) :
    c.send result = some (.ok (c.push result)) := by
  rcases c.send_cases result with ⟨-, -, he⟩ | ⟨hno, -⟩ | ⟨-, hno, -⟩
  · exact he
  · rw [hr] at hno
    cases hno
  · exact absurd hroom hno

namespace Worker

/-- The next step of a worker that has its channels to itself. -/
def next (p : Worker S × Chan ι × Chan ο) : Option (Worker S × Chan ι × Chan ο) := p.1.step p.2.1 p.2.2

/-- A worker at `pc`, at work on `j`. -/
def on (j : Job S) (pc : Pc ι ο) (control : StageControl) (hist : List (Event ι ο)) (input : Chan ι) :
    Worker S × Chan ι × Chan ο := (⟨pc, j.stage, control, j.metrics, hist⟩, input, j.output)

variable {j : Job S} {x : ι} {xs : List ι} (control : StageControl) (input : Chan ι)

/-- An item that was taken is fed. -/
theorem reaches_feed (h : j.Fits (x :: xs)) (hist : List (Event ι ο)) : ∃ hist',
    Reaches next (on j (.recordInput x) control hist input) (on (j.feed x) .checkShutdown control hist' input) := by
  unfold Job.feed
  rcases hp : S.process j.stage x with ⟨stage, _ | result⟩
  · have hprocess : next (on ⟨j.stage, j.metrics.recordInput, j.output⟩ (.process x) control hist input) =
        some (on ⟨stage, j.metrics.recordInput, j.output⟩ .recordFiltered control
          (hist ++ [.processed x none]) input) := by
      simp only [next, on, step, hp]
    exact ⟨_, .head rfl (.head hprocess (.single rfl))⟩
  · have hprocess : next (on ⟨j.stage, j.metrics.recordInput, j.output⟩ (.process x) control hist input) =
        some (on ⟨stage, j.metrics.recordInput, j.output⟩ (.sendOrDrop result) control
          (hist ++ [.processed x (some result)]) input) := by
      simp only [next, on, step, hp]
    have hsend : next (on ⟨stage, j.metrics.recordInput, j.output⟩ (.sendOrDrop result) control
          (hist ++ [.processed x (some result)]) input) =
        some (on ⟨stage, j.metrics.recordInput, j.output.push result⟩ .recordOutput control
          (hist ++ [.processed x (some result)] ++ [.placed result]) input) := by
      simp only [next, on, step, Chan.sendOrDrop_eq h.receiver (h.hasRoom_of_process hp)]
    exact ⟨_, .head rfl (.head hprocess (.head hsend (.single rfl)))⟩

/-- Out of the loop the stage is flushed, and the channels are dropped. -/
theorem reaches_returned (h : j.Fits []) (hist : List (Event ι ο)) : ∃ control' hist',
    Reaches next (on j .stopping control hist input)
      (on ⟨j.finish.stage, j.finish.metrics, j.finish.output.dropSender⟩ .returned control' hist'
        input.dropReceiver) := by
  have hdrop (j' : Job S) (hist : List (Event ι ο)) :
      Reaches next (on j' .stopped (control.setState .stopping) hist input)
        (on ⟨j'.stage, j'.metrics, j'.output.dropSender⟩ .returned
          ((control.setState .stopping).setState .stopped) hist input.dropReceiver) :=
    .head rfl (.head rfl (.single rfl))
  unfold Job.finish
  rcases hf : S.flush j.stage with ⟨stage, _ | result⟩
  · have hflush : next (on j .flush (control.setState .stopping) hist input) =
        some (on ⟨stage, j.metrics, j.output⟩ .stopped (control.setState .stopping) (hist ++ [.flushed none])
          input) := by
      simp only [next, on, step, hf]
    exact ⟨_, _, .head rfl (.head hflush (hdrop _ _))⟩
  · have hflush : next (on j .flush (control.setState .stopping) hist input) =
        some (on ⟨stage, j.metrics, j.output⟩ (.send result) (control.setState .stopping)
          (hist ++ [.flushed (some result)]) input) := by
      simp only [next, on, step, hf]
    have hsend : next (on ⟨stage, j.metrics, j.output⟩ (.send result) (control.setState .stopping)
          (hist ++ [.flushed (some result)]) input) =
        some (on ⟨stage, j.metrics, j.output.push result⟩ .recordFlush (control.setState .stopping)
          (hist ++ [.flushed (some result)] ++ [.placed result]) input) := by
      simp only [next, on, step, Chan.send_eq h.receiver (h.hasRoom_of_flush hf)]
    exact ⟨_, _, .head rfl (.head hflush (.head hsend (.head rfl
      (hdrop ⟨stage, j.metrics.recordOutput, j.output.push result⟩ _))))⟩

/-- The flags are clear, and no `Reset` is pending. -/
structure Quiet (control : StageControl) : Prop where
  shutdown : control.shutdown = false
  paused : control.paused = false
  command : control.command ≠ .reset

/-- From the head of the loop on, undisturbed. -/
theorem reaches_checkCommand (hshutdown : control.shutdown = false) (hpaused : control.paused = false)
    (hist : List (Event ι ο)) :
    Reaches next (on j .checkShutdown control hist input) (on j .checkCommand control hist input) := by
  have hcheckShutdown : next (on j .checkShutdown control hist input) =
      some (on j .checkPaused control hist input) := by
    simp only [next, on, step, hshutdown]
    rfl
  have hcheckPaused : next (on j .checkPaused control hist input) =
      some (on j .checkCommand control hist input) := by
    simp only [next, on, step, hpaused]
    rfl
  exact .head hcheckShutdown (.single hcheckPaused)

theorem next_checkCommand (hist : List (Event ι ο)) : next (on j .checkCommand control hist input) =
    some (on j (if control.command = .reset then .stageReset else .recv) control hist input) := rfl

/-- The loop takes and feeds all items, and ends. -/
theorem reaches_stopping (hquiet : Quiet control) (h : j.Fits xs) (hqueue : input.queue = xs)
    (hsender : input.sender = false) (hist : List (Event ι ο)) : ∃ hist' input',
    Reaches next (on j .recv control hist input) (on (xs.foldl Job.feed j) .stopping control hist' input') := by
  induction xs generalizing j input hist with
  | nil =>
    have hwaiting : next (on j .waiting control hist input.beginRecv) =
        some (on j .stopping control hist input.beginRecv.giveUp) := by
      simp only [next, on, step, Chan.endRecv, Chan.beginRecv, hqueue, hsender]
      rfl
    exact ⟨_, _, .head rfl (.single hwaiting)⟩
  | cons x xs ih =>
    have hwaiting : next (on j .waiting control hist input.beginRecv) =
        some (on j (.recordInput x) control (hist ++ [.took x]) (input.beginRecv.take x xs)) := by
      simp only [next, on, step, Chan.endRecv, Chan.beginRecv, hqueue]
    obtain ⟨hist₁, hfeed⟩ := reaches_feed control (input.beginRecv.take x xs) h (hist ++ [.took x])
    have hnoReset : next (on (j.feed x) .checkCommand control hist₁ (input.beginRecv.take x xs)) =
        some (on (j.feed x) .recv control hist₁ (input.beginRecv.take x xs)) := by
      rw [next_checkCommand, if_neg hquiet.command]
    obtain ⟨hist₂, input₂, hrest⟩ := ih (input.beginRecv.take x xs) h.feed rfl hsender hist₁
    have hloop := reaches_checkCommand control (input.beginRecv.take x xs) (j := j.feed x) hquiet.shutdown
      hquiet.paused hist₁
    exact ⟨_, _, .head rfl (.head hwaiting (hfeed.trans (hloop.trans (.head hnoReset hrest))))⟩

/-- Where the worker begins to take items: a pending `Reset` is obeyed before that. -/
def resetJob (command : StageCommand) (j : Job S) : Job S :=
  if command = .reset then ⟨S.reset j.stage, j.metrics.reset, j.output⟩ else j

/-- **The plain worker**, with a command pending: it obeys that, feeds all items, and returns. -/
theorem returns (hshutdown : control.shutdown = false) (hpaused : control.paused = false)
    (h : (resetJob control.command j).Fits xs) (hqueue : input.queue = xs) (hsender : input.sender = false)
    (hist : List (Event ι ο)) : ∃ control' hist' input',
    Reaches next (on j .start control hist input)
      (on ⟨((resetJob control.command j).run xs).stage, ((resetJob control.command j).run xs).metrics,
        ((resetJob control.command j).run xs).output.dropSender⟩ .returned control' hist' input') := by
  have hstart : Reaches next (on j .start control hist input)
      (on j .checkCommand (control.setState .running) hist input) :=
    .head rfl (reaches_checkCommand (control.setState .running) input hshutdown hpaused hist)
  have hrecv : ∃ control' hist', Quiet control' ∧
      Reaches next (on j .start control hist input) (on (resetJob control.command j) .recv control' hist' input) := by
    unfold resetJob
    split_ifs with hreset
    · have hcheck : next (on j .checkCommand (control.setState .running) hist input) =
          some (on j .stageReset (control.setState .running) hist input) := by
        rw [next_checkCommand, StageControl.command_setState, if_pos hreset]
      refine ⟨((control.setState .running).storeCommand .run).storeFlag .run, hist ++ [.stageReset] ++ [.metricsReset],
        ⟨hshutdown, rfl, ?_⟩, hstart.trans (.head hcheck (.head rfl (.head rfl (.head rfl (.single rfl)))))⟩
      rw [StageControl.command_storeFlag, StageControl.command_storeCommand]
      decide
    · have hcheck : next (on j .checkCommand (control.setState .running) hist input) =
          some (on j .recv (control.setState .running) hist input) := by
        rw [next_checkCommand, StageControl.command_setState, if_neg hreset]
      exact ⟨control.setState .running, hist, ⟨hshutdown, hpaused, hreset⟩, hstart.trans (.single hcheck)⟩
  obtain ⟨control₁, hist₁, hquiet, hrecv⟩ := hrecv
  obtain ⟨hist₂, input₂, hloop⟩ := reaches_stopping control₁ input hquiet h hqueue hsender hist₁
  have hrest : (resetJob control.command j).Fits (xs ++ []) := by rwa [List.append_nil]
  obtain ⟨control₃, hist₃, hend⟩ := reaches_returned control₁ input₂ hrest.foldl hist₂
  exact ⟨control₃, hist₃, _, hrecv.trans (hloop.trans hend)⟩

end Worker

/-! ### The batch worker, undisturbed -/

namespace BatchWorker

/-- The next step of a worker that has its channels to itself. -/
def next (p : BatchWorker S × Chan ι × Chan ο) : Option (BatchWorker S × Chan ι × Chan ο) :=
  p.1.step p.2.1 p.2.2

/-- A worker at `pc`, at work on `j`. -/
def on (j : Job S) (pc : BatchPc ι ο) (control : StageControl) (batchSize itemSize : ℕ) (batch : List ι)
    (input : Chan ι) : BatchWorker S × Chan ι × Chan ο :=
  (⟨pc, j.stage, control, j.metrics, batchSize, itemSize, batch⟩, input, j.output)

variable {j : Job S} {x : ι} {xs : List ι} {batchSize itemSize : ℕ} (control : StageControl) (batch : List ι)
  (input : Chan ι)

/-- An item of the batch is fed. -/
theorem reaches_feed (h : j.Fits (x :: xs)) :
    Reaches next (on j (.recordInput x) control batchSize itemSize batch input)
      (on (j.feed x) .drain control batchSize itemSize batch input) := by
  unfold Job.feed
  rcases hp : S.process j.stage x with ⟨stage, _ | result⟩
  · have hprocess :
        next (on ⟨j.stage, j.metrics.recordInput, j.output⟩ (.process x) control batchSize itemSize batch input) =
        some (on ⟨stage, j.metrics.recordInput, j.output⟩ .recordFiltered control batchSize itemSize batch input) := by
      simp only [next, on, step, hp]
    exact .head rfl (.head hprocess (.single rfl))
  · have hprocess :
        next (on ⟨j.stage, j.metrics.recordInput, j.output⟩ (.process x) control batchSize itemSize batch input) =
        some (on ⟨stage, j.metrics.recordInput, j.output⟩ (.sendOrDrop result) control batchSize itemSize batch
          input) := by
      simp only [next, on, step, hp]
    have hsend : next (on ⟨stage, j.metrics.recordInput, j.output⟩ (.sendOrDrop result) control batchSize itemSize batch
        input) = some (on ⟨stage, j.metrics.recordInput, j.output.push result⟩ .recordOutput control batchSize itemSize
        batch input) := by
      simp only [next, on, step, Chan.sendOrDrop_eq h.receiver (h.hasRoom_of_process hp)]
    exact .head rfl (.head hprocess (.head hsend (.single rfl)))

/-- The whole batch is fed. -/
theorem reaches_drained (h : j.Fits (batch ++ xs)) :
    Reaches next (on j .drain control batchSize itemSize batch input)
      (on (batch.foldl Job.feed j) .checkShutdown control batchSize itemSize [] input) := by
  induction batch generalizing j with
  | nil => exact .single rfl
  | cons x batch ih => exact .head rfl ((reaches_feed control batch input h).trans (ih h.feed))

/-- Out of the loop the stage is flushed, and the channels are dropped. -/
theorem reaches_returned (h : j.Fits []) : ∃ control',
    Reaches next (on j .flush control batchSize itemSize batch input)
      (on ⟨j.finish.stage, j.finish.metrics, j.finish.output.dropSender⟩ .returned control' batchSize itemSize batch
        input.dropReceiver) := by
  have hdrop (j' : Job S) : Reaches next (on j' .stopped control batchSize itemSize batch input)
      (on ⟨j'.stage, j'.metrics, j'.output.dropSender⟩ .returned (control.setState .stopped) batchSize itemSize batch
        input.dropReceiver) := .head rfl (.head rfl (.single rfl))
  unfold Job.finish
  rcases hf : S.flush j.stage with ⟨stage, _ | result⟩
  · have hflush : next (on j .flush control batchSize itemSize batch input) =
        some (on ⟨stage, j.metrics, j.output⟩ .stopped control batchSize itemSize batch input) := by
      simp only [next, on, step, hf]
    exact ⟨_, .head hflush (hdrop _)⟩
  · have hflush : next (on j .flush control batchSize itemSize batch input) =
        some (on ⟨stage, j.metrics, j.output⟩ (.send result) control batchSize itemSize batch input) := by
      simp only [next, on, step, hf]
    have hsend : next (on ⟨stage, j.metrics, j.output⟩ (.send result) control batchSize itemSize batch input) =
        some (on ⟨stage, j.metrics, j.output.push result⟩ .recordFlush control batchSize itemSize batch input) := by
      simp only [next, on, step, Chan.send_eq h.receiver (h.hasRoom_of_flush hf)]
    exact ⟨_, .head hflush (.head hsend (.head rfl (hdrop ⟨stage, j.metrics.recordOutput, j.output.push result⟩)))⟩

/-- What the inner loop has collected when it ends: as much as fits in the batch, or all that there
is. In the end `Stopping` is stored. -/
structure Collected (control : StageControl) (batch xs : List ι) (control' : StageControl) (batch' rest : List ι) :
    Prop where
  all_eq : batch' ++ rest = batch ++ xs
  shutdown_eq : control'.shutdown = control.shutdown
  paused_eq : control'.paused = control.paused
  stopping : batch' = [] → rest = [] ∧ control'.state = .stopping

/-- A batch that is full is not empty. -/
theorem Collected.full {control : StageControl} {batch : List ι} (hsize : 1 ≤ batchSize)
    (hfull : ¬ batch.length < batchSize) (rest : List ι) : Collected control batch rest control batch rest := by
  refine ⟨rfl, rfl, rfl, fun hnil => ?_⟩
  rw [hnil] at hfull
  exact absurd hsize hfull

/-- The inner loop ends. -/
theorem reaches_checkBatch (hsize : 1 ≤ batchSize) (hqueue : input.queue = xs) (hsender : input.sender = false) :
    ∃ control' batch' input', Collected control batch xs control' batch' input'.queue ∧ input'.sender = false ∧
      Reaches next (on j .checkLen control batchSize itemSize batch input)
        (on j .checkBatch control' batchSize itemSize batch' input') := by
  have hcheckLen (batch : List ι) (input : Chan ι) : next (on j .checkLen control batchSize itemSize batch input) =
      some (on j (if batch.length < batchSize then .recv else .checkBatch) control batchSize itemSize batch input) :=
    rfl
  induction xs generalizing batch input with
  | nil =>
    by_cases hlt : batch.length < batchSize
    · have hrecv := hcheckLen batch input
      rw [if_pos hlt] at hrecv
      have hwaiting : next (on j .waiting control batchSize itemSize batch input.beginRecv) =
          some (on j .stopping control batchSize itemSize batch input.beginRecv.giveUp) := by
        simp only [next, on, step, Chan.endRecv, Chan.beginRecv, hqueue, hsender]
        rfl
      refine ⟨control.setState .stopping, batch, input.beginRecv.giveUp, ⟨?_, rfl, rfl, fun _ => ⟨hqueue, ?_⟩⟩, hsender,
        .head hrecv (.head rfl (.head hwaiting (.single rfl)))⟩
      · rw [show input.beginRecv.giveUp.queue = [] from hqueue]
      · exact StageControl.state_setState control .stopping
    · have hfull := hcheckLen batch input
      rw [if_neg hlt] at hfull
      exact ⟨control, batch, input, hqueue ▸ .full hsize hlt _, hsender, .single hfull⟩
  | cons x xs ih =>
    by_cases hlt : batch.length < batchSize
    · have hrecv := hcheckLen batch input
      rw [if_pos hlt] at hrecv
      have hwaiting : next (on j .waiting control batchSize itemSize batch input.beginRecv) =
          some (on j .checkLen control batchSize itemSize (batch ++ [x]) (input.beginRecv.take x xs)) := by
        simp only [next, on, step, Chan.endRecv, Chan.beginRecv, hqueue]
      obtain ⟨control', batch', input', hcollected, hsender', hreaches⟩ :=
        ih (batch ++ [x]) (input.beginRecv.take x xs) rfl hsender
      refine ⟨control', batch', input', ⟨?_, hcollected.shutdown_eq, hcollected.paused_eq, hcollected.stopping⟩,
        hsender', .head hrecv (.head rfl (.head hwaiting hreaches))⟩
      rw [hcollected.all_eq, List.append_assoc, List.singleton_append]
    · have hfull := hcheckLen batch input
      rw [if_neg hlt] at hfull
      exact ⟨control, batch, input, hqueue ▸ .full hsize hlt _, hsender, .single hfull⟩

/-- The loop feeds all items and ends, a batch at a time. -/
theorem reaches_flush (hsize : 1 ≤ batchSize) (hshutdown : control.shutdown = false)
    (hpaused : control.paused = false) (h : j.Fits input.queue) (hsender : input.sender = false) :
    ∃ control' batch' input', Reaches next (on j .checkShutdown control batchSize itemSize batch input)
      (on (input.queue.foldl Job.feed j) .flush control' batchSize itemSize batch' input') := by
  -- on the items that are left: a batch that is not empty leaves fewer
  induction hn : input.queue.length using Nat.strong_induction_on generalizing j control batch input with
  | _ n ih =>
  have hcheckShutdown : next (on j .checkShutdown control batchSize itemSize batch input) =
      some (on j .checkPaused control batchSize itemSize batch input) := by
    simp only [next, on, step, hshutdown]
    rfl
  have hcheckPaused : next (on j .checkPaused control batchSize itemSize batch input) =
      some (on j .clear control batchSize itemSize batch input) := by
    simp only [next, on, step, hpaused]
    rfl
  obtain ⟨control₁, batch₁, input₁, hcollected, hsender₁, hcollect⟩ :=
    reaches_checkBatch control [] input (j := j) hsize rfl hsender
  have hall : batch₁ ++ input₁.queue = input.queue := hcollected.all_eq
  have hclear : next (on j .clear control batchSize itemSize batch input) =
      some (on j .checkLen control batchSize itemSize [] input) := rfl
  have hhead : Reaches next (on j .checkShutdown control batchSize itemSize batch input)
      (on j .checkBatch control₁ batchSize itemSize batch₁ input₁) :=
    .head hcheckShutdown (.head hcheckPaused (.head hclear hcollect))
  rw [← hall] at h ⊢
  cases batch₁ with
  | nil =>
    obtain ⟨hrest, hstopping⟩ := hcollected.stopping rfl
    have hcheckState : next (on j .checkState control₁ batchSize itemSize [] input₁) =
        some (on j .flush control₁ batchSize itemSize [] input₁) := by
      have hstate : next (on j .checkState control₁ batchSize itemSize [] input₁) =
        some (on j (if control₁.state = .stopping then .flush else .tick) control₁ batchSize itemSize [] input₁) := rfl
      rw [hstate, if_pos hstopping]
    rw [hrest]
    exact ⟨control₁, [], input₁, hhead.trans (.head rfl (.single hcheckState))⟩
  | cons x batch₁ =>
    have hlength : input₁.queue.length < n := by
      rw [← hn, ← hall, List.length_append, List.length_cons]
      omega
    obtain ⟨control₂, batch₂, input₂, hrest⟩ := ih input₁.queue.length hlength control₁ [] input₁
      (hcollected.shutdown_eq.trans hshutdown) (hcollected.paused_eq.trans hpaused) h.foldl hsender₁ rfl
    rw [List.foldl_append]
    have hdrained : Reaches next (on j .drain control₁ batchSize itemSize (x :: batch₁) input₁)
        (on ((x :: batch₁).foldl Job.feed j) .checkShutdown control₁ batchSize itemSize [] input₁) :=
      reaches_drained control₁ (x :: batch₁) input₁ h
    exact ⟨control₂, batch₂, input₂, hhead.trans (.head rfl (hdrained.trans hrest))⟩

/-- **There is room for a batch**, or the worker panics before it has taken an item. -/
theorem panics (hcapacity : ¬ batchSize * itemSize ≤ isizeMax) :
    Reaches next (on j .start control batchSize itemSize batch input)
      (on ⟨j.stage, j.metrics, j.output.dropSender⟩ .panicked (control.setState .running) batchSize itemSize batch
        input.dropReceiver) := by
  have hwithCapacity : next (on j .withCapacity (control.setState .running) batchSize itemSize batch input) =
      some (on ⟨j.stage, j.metrics, j.output.dropSender⟩ .panicked (control.setState .running) batchSize itemSize batch
        input.dropReceiver) := if_neg hcapacity
  exact .head rfl (.single hwithCapacity)

/-- **The batch worker**, with any command pending: it feeds all items, and returns. -/
theorem returns (hcapacity : batchSize * itemSize ≤ isizeMax) (hsize : 1 ≤ batchSize)
    (hshutdown : control.shutdown = false) (hpaused : control.paused = false) (h : j.Fits xs)
    (hqueue : input.queue = xs) (hsender : input.sender = false) : ∃ control' batch' input',
    Reaches next (on j .start control batchSize itemSize [] input)
      (on ⟨(j.run xs).stage, (j.run xs).metrics, (j.run xs).output.dropSender⟩ .returned control' batchSize itemSize
        batch' input') := by
  subst hqueue
  have hwithCapacity : next (on j .withCapacity (control.setState .running) batchSize itemSize [] input) =
      some (on j .checkShutdown (control.setState .running) batchSize itemSize [] input) := if_pos hcapacity
  obtain ⟨control₁, batch₁, input₁, hloop⟩ := reaches_flush (control.setState .running) [] input (j := j) hsize
    hshutdown hpaused h hsender
  have hrest : j.Fits (input.queue ++ []) := by rwa [List.append_nil]
  obtain ⟨control₂, hend⟩ := reaches_returned control₁ batch₁ input₁ hrest.foldl
  exact ⟨control₂, batch₁, _, .head rfl (.head hwithCapacity (hloop.trans hend))⟩

end BatchWorker

/-! ### The two side by side -/

section
variable (S : Stage ι ο) (batchSize itemSize : ℕ) (control : StageControl) (m : StageMetrics) (input : Chan ι)
  (output : Chan ο)

/-- Both workers return, having sent the same values, with the same stage and the same counts. -/
def WorkersAgree : Prop :=
  ∃ p ∈ eval Worker.next (Worker.on ⟨S.init, m, output⟩ .start control [] input),
    ∃ q ∈ eval BatchWorker.next (BatchWorker.on ⟨S.init, m, output⟩ .start control batchSize itemSize [] input),
      p.1.pc = .returned ∧ q.1.pc = .returned ∧ q.2.2.sent = p.2.2.sent ∧ q.1.stage = p.1.stage ∧
        q.1.metrics = p.1.metrics

/-- A reset before the items makes no difference to what the stage gives for them, to what it is in
the end, and to the counts. -/
structure ResetUnseen (xs : List ι) : Prop where
  results_eq : S.results S.init xs = S.results (S.reset S.init) xs
  final_eq : S.final S.init xs = S.final (S.reset S.init) xs
  counts_eq : m.counting S S.init xs = StageMetrics.new.counting S (S.reset S.init) xs

variable {S batchSize itemSize control m input output}

/-- Both return, so they agree when what they have done is the same. -/
theorem workersAgree_iff_run (hcapacity : batchSize * itemSize ≤ isizeMax) (hsize : 1 ≤ batchSize)
    (hshutdown : control.shutdown = false) (hpaused : control.paused = false) (hsender : input.sender = false)
    (hfits : Job.Fits (⟨S.init, m, output⟩ : Job S) input.queue)
    (hfitsReset : (Worker.resetJob control.command (⟨S.init, m, output⟩ : Job S)).Fits input.queue) :
    WorkersAgree S batchSize itemSize control m input output ↔
      (Job.run (⟨S.init, m, output⟩ : Job S) input.queue).output.sent =
          ((Worker.resetJob control.command (⟨S.init, m, output⟩ : Job S)).run input.queue).output.sent ∧
        (Job.run (⟨S.init, m, output⟩ : Job S) input.queue).stage =
          ((Worker.resetJob control.command (⟨S.init, m, output⟩ : Job S)).run input.queue).stage ∧
        (Job.run (⟨S.init, m, output⟩ : Job S) input.queue).metrics =
          ((Worker.resetJob control.command (⟨S.init, m, output⟩ : Job S)).run input.queue).metrics := by
  obtain ⟨control₁, hist, input₁, hplain⟩ := Worker.returns control input hshutdown hpaused hfitsReset rfl hsender []
  obtain ⟨control₂, batch, input₂, hbatch⟩ :=
    BatchWorker.returns control input hcapacity hsize hshutdown hpaused hfits rfl hsender
  have hp := mem_eval.2 ⟨hplain, rfl⟩
  have hq := mem_eval.2 ⟨hbatch, rfl⟩
  constructor
  · rintro ⟨p, hp', q, hq', -, -, hsame⟩
    obtain rfl := Part.mem_unique hp' hp
    obtain rfl := Part.mem_unique hq' hq
    exact hsame
  · exact fun hsame => ⟨_, hp, _, hq, rfl, rfl, hsame⟩

/-- They do not agree when the batch worker panics. -/
theorem le_isizeMax_of_workersAgree (h : WorkersAgree S batchSize itemSize control m input output) :
    batchSize * itemSize ≤ isizeMax := by
  by_contra hcapacity
  obtain ⟨p, -, q, hq, -, hreturned, -⟩ := h
  have hpanics := mem_eval.2 ⟨BatchWorker.panics (j := ⟨S.init, m, output⟩) control [] input hcapacity, rfl⟩
  obtain rfl := Part.mem_unique hq hpanics
  cases hreturned

/-- **When the batch worker agrees with the plain worker**: with room for a batch, and no `Reset` pending, or
one that makes no difference. -/
theorem workersAgree_iff (hsize : 1 ≤ batchSize) (hshutdown : control.shutdown = false)
    (hpaused : control.paused = false) (hsender : input.sender = false) (hreceiver : output.receiver = true)
    (hroom : output.queue.length + (S.results S.init input.queue).length ≤ output.capacity)
    (hroomReset : control.command = .reset →
      output.queue.length + (S.results (S.reset S.init) input.queue).length ≤ output.capacity) :
    WorkersAgree S batchSize itemSize control m input output ↔
      batchSize * itemSize ≤ isizeMax ∧ (control.command ≠ .reset ∨ ResetUnseen S m input.queue) := by
  have hfits : Job.Fits (⟨S.init, m, output⟩ : Job S) input.queue := ⟨hreceiver, hroom⟩
  have hfitsReset : (Worker.resetJob control.command (⟨S.init, m, output⟩ : Job S)).Fits input.queue := by
    unfold Worker.resetJob
    split_ifs with hreset
    · exact ⟨hreceiver, hroomReset hreset⟩
    · exact hfits
  have hagree (hcapacity : batchSize * itemSize ≤ isizeMax) :
      WorkersAgree S batchSize itemSize control m input output ↔
        control.command ≠ .reset ∨ ResetUnseen S m input.queue := by
    rw [workersAgree_iff_run hcapacity hsize hshutdown hpaused hsender hfits hfitsReset]
    unfold Worker.resetJob
    split_ifs with hreset
    · rw [or_iff_right (not_not.2 hreset)]
      simp only [Job.sent_run, Job.stage_run, Job.metrics_run, List.append_cancel_left_eq]
      exact ⟨fun ⟨hresults, hfinal, hcounts⟩ => ⟨hresults, hfinal, hcounts⟩,
        fun ⟨hresults, hfinal, hcounts⟩ => ⟨hresults, hfinal, hcounts⟩⟩
    · exact iff_of_true ⟨rfl, rfl, rfl⟩ (.inl hreset)
  constructor
  · intro h
    have hcapacity := le_isizeMax_of_workersAgree h
    exact ⟨hcapacity, (hagree hcapacity).1 h⟩
  · rintro ⟨hcapacity, hunseen⟩
    exact (hagree hcapacity).2 hunseen

end

/-- A stage that gives the total of its items, from five on until it is reset. -/
def totals : Stage ℕ ℕ := .ofProcess 5 (fun s x => (s + x, some (s + x))) fun _ => 0

/-- An input channel whose sender is gone. -/
def queued (xs : List ℕ) : Chan ℕ := ⟨8, xs, false, true, false, xs, []⟩

/-- Five items of eight bytes, in batches of two. -/
theorem workersAgree_iff_totals :
    WorkersAgree totals 2 8 (.storeCommand .new .resume) .new (queued [1, 2, 3, 4, 5]) (bounded 8) ↔
      2 * 8 ≤ isizeMax ∧ (StageCommand.resume ≠ .reset ∨ ResetUnseen totals .new [1, 2, 3, 4, 5]) :=
  workersAgree_iff (by decide) rfl rfl rfl rfl (by decide) (by decide)

/-- One item, and a `Reset` pending. -/
theorem not_workersAgree : ¬ ∀ (S : Stage ℕ ℕ) (batchSize itemSize : ℕ) (control : StageControl) (m : StageMetrics)
    (input output : Chan ℕ), 1 ≤ batchSize →
    control.command = .run ∨ control.command = .resume ∨ control.command = .reset →
    control.shutdown = false → control.paused = false → input.sender = false → output.receiver = true →
    output.queue.length + (S.results S.init input.queue).length ≤ output.capacity →
    output.queue.length + (S.results (S.reset S.init) input.queue).length ≤ output.capacity →
    WorkersAgree S batchSize itemSize control m input output := by
  intro h
  have hagree := h totals 1 8 (.storeCommand .new .reset) .new (queued [1]) (bounded 8) (Nat.le_refl 1)
    (.inr (.inr rfl)) rfl rfl rfl rfl (by decide) (by decide)
  rw [workersAgree_iff_run (by decide) (Nat.le_refl 1) rfl rfl rfl ⟨rfl, by decide⟩ ⟨rfl, by decide⟩] at hagree
  exact absurd hagree.1 (by decide)

end Pipeline

end SensorBridge
