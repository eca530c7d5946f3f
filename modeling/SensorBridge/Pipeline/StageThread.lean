import SensorBridge.Foundation.Machine
import SensorBridge.Foundation.Threads
import SensorBridge.Pipeline.Executor

/-!
# A stage in its thread

The machine of one `stage_worker` and everything around it: any number of threads
calling `set_command` through the handle, each call two stores; any senders on the
input channel; a receiver on the output channel that may be dropped at any time.

The first result about it is what the metrics count. `record_output` follows
`output.send` whatever it returned, so a value that `flush` produced and a dropped
receiver refused is counted as output (`not_forall_conserved`). When no such send is
refused, the metrics balance (`conserved_of_flushHeard`).
-/

namespace SensorBridge.Pipeline

open Foundation Foundation.Threads Channel

universe u

/-- Where a call of `set_command` is. -/
inductive SetCommandPc where
  /-- It has been called. -/
  | called
  /-- It has stored the command. -/
  | stored
  /-- It has stored the flag and returned. -/
  | returned
  deriving DecidableEq

/-- A call of `set_command`. -/
structure SetCommandCall where
  /-- Its argument. -/
  cmd : StageCommand
  /-- Where it is. -/
  pc : SetCommandPc
  /-- How many times the stage had been reset when it was called (not in the source). -/
  resets : ℕ
  /-- Whether it had returned when the worker's iteration began (not in the source). -/
  seen : Bool
  deriving DecidableEq

/-- The worker begins an iteration. -/
def SetCommandCall.look (c : SetCommandCall) : SetCommandCall :=
  { c with seen := decide (c.pc = .returned) }

/-- A worker, its channels, and the calls made through its handle. -/
structure StageThread {ι ο : Type u} (S : Stage ι ο) where
  /-- The worker. -/
  worker : Worker S
  /-- Its input channel. -/
  input : Chan ι
  /-- Its output channel. -/
  output : Chan ο
  /-- The calls of `set_command`, in the order they were made. -/
  calls : List SetCommandCall

/-- How many times the stage has been reset. -/
def Worker.resets {ι ο : Type u} {S : Stage ι ο} (w : Worker S) : ℕ := w.hist.countP Event.isStageReset

namespace StageThread

variable {ι ο : Type u} {S : Stage ι ο}

/-- What can happen next. -/
inductive Act (ι : Type u) where
  /-- The worker's next step. -/
  | worker
  /-- `set_command` is called. -/
  | call (cmd : StageCommand)
  /-- The next step of a `set_command` call. -/
  | callStep (call : ℕ)
  /-- An item is sent. -/
  | send (item : ι)
  /-- The last sender of the input is dropped. -/
  | dropSender
  /-- A receive on the output begins. -/
  | beginRecv
  /-- A receive on the output completes. -/
  | endRecv
  /-- The receiver of the output is dropped. -/
  | dropReceiver

/-- The worker's next step. It begins an iteration by looking for shutdown. -/
def workerStep (s : StageThread S) : Option (StageThread S) :=
  (s.worker.step s.input s.output).map fun (worker, input, output) =>
    { worker, input, output
      calls := if s.worker.pc.isLoopHead then s.calls.map SetCommandCall.look else s.calls }

/-- The next step of call `i` of `set_command`. -/
def callStep (s : StageThread S) (i : ℕ) (c : SetCommandCall) : Option (StageThread S) :=
  match c.pc with
  | .called =>
    some { s with worker := { s.worker with control := s.worker.control.storeCommand c.cmd }
                  calls := s.calls.set i { c with pc := .stored } }
  | .stored =>
    some { s with worker := { s.worker with control := s.worker.control.storeFlag c.cmd }
                  calls := s.calls.set i { c with pc := .returned } }
  | .returned => none

/-- One step. -/
def step (s : StageThread S) : Act ι → Option (StageThread S)
  | .worker => s.workerStep
  | .call cmd => some { s with calls := s.calls ++ [⟨cmd, .called, s.worker.resets, false⟩] }
  | .callStep i => (s.calls[i]?).bind (s.callStep i)
  | .send item =>
    if s.input.sender then
      match s.input.trySend item with
      | .ok input => some { s with input := input }
      | .error _ => none
    else none
  | .dropSender => some { s with input := s.input.dropSender }
  | .beginRecv => some { s with output := s.output.beginRecv }
  | .endRecv => some { s with output := s.output.endRecv.2 }
  | .dropReceiver => some { s with output := s.output.dropReceiver }

/-- A thread just spawned. -/
def spawn (S : Stage ι ο) (inputCapacity outputCapacity : ℕ) : StageThread S :=
  ⟨.spawn S, bounded inputCapacity, bounded outputCapacity, []⟩

/-- The machine. -/
def machine (S : Stage ι ο) : Machine (StageThread S) (Act ι) where
  init s := ∃ m n, s = spawn S m n
  step := step

/-- **What a step can be**: the worker's, a `set_command` call that begins or moves, or
something on the far side of a channel. -/
theorem step_cases {s s' : StageThread S} {a : Act ι} (h : s.step a = some s') :
    a = .worker ∧ Worker.Step s.worker s.input s.output s'.worker s'.input s'.output ∧
      s'.calls = (if s.worker.pc.isLoopHead then s.calls.map SetCommandCall.look else s.calls) ∨
    (∃ cmd, a = .call cmd ∧
      s' = { s with calls := s.calls ++ [⟨cmd, .called, s.worker.resets, false⟩] }) ∨
    (∃ i c, a = .callStep i ∧ s.calls[i]? = some c ∧ s.callStep i c = some s') ∨
    s'.worker = s.worker ∧ s'.calls = s.calls := by
  cases a with
  | worker =>
    obtain ⟨⟨w, i, o⟩, hw, rfl⟩ := Option.map_eq_some_iff.mp h
    exact .inl ⟨rfl, Worker.step_cases hw, rfl⟩
  | call cmd =>
    cases h
    exact .inr (.inl ⟨cmd, rfl, rfl⟩)
  | callStep i =>
    obtain ⟨c, hc, h⟩ := Option.bind_eq_some_iff.mp h
    exact .inr (.inr (.inl ⟨i, c, rfl, hc, h⟩))
  | send item =>
    refine .inr (.inr (.inr ?_))
    simp only [step] at h
    split at h
    · split at h
      · cases h
        exact ⟨rfl, rfl⟩
      · cases h
    · cases h
  | dropSender | beginRecv | endRecv | dropReceiver =>
    cases h
    exact .inr (.inr (.inr ⟨rfl, rfl⟩))

/-- **What a call of `set_command` can do**: it stores the command, or the flag, and then it
returns. -/
theorem callStep_cases {s s' : StageThread S} {i : ℕ} {c : SetCommandCall}
    (h : s.callStep i c = some s') :
    c.pc = .called ∧
      s' = { s with worker := { s.worker with control := s.worker.control.storeCommand c.cmd }
                    calls := s.calls.set i { c with pc := .stored } } ∨
    c.pc = .stored ∧
      s' = { s with worker := { s.worker with control := s.worker.control.storeFlag c.cmd }
                    calls := s.calls.set i { c with pc := .returned } } := by
  unfold callStep at h
  cases hpc : c.pc with
  | called =>
    simp only [hpc, Option.some.injEq] at h
    exact .inl ⟨rfl, h.symm⟩
  | stored =>
    simp only [hpc, Option.some.injEq] at h
    exact .inr ⟨rfl, h.symm⟩
  | returned => simp [hpc] at h

/-- A call of `set_command` that moves changes the control cells only. -/
theorem callStep_worker {s s' : StageThread S} {i : ℕ} {c : SetCommandCall}
    (h : s.callStep i c = some s') :
    s'.worker = { s.worker with control := s'.worker.control } := by
  rcases callStep_cases h with ⟨-, rfl⟩ | ⟨-, rfl⟩ <;> rfl

/-- What only the worker's own steps can break, every step keeps, if they do. -/
theorem step_worker {P : Worker S → Prop}
    (hcontrol : ∀ w control, P w → P { w with control := control }) {s s' : StageThread S} {a : Act ι}
    (hworker : a = .worker → P s.worker →
      Worker.Step s.worker s.input s.output s'.worker s'.input s'.output → P s'.worker)
    (h : s.step a = some s') (hs : P s.worker) : P s'.worker := by
  rcases step_cases h with ⟨ha, hw, -⟩ | ⟨cmd, -, rfl⟩ | ⟨i, c, -, -, hc⟩ | ⟨hw, -⟩
  · exact hworker ha hs hw
  · exact hs
  · rw [callStep_worker hc]
    exact hcontrol _ _ hs
  · rw [hw]
    exact hs

/-! ### What the metrics count -/

/-- **The metrics balance**: since the last `metrics.reset()`, `output_count` is the number
of values put in the output channel, and what came out of the worker in one way or
another is what came in, with what `tick` and `flush` produced. -/
structure Conserved (w : Worker S) : Prop where
  outputCount_eq : w.metrics.outputCount = ((sinceReset w.hist).filterMap Event.placed?).length
  balance : w.metrics.outputCount + w.metrics.droppedCount + w.metrics.filteredCount =
    w.metrics.inputCount + ((sinceReset w.hist).filterMap Event.extra?).length

/-- Every item processed was filtered, or there is a result. -/
theorem length_item_add_extra (es : List (Event ι ο)) :
    (es.filterMap Event.item?).length + (es.filterMap Event.extra?).length =
      (es.filterMap Event.out?).length + (es.filterMap Event.filtered?).length := by
  induction es with
  | nil => rfl
  | cons e es ih =>
    rcases e with _ | ⟨_, _ | _⟩ | (_ | _) | (_ | _) | _ | _ | _ | _ | _ <;>
      simp only [List.filterMap_cons, Event.item?, Event.extra?, Event.out?, Event.filtered?,
        List.length_cons] <;> omega

theorem kept_step {s s' : StageThread S} {a : Act ι} (hk : s.worker.Kept) (h : s.step a = some s') :
    s'.worker.Kept :=
  step_worker (P := Worker.Kept) (fun _ _ hw => ⟨hw.flow, hw.recent, hw.counts⟩)
    (fun _ hw hst => hst.kept hw) h hk

/-- At the head of the loop and after the return nothing is in hand and nothing is due: the
metrics balance unless `send` has given a value back. -/
theorem conserved_iff {w : Worker S} (hk : w.Kept)
    (hpc : w.pc.isLoopHead = true ∨ w.pc.isReturned = true) :
    Conserved w ↔ (sinceReset w.hist).filterMap Event.refused? = [] := by
  obtain ⟨-, ⟨htook, hout⟩, ⟨hi, ho, hd, hf⟩⟩ := hk
  have hlen := length_item_add_extra (sinceReset w.hist)
  have hperm := (handled_perm (sinceReset w.hist)).length_eq
  have htook := congrArg List.length htook
  have hout := congrArg List.length hout
  have hidle : w.pc.item = none ∧ w.pc.result = none ∧ w.pc.owedInput = 0 ∧ w.pc.owedOutput = 0 ∧
      w.pc.owedDropped = 0 ∧ w.pc.owedFiltered = 0 := by
    rcases hpc with hpc | hpc
    all_goals
      cases h : w.pc <;> rw [h] at hpc <;> cases hpc
      simp
  obtain ⟨hitem, hresult, hi0, ho0, hd0, hf0⟩ := hidle
  simp only [hitem, hresult, Option.toList_none, List.length_append, List.length_nil, Nat.add_zero]
    at htook hout hperm
  rw [← List.length_eq_zero_iff]
  constructor
  · intro hc
    have := hc.outputCount_eq
    omega
  · intro href
    exact ⟨by omega, by omega⟩

/-- **What the metrics need of a step**: the blocking send of what `flush` returned does not
find the receiver gone. -/
def flushHeard (s : StageThread S) : Act ι → Bool
  | .worker => match s.worker.pc with
    | .send _ => s.output.receiver
    | _ => true
  | _ => true

/-- `flushHeard`, as a condition on the steps of a run. -/
abbrev FlushHeard (s : StageThread S) (a : Act ι) : Prop := flushHeard s a = true

/-- **When the metrics balance**: at every loop head and after the return, in every run in
which `flush`'s send is heard. -/
theorem conserved_of_flushHeard {s : StageThread S} (h : Machine.ReachBy (machine S) FlushHeard s)
    (hpc : s.worker.pc.isLoopHead = true ∨ s.worker.pc.isReturned = true) : Conserved s.worker := by
  have hinv : s.worker.Kept ∧ s.worker.hist.filterMap Event.refused? = [] := by
    refine h.invariant
      (I := fun s => s.worker.Kept ∧ s.worker.hist.filterMap Event.refused? = []) ?_ ?_
    · rintro s ⟨m, n, rfl⟩
      exact ⟨.spawn S, rfl⟩
    · intro s a s' ⟨hk, href⟩ hx hs
      refine ⟨kept_step hk hs, step_worker
        (P := fun w => w.hist.filterMap Event.refused? = []) (fun _ _ hw => hw) ?_ hs href⟩
      rintro rfl hw hst
      refine hst.refused_eq_nil ?_ hw
      intro y hy
      simpa only [FlushHeard, flushHeard, hy] using hx
  obtain ⟨hk, href⟩ := hinv
  refine (conserved_iff hk hpc).mpr ?_
  have hsub := (sinceReset_suffix s.worker.hist).sublist.filterMap Event.refused?
  rw [href] at hsub
  exact List.sublist_nil.mp hsub

/-- A stage that adds up what it is given and delivers the sum at shutdown. -/
def sumStage : Stage ℕ ℕ where
  State := ℕ
  init := 0
  process s x := (s + x, none)
  tick s := (s, none)
  reset _ := 0
  flush s := (0, some s)

/-- An item is summed, the pipeline shuts down, and the sum is delivered. -/
theorem conserved_of_flushHeard_sum : ∃ s : StageThread sumStage,
    s.worker.metrics = ⟨1, 1, 1, 0⟩ ∧ s.output.queue = [7] ∧ Conserved s.worker := by
  obtain ⟨s, hs, hp⟩ := Machine.exists_reachBy_of_runBy (M := machine sumStage) (C := FlushHeard)
    (s := spawn sumStage 1 1) ⟨1, 1, rfl⟩
    (List.flatten [[.send 7], .replicate 9 .worker, [.call .shutdown, .callStep 0, .callStep 0],
      .replicate 8 .worker])
    (fun s => s.worker.pc.isReturned && decide (s.worker.metrics = ⟨1, 1, 1, 0⟩ ∧ s.output.queue = [7]))
    (by decide)
  rw [Bool.and_eq_true] at hp
  obtain ⟨hm, hq⟩ := of_decide_eq_true hp.2
  exact ⟨s, hm, hq, conserved_of_flushHeard hs (.inr hp.1)⟩

/-- The receiver goes first: `flush` returns a sum, `output.send` gives it back, and it is
counted as output all the same. -/
theorem not_forall_conserved : ¬ ∀ (S : Stage ℕ ℕ) (s : StageThread S), (machine S).Reach s →
    (s.worker.pc.isLoopHead = true ∨ s.worker.pc.isReturned = true) → Conserved s.worker := by
  intro h
  obtain ⟨s, hs, hp⟩ := Machine.exists_reach_of_run (M := machine sumStage)
    (s := spawn sumStage 1 1) ⟨1, 1, rfl⟩
    (List.flatten [[.dropReceiver, .dropSender], .replicate 13 .worker])
    (fun s => s.worker.pc.isReturned && decide (s.worker.metrics.outputCount = 1 ∧
      ((sinceReset s.worker.hist).filterMap Event.placed?) = [])) (by decide)
  rw [Bool.and_eq_true] at hp
  obtain ⟨hout, hplaced⟩ := of_decide_eq_true hp.2
  have := (h sumStage s hs (.inr hp.1)).outputCount_eq
  rw [hout, hplaced] at this
  cases this

end StageThread

end SensorBridge.Pipeline
