import SensorBridge.Pipeline.Command
import SensorBridge.Pipeline.Shutdown

/-!
# Dropping a handle

`Drop` for `StageHandle` requests shutdown, drops the input's sender and joins the thread, and only
then are the fields of the handle dropped, the output's receiver among them. As long as that is the only
receiver, nobody receives meanwhile.

The worker has at most 20 steps left by then, and the join can return after them, with one exception.
What `flush` returns is sent with the blocking `send`; when it finds no room, the worker waits for the
receiver that the handle holds, and the handle for the worker, for ever (`drop_of_reach`).

The handle is one from `spawn` whose sender may have been cloned, and whose receiver has been neither taken
nor cloned: a receive by somebody else would let the worker go on. The stage does not panic.
-/

namespace SensorBridge.Pipeline

open Foundation Channel

universe u

/-- Where the thread that has the handle is: what it does next. -/
inductive DropPc where
  /-- It uses the handle, or drops it. -/
  | used
  /-- `self.shutdown()`: the store of the command. -/
  | storeCommand
  /-- `self.shutdown()`: the store of the flag. -/
  | storeFlag
  /-- `self.input_tx.take()`. -/
  | takeInput
  /-- `thread.join()`. -/
  | join
  /-- The fields are dropped: `output_rx`. -/
  | dropOutput
  /-- The handle is no more. -/
  | gone
  deriving DecidableEq

/-- Whether the shutdown flag has been stored. -/
@[simp] def DropPc.hasStored : DropPc → Bool
  | takeInput | join | dropOutput | gone => true
  | _ => false

/-- A stage in its thread, and the thread that has its handle. -/
structure HandleDrop {ι ο : Type u} (S : Stage ι ο) where
  pc : DropPc
  thread : StageThread S

namespace Worker.Step

variable {ι ο : Type u} {S : Stage ι ο} {w w' : Worker S} {input input' : Chan ι} {output output' : Chan ο} {y : ο}

/-- A worker whose receiver is there sends only to where there is room. -/
theorem hasRoom_of_send (h : Worker.Step w input output w' input' output') (hpc : w.pc = .send y)
    (hreceiver : output.receiver = true) : output.HasRoom := by
  cases h with
  | sent result _ _ hroom => exact hroom
  | refused result _ hgone => simp [hreceiver] at hgone
  | _ => simp_all

/-- What `flush` returns is sent. -/
theorem send_of_flush (h : Worker.Step w input output w' input' output') (hpc : w.pc = .flush)
    (hy : (S.flush w.stage).2 = some y) : w'.pc = .send y ∧ output' = output := by
  cases h <;> simp_all

end Worker.Step

namespace HandleDrop

variable {ι ο : Type u} {S : Stage ι ο}

/-- What can happen next. -/
inductive Act (ι : Type u) where
  /-- The next step of dropping the handle. -/
  | drop
  /-- Something happens to the stage. -/
  | thread (a : StageThread.Act ι)

/-- What can happen to the stage: nobody uses the handle while it is dropped, whose sender may have
clones, and whose receiver has none. -/
def allowed (s : HandleDrop S) : StageThread.Act ι → Bool
  | .worker | .send _ => true
  | .call _ | .callStep _ | .beginRecv | .endRecv => decide (s.pc = .used)
  | .dropSender => decide (s.pc = .join) || decide (s.pc = .dropOutput) || decide (s.pc = .gone)
  | .dropReceiver => false

/-- No call through the handle is in progress. -/
def idle (s : HandleDrop S) : Bool :=
  s.thread.calls.all (fun c => decide (c.pc = .returned)) && !s.thread.output.waiting

/-- The control cells are stored to. -/
def store (s : HandleDrop S) (pc : DropPc) (control : StageControl) : HandleDrop S :=
  { pc, thread := { s.thread with worker := { s.thread.worker with control } } }

/-- The next step of `drop`. -/
def stepDrop (s : HandleDrop S) : Option (HandleDrop S) :=
  match s.pc with
  | .used => if s.idle then some { s with pc := .storeCommand } else none
  | .storeCommand => some (s.store .storeFlag (s.thread.worker.control.storeCommand .shutdown))
  | .storeFlag => some (s.store .takeInput (s.thread.worker.control.storeFlag .shutdown))
  | .takeInput => some { s with pc := .join }
  | .join => if s.thread.worker.pc.isReturned then some { s with pc := .dropOutput } else none
  | .dropOutput => some { pc := .gone, thread := { s.thread with output := s.thread.output.dropReceiver } }
  | .gone => none

/-- One step. -/
def step (s : HandleDrop S) : Act ι → Option (HandleDrop S)
  | .drop => s.stepDrop
  | .thread a => if s.allowed a then (s.thread.step a).map fun thread => { s with thread } else none

/-- A handle just returned by `spawn`. -/
def machine (S : Stage ι ο) : Machine (HandleDrop S) (Act ι) where
  init s := ∃ capacity, s = ⟨.used, .spawn S capacity capacity⟩
  step := step

/-- **What a step can be.** -/
inductive Step (s : HandleDrop S) : Act ι → HandleDrop S → Prop where
  | begin : s.pc = .used → s.idle = true → Step s .drop { s with pc := .storeCommand }
  | storeCommand : s.pc = .storeCommand →
      Step s .drop (s.store .storeFlag (s.thread.worker.control.storeCommand .shutdown))
  | storeFlag : s.pc = .storeFlag → Step s .drop (s.store .takeInput (s.thread.worker.control.storeFlag .shutdown))
  | takeInput : s.pc = .takeInput → Step s .drop { s with pc := .join }
  | join : s.pc = .join → s.thread.worker.pc.isReturned = true → Step s .drop { s with pc := .dropOutput }
  | dropOutput : s.pc = .dropOutput →
      Step s .drop { pc := .gone, thread := { s.thread with output := s.thread.output.dropReceiver } }
  | thread {a : StageThread.Act ι} {t : StageThread S} : s.allowed a = true → s.thread.step a = some t →
      Step s (.thread a) { s with thread := t }

variable {s s' : HandleDrop S} {a : Act ι}

theorem step_cases (h : s.step a = some s') : Step s a s' := by
  cases a with
  | drop =>
    simp only [step, stepDrop] at h
    split at h
    · obtain ⟨hidle, hnext⟩ := Option.ite_none_right_eq_some.1 h
      cases hnext
      exact .begin ‹_› hidle
    · cases h
      exact .storeCommand ‹_›
    · cases h
      exact .storeFlag ‹_›
    · cases h
      exact .takeInput ‹_›
    · obtain ⟨hreturned, hnext⟩ := Option.ite_none_right_eq_some.1 h
      cases hnext
      exact .join ‹_› hreturned
    · cases h
      exact .dropOutput ‹_›
    · cases h
  | thread a =>
    simp only [step] at h
    split at h
    · obtain ⟨t, ht, rfl⟩ := Option.map_eq_some_iff.1 h
      exact .thread ‹_› ht
    · cases h

/-! ### What has been done for the join -/

/-- The receiver is held until the worker has returned, and the flag is set before the join. -/
structure Inv (s : HandleDrop S) : Prop where
  receiver : s.pc ≠ .gone → s.thread.output.receiver = true
  flag : s.pc.hasStored = true → s.thread.worker.control.shutdown = true

theorem inv_spawn (capacity : ℕ) : Inv (⟨.used, .spawn S capacity capacity⟩ : HandleDrop S) :=
  ⟨fun _ => rfl, fun h => by cases h⟩

/-- Only the handle's owner drops the receiver. -/
theorem receiver_of_allowed {b : StageThread.Act ι} {t : StageThread S} (hb : s.allowed b = true)
    (h : s.thread.step b = some t) : t.output.receiver = s.thread.output.receiver := by
  cases b with
  | worker =>
    obtain ⟨⟨w, i, o⟩, hw, rfl⟩ := Option.map_eq_some_iff.1 h
    exact (Worker.step_cases hw).sameReceiver_output.receiver_eq
  | call cmd =>
    cases h
    rfl
  | callStep i =>
    obtain ⟨c, -, hc⟩ := Option.bind_eq_some_iff.1 h
    rcases StageThread.callStep_cases hc with ⟨-, rfl⟩ | ⟨-, rfl⟩
    · rfl
    · rfl
  | send item =>
    simp only [StageThread.step] at h
    split at h
    · split at h
      · cases h
        rfl
      · cases h
    · cases h
  | dropSender =>
    cases h
    rfl
  | beginRecv =>
    cases h
    rfl
  | endRecv =>
    cases h
    exact s.thread.output.endRecv_sameSender.2
  | dropReceiver => cases hb

theorem Inv.step (h : Inv s) (hs : Step s a s') : Inv s' := by
  cases hs with
  | begin hpc => exact ⟨fun _ => h.receiver (by rw [hpc]; decide), fun hflag => by cases hflag⟩
  | storeCommand hpc => exact ⟨fun _ => h.receiver (by rw [hpc]; decide), fun hflag => by cases hflag⟩
  | storeFlag hpc => exact ⟨fun _ => h.receiver (by rw [hpc]; decide), fun _ => rfl⟩
  | takeInput hpc => exact ⟨fun _ => h.receiver (by rw [hpc]; decide), fun _ => h.flag (by rw [hpc]; rfl)⟩
  | join hpc => exact ⟨fun _ => h.receiver (by rw [hpc]; decide), fun _ => h.flag (by rw [hpc]; rfl)⟩
  | dropOutput hpc => exact ⟨fun hne => absurd rfl hne, fun _ => h.flag (by rw [hpc]; rfl)⟩
  | thread hallowed ht =>
    refine ⟨fun hne => ?_, fun hflag => StageThread.shutdown_step ht (h.flag hflag)⟩
    exact (receiver_of_allowed hallowed ht).trans (h.receiver hne)

theorem inv_of_reach (h : (machine S).Reach s) : Inv s := by
  refine h.invariant ?_ fun s a s' hs _ hstep => hs.step (step_cases hstep)
  rintro s ⟨capacity, rfl⟩
  exact inv_spawn capacity

/-! ### The join -/

/-- Whether the worker moves. -/
def Act.isWorker : Act ι → Bool
  | .thread .worker => true
  | _ => false

theorem isWorker_thread_of_ne {b : StageThread.Act ι} (h : b ≠ .worker) : (Act.thread b).isWorker = false := by
  cases b with
  | worker => exact absurd rfl h
  | _ => rfl

/-- The worker sends what `flush` has returned, and finds no room for it. -/
def Stuck (s : HandleDrop S) : Prop := ∃ y, s.thread.worker.pc = .send y ∧ ¬ s.thread.output.HasRoom

/-- **After the flag**, what happens to the stage is a step of its worker, or leaves the worker and the output
as they are. -/
theorem thread_cases {b : StageThread.Act ι} {t : StageThread S} (hflag : s.pc.hasStored = true)
    (hb : s.allowed b = true) (h : s.thread.step b = some t) :
    (b = .worker ∧ Worker.Step s.thread.worker s.thread.input s.thread.output t.worker t.input t.output) ∨
      b ≠ .worker ∧ t.worker = s.thread.worker ∧ t.output = s.thread.output := by
  have hnot : s.pc ≠ .used := fun hpc => by rw [hpc] at hflag; cases hflag
  cases b with
  | worker =>
    obtain ⟨⟨w, i, o⟩, hw, rfl⟩ := Option.map_eq_some_iff.1 h
    exact .inl ⟨rfl, Worker.step_cases hw⟩
  | send item =>
    simp only [StageThread.step] at h
    split at h
    · split at h
      · cases h
        exact .inr ⟨by simp, rfl, rfl⟩
      · cases h
    · cases h
  | dropSender =>
    cases h
    exact .inr ⟨by simp, rfl, rfl⟩
  | call cmd => exact absurd (of_decide_eq_true hb) hnot
  | callStep i => exact absurd (of_decide_eq_true hb) hnot
  | beginRecv => exact absurd (of_decide_eq_true hb) hnot
  | endRecv => exact absurd (of_decide_eq_true hb) hnot
  | dropReceiver => cases hb

/-- Once the flag is set, every step of the worker brings it nearer to its end, and no other step
touches it. -/
theorem Step.stepsLeft_le (hs : Step s a s') (hinv : Inv s) (hflag : s.pc.hasStored = true) :
    (if a.isWorker then 1 else 0) + s'.thread.worker.pc.stepsLeft ≤ s.thread.worker.pc.stepsLeft ∧
      s'.pc.hasStored = true := by
  cases hs with
  | begin hpc => rw [hpc] at hflag; cases hflag
  | storeCommand hpc => rw [hpc] at hflag; cases hflag
  | storeFlag hpc => rw [hpc] at hflag; cases hflag
  | takeInput => exact ⟨by simp [Act.isWorker], rfl⟩
  | join => exact ⟨by simp [Act.isWorker], rfl⟩
  | dropOutput => exact ⟨by simp [Act.isWorker], rfl⟩
  | thread hallowed ht =>
    refine ⟨?_, hflag⟩
    rcases thread_cases hflag hallowed ht with ⟨rfl, hw⟩ | ⟨hne, hw, -⟩
    · have hlt := hw.stepsLeft_lt (hinv.flag hflag)
      simp only [Act.isWorker, if_true]
      omega
    · rw [isWorker_thread_of_ne hne, hw]
      simp

/-- The worker takes no more steps than it has left. -/
theorem countP_isWorker_le {as : List (Act ι)} (h : (machine S).Reach s) (hflag : s.pc.hasStored = true)
    (hrun : (machine S).run s as = some s') :
    as.countP Act.isWorker + s'.thread.worker.pc.stepsLeft ≤ s.thread.worker.pc.stepsLeft := by
  induction as generalizing s with
  | nil =>
    cases hrun
    simp
  | cons a as ih =>
    obtain ⟨u, hu, hrun⟩ := Option.bind_eq_some_iff.1 hrun
    obtain ⟨hle, hflag'⟩ := (step_cases hu).stepsLeft_le (inv_of_reach h) hflag
    have hrest := ih (.next h trivial hu) hflag' hrun
    rw [List.countP_cons]
    omega

theorem stepsLeft_le (pc : Pc ι ο) : pc.stepsLeft ≤ 20 := by
  cases pc <;> simp

/-- **Nothing frees a stuck worker**, which the handle waits for. -/
theorem Step.stuck (hs : Step s a s') (hinv : Inv s) (hpc : s.pc = .join) (hstuck : s.Stuck) :
    s'.Stuck ∧ s'.pc = .join := by
  obtain ⟨y, hsend, hroom⟩ := hstuck
  cases hs with
  | begin hpc' => rw [hpc] at hpc'; cases hpc'
  | storeCommand hpc' => rw [hpc] at hpc'; cases hpc'
  | storeFlag hpc' => rw [hpc] at hpc'; cases hpc'
  | takeInput hpc' => rw [hpc] at hpc'; cases hpc'
  | join _ hreturned => rw [hsend] at hreturned; cases hreturned
  | dropOutput hpc' => rw [hpc] at hpc'; cases hpc'
  | thread hallowed ht =>
    rcases thread_cases (by rw [hpc]; rfl) hallowed ht with ⟨-, hw⟩ | ⟨-, hw, ho⟩
    · -- it can neither send nor be refused
      have hreceiver := hinv.receiver (by rw [hpc]; decide)
      exact absurd (hw.hasRoom_of_send hsend hreceiver) hroom
    · exact ⟨⟨y, by rw [hw, hsend], by rwa [ho]⟩, hpc⟩

/-- The join returns, or the worker moves, unless it is stuck. -/
theorem isSome_step_of_not_stuck (hpc : s.pc = .join) (h : ¬ s.Stuck) :
    (s.step .drop).isSome = true ∨ (s.step (.thread .worker)).isSome = true := by
  cases hreturned : s.thread.worker.pc.isReturned with
  | true =>
    refine .inl ?_
    simp [HandleDrop.step, stepDrop, hpc, Pc.eq_returned hreturned]
  | false =>
    refine .inr ?_
    have hworker : (s.thread.worker.step s.thread.input s.thread.output).isSome = true := by
      refine Worker.isSome_step hreturned fun y hsend => .inr ?_
      by_contra hroom
      exact h ⟨y, hsend, hroom⟩
    simp [HandleDrop.step, allowed, StageThread.step, StageThread.workerStep, hworker]

/-- What makes a worker stuck is a value of `flush` that has no room. -/
theorem Step.stuck_iff (hs : Step s (.thread .worker) s') :
    s'.Stuck ↔ s.thread.worker.pc = .flush ∧ (S.flush s.thread.worker.stage).2.isSome = true ∧
      ¬ s.thread.output.HasRoom := by
  cases hs with
  | thread _ ht =>
    obtain ⟨⟨w, i, o⟩, hw, rfl⟩ := Option.map_eq_some_iff.1 ht
    have hw := Worker.step_cases hw
    constructor
    · rintro ⟨y, hsend, hroom⟩
      obtain ⟨hflush, hy, rfl⟩ := hw.send_cases hsend
      exact ⟨hflush, Option.isSome_of_eq_some hy, hroom⟩
    · rintro ⟨hflush, hsome, hroom⟩
      obtain ⟨y, hy⟩ := Option.isSome_iff_exists.1 hsome
      obtain ⟨hsend, rfl⟩ := hw.send_of_flush hflush hy
      exact ⟨y, hsend, hroom⟩

/-- **A handle can be dropped, unless its worker gets stuck**: from the join on the worker takes at most
20 steps; the join returns or the worker moves as long as it is not stuck, which it is when `flush`
has returned a value and the output has no room for it; and then it is for ever, and the drop does not
return. -/
theorem drop_of_reach (h : (machine S).Reach s) (hpc : s.pc = .join) :
    (∀ (as : List (Act ι)) (t : HandleDrop S), (machine S).run s as = some t → as.countP Act.isWorker ≤ 20) ∧
      (¬ s.Stuck → (s.step .drop).isSome = true ∨ (s.step (.thread .worker)).isSome = true) ∧
      (∀ t, s.step (.thread .worker) = some t → (t.Stuck ↔ s.thread.worker.pc = .flush ∧
        (S.flush s.thread.worker.stage).2.isSome = true ∧ ¬ s.thread.output.HasRoom)) ∧
      (s.Stuck → ∀ t, (machine S).Steps s t → t.Stuck ∧ t.pc = .join) := by
  have hinv := inv_of_reach h
  refine ⟨fun as t hrun => ?_, isSome_step_of_not_stuck hpc, fun t ht => (step_cases ht).stuck_iff,
    fun hstuck t hsteps => ?_⟩
  · have hle := countP_isWorker_le h (by rw [hpc]; rfl) hrun
    have := stepsLeft_le s.thread.worker.pc
    omega
  · have hkeep := hsteps.keeps (P := fun u => Inv u ∧ u.Stuck ∧ u.pc = .join)
      (fun u a u' hu _ hstep => ⟨hu.1.step (step_cases hstep), (step_cases hstep).stuck hu.1 hu.2.2 hu.2.1⟩)
      ⟨hinv, hstuck, hpc⟩
    exact hkeep.2

/-- The output has one place, which is taken when the handle is dropped. -/
theorem drop_of_reach_full : ∃ s : HandleDrop Net.chattyStage, (machine Net.chattyStage).Reach s ∧ s.pc = .join ∧
    ∀ t, (machine Net.chattyStage).Steps s t → t.Stuck ∧ t.pc = .join := by
  obtain ⟨s, hs, htest⟩ := Machine.exists_reach_of_run (M := machine Net.chattyStage)
    (s := ⟨.used, .spawn Net.chattyStage 1 1⟩) ⟨1, rfl⟩
    (List.flatten [[.thread (.send 5)], .replicate 10 (.thread .worker), .replicate 4 .drop,
      .replicate 3 (.thread .worker)])
    (fun s => decide (s.pc = .join ∧ s.thread.worker.pc = .send 1 ∧ ¬ s.thread.output.HasRoom)) (by decide)
  obtain ⟨hpc, hsend, hroom⟩ := of_decide_eq_true htest
  exact ⟨s, hs, hpc, (drop_of_reach hs hpc).2.2.2 ⟨1, hsend, hroom⟩⟩

end HandleDrop

end SensorBridge.Pipeline
