import SensorBridge.Pipeline.StageThread

/-!
# Spawning a stage

`StageHandleBuilder::spawn` and `spawn_with_input` start the worker's thread and then
store `Running` in the state cell, which the worker has been writing since it started.
Whose store is the last depends on how early the worker can finish. `spawn` holds the
input's sender and the handle itself until it returns, so its worker is still in its
loop then. The input of `spawn_with_input` may lose its senders at any time, before the
call included: the worker can store `Stopped` before the spawner stores `Running`, and
the stage says for ever that it is running (`not_forall_final`). It does not when the
spawner's store comes first (`final_of_timely`).
-/

namespace SensorBridge.Pipeline

open Foundation Channel

universe u

/-- `StageHandle::is_running`. -/
def StageControl.isRunning (c : StageControl) : Bool := decide (c.state = .running)

/-- Whether a worker has stored `Stopped`. -/
@[simp] def Pc.hasStopped {ι ο : Type u} : Pc ι ο → Bool
  | .dropOutput | .dropInput | .returned => true
  | _ => false

/-- The function that spawns. -/
inductive SpawnFn where
  /-- `StageHandleBuilder::spawn`: the input channel is made by the call. -/
  | spawn
  /-- `StageHandleBuilder::spawn_with_input`: the input channel is given. -/
  | spawnWithInput
  deriving DecidableEq

/-- Where the spawning thread is: what it does next. -/
inductive SpawnPc where
  /-- `thread::Builder::spawn`. -/
  | startThread
  /-- `control.set_state(StageState::Running)`. -/
  | setRunning
  /-- The call has returned the handle. -/
  | returned
  deriving DecidableEq

/-- A stage being spawned. -/
structure Spawning {ι ο : Type u} (S : Stage ι ο) where
  /-- The function called. -/
  fn : SpawnFn
  /-- Where the call is. -/
  pc : SpawnPc
  /-- The stage in its thread. -/
  thread : StageThread S

namespace Spawning

variable {ι ο : Type u} {S : Stage ι ο}

/-- What can happen next. -/
inductive Act (ι : Type u) where
  /-- The spawning thread's next step. -/
  | spawner
  /-- Something happens to the stage. -/
  | thread (a : StageThread.Act ι)

/-- What can happen to the stage so far: the worker runs once its thread is started; the
handle, the output's receiver and the sender `spawn` makes are nobody's until the call
returns. -/
def allowed (s : Spawning S) : StageThread.Act ι → Bool
  | .worker => !decide (s.pc = .startThread)
  | .send _ | .dropSender => decide (s.fn = .spawnWithInput) || decide (s.pc = .returned)
  | .call _ | .callStep _ | .beginRecv | .endRecv | .dropReceiver => decide (s.pc = .returned)

/-- The spawning thread's store of `Running`. -/
def storeRunning (s : Spawning S) : Spawning S :=
  { s with pc := .returned
           thread.worker.control := s.thread.worker.control.setState .running }

/-- One step. -/
def step (s : Spawning S) : Act ι → Option (Spawning S)
  | .spawner => match s.pc with
    | .startThread => some { s with pc := .setRunning }
    | .setRunning => some s.storeRunning
    | .returned => none
  | .thread a => if s.allowed a then (s.thread.step a).map fun thread => { s with thread } else none

/-- The machine. -/
def machine (S : Stage ι ο) : Machine (Spawning S) (Act ι) where
  init s := ∃ fn m n, s = ⟨fn, .startThread, .spawn S m n⟩
  step := step

/-- **What a step can be.** -/
theorem step_cases {s s' : Spawning S} {a : Act ι} (h : s.step a = some s') :
    (a = .spawner ∧ s.pc = .startThread ∧ s' = { s with pc := .setRunning }) ∨
    (a = .spawner ∧ s.pc = .setRunning ∧ s' = s.storeRunning) ∨
    ∃ b t, a = .thread b ∧ s.allowed b = true ∧ s.thread.step b = some t ∧ s' = { s with thread := t } := by
  cases a with
  | spawner =>
    simp only [step] at h
    split at h
    · cases h
      exact .inl ⟨rfl, ‹_›, rfl⟩
    · cases h
      exact .inr (.inl ⟨rfl, ‹_›, rfl⟩)
    · cases h
  | thread b =>
    simp only [step] at h
    split at h
    · obtain ⟨t, ht, rfl⟩ := Option.map_eq_some_iff.mp h
      exact .inr (.inr ⟨b, t, rfl, ‹_›, ht, rfl⟩)
    · cases h

/-! ### Stopped is final -/

/-- A worker that has stored `Stopped` leaves the state so. -/
theorem state_of_hasStopped {w w' : Worker S} {input input' : Chan ι} {output output' : Chan ο}
    (hs : Worker.Step w input output w' input' output')
    (hw : w.pc.hasStopped = true → w.control.state = .stopped) (h : w'.pc.hasStopped = true) :
    w'.control.state = .stopped := by
  cases hs with
  | stopped hpc => exact StageControl.state_setState _ _
  | dropOutput hpc | dropInput hpc => exact hw (by rw [hpc]; rfl)
  | _ => cases h

/-- A worker leaves its loop only when told to shut down, or when its input is
disconnected. -/
theorem inLoop_of_connected {w w' : Worker S} {input input' : Chan ι} {output output' : Chan ο}
    (hs : Worker.Step w input output w' input' output') (hw : w.pc.inLoop = true)
    (hshutdown : w.control.shutdown = false) (hsender : input.sender = true) :
    w'.pc.inLoop = true := by
  cases hs with
  | shutdown hpc hset => rw [hset] at hshutdown; cases hshutdown
  | disconnected hpc hq hgone => rw [hgone] at hsender; cases hsender
  | stopping hpc | flushSome _ _ hpc | flushNone _ hpc | sent _ hpc | refused _ hpc | recordFlush hpc
  | stopped hpc | dropOutput hpc | dropInput hpc => rw [hpc] at hw; cases hw
  | _ => rfl

/-- No step of a worker sets its shutdown flag. -/
theorem shutdown_eq {w w' : Worker S} {input input' : Chan ι} {output output' : Chan ο}
    (hs : Worker.Step w input output w' input' output') : w'.control.shutdown = w.control.shutdown := by
  cases hs <;> simp

/-- **What it takes of a step**: the spawner of `spawn_with_input` stores `Running` before
the worker stores `Stopped`. -/
def timely (s : Spawning S) : Act ι → Bool
  | .spawner => decide (s.fn = .spawn) || !decide (s.pc = .setRunning) || !s.thread.worker.pc.hasStopped
  | _ => true

/-- `timely`, as a condition on the steps of a run. -/
abbrev Timely (s : Spawning S) (a : Act ι) : Prop := timely s a = true

/-- The invariant of the timely runs. -/
structure Inv (s : Spawning S) : Prop where
  /-- Nobody overwrites `Stopped`. -/
  stopped : s.thread.worker.pc.hasStopped = true → s.thread.worker.control.state = .stopped
  /-- Until `spawn` returns, nothing can end the worker's loop. -/
  spawn : s.fn = .spawn → s.pc ≠ .returned → s.thread.worker.pc.inLoop = true ∧
    s.thread.worker.control.shutdown = false ∧ s.thread.input.sender = true

theorem hasStopped_of_inLoop {pc : Pc ι ο} (h : pc.inLoop = true) : pc.hasStopped = false := by
  cases pc <;> first | rfl | cases h

/-- Until `spawn` returns, only the worker moves. -/
theorem eq_worker_of_allowed {s : Spawning S} {a : StageThread.Act ι} (ha : s.allowed a = true)
    (hfn : s.fn = .spawn) (hpc : s.pc ≠ .returned) : a = .worker := by
  cases a with
  | worker => rfl
  | send | dropSender =>
    rw [allowed, hfn, Bool.or_eq_true] at ha
    rcases ha with ha | ha
    · cases of_decide_eq_true ha
    · exact absurd (of_decide_eq_true ha) hpc
  | call | callStep | beginRecv | endRecv | dropReceiver => exact absurd (of_decide_eq_true ha) hpc

/-- A call of `set_command` does not touch the state cell. -/
theorem state_of_callStep {t t' : StageThread S} {i : ℕ} {c : SetCommandCall}
    (h : t.callStep i c = some t') : t'.worker.control.state = t.worker.control.state := by
  rcases StageThread.callStep_cases h with ⟨-, rfl⟩ | ⟨-, rfl⟩
  · rfl
  · cases c.cmd <;> rfl

/-- What happens to the stage keeps the invariant. -/
theorem Inv.thread {s : Spawning S} {a : StageThread.Act ι} {t : StageThread S} (h : Inv s)
    (ha : s.allowed a = true) (ht : s.thread.step a = some t) : Inv { s with thread := t } := by
  obtain ⟨hstopped, hspawn⟩ := h
  constructor
  · show t.worker.pc.hasStopped = true → t.worker.control.state = .stopped
    rcases StageThread.step_cases ht with ⟨-, hw, -⟩ | ⟨cmd, -, rfl⟩ | ⟨i, c, -, -, hc⟩ | ⟨hw, -⟩
    · exact state_of_hasStopped hw hstopped
    · exact hstopped
    · rw [state_of_callStep hc, StageThread.callStep_worker hc]
      exact hstopped
    · rw [hw]
      exact hstopped
  · intro hfn hpc
    obtain ⟨hloop, hshutdown, hsender⟩ := hspawn hfn hpc
    obtain rfl := eq_worker_of_allowed ha hfn hpc
    obtain ⟨⟨w, i, o⟩, hw, rfl⟩ := Option.map_eq_some_iff.mp ht
    have hst := Worker.step_cases hw
    refine ⟨inLoop_of_connected hst hloop hshutdown hsender, ?_, ?_⟩
    · exact (shutdown_eq hst).trans hshutdown
    · exact hst.sameSender_input.sender_eq.trans hsender

theorem Inv.step {s s' : Spawning S} {a : Act ι} (h : Inv s) (ht : Timely s a)
    (hs : s.step a = some s') : Inv s' := by
  rcases step_cases hs with ⟨-, hpc, rfl⟩ | ⟨rfl, hpc, rfl⟩ | ⟨b, t, rfl, hb, hst, rfl⟩
  · refine ⟨h.stopped, fun hfn _ => h.spawn hfn ?_⟩
    rw [hpc]
    decide
  · constructor
    · intro hst
      have hnot : s.thread.worker.pc.hasStopped = false := by
        rcases hfn : s.fn with _ | _
        · exact hasStopped_of_inLoop (h.spawn hfn (by rw [hpc]; decide)).1
        · simpa [Timely, timely, hfn, hpc] using ht
      rw [show s.storeRunning.thread.worker.pc = s.thread.worker.pc from rfl, hnot] at hst
      cases hst
    · intro _ hret
      exact absurd rfl hret
  · exact h.thread hb hst

/-- **Stopped is final**, in every run in which `spawn_with_input` stores `Running` in
time: once the worker has returned, the stage says that it has stopped, whatever the
spawning call has still to do or has done. -/
theorem final_of_timely {s : Spawning S} (h : Machine.ReachBy (machine S) Timely s)
    (hworker : s.thread.worker.pc.isReturned = true) :
    s.thread.worker.control.state = .stopped ∧ s.thread.worker.control.isRunning = false := by
  have hinv : Inv s := by
    refine h.invariant (I := Inv) ?_ ?_
    · rintro s ⟨fn, m, n, rfl⟩
      exact ⟨by rintro ⟨⟩, fun _ _ => ⟨rfl, rfl, rfl⟩⟩
    · intro s a s' hi ht hs
      exact hi.step ht hs
  have hstate : s.thread.worker.control.state = .stopped := by
    refine hinv.stopped ?_
    rw [Pc.eq_returned hworker]
    rfl
  exact ⟨hstate, by rw [StageControl.isRunning, hstate]; rfl⟩

/-- A stage is given its input, works, and stops when the input's senders are gone. -/
theorem final_of_timely_returned : ∃ s : Spawning (Stage.identity : Stage ℕ ℕ),
    s.fn = .spawnWithInput ∧ s.pc = .returned ∧ s.thread.worker.control.state = .stopped ∧
      s.thread.worker.control.isRunning = false := by
  obtain ⟨s, hs, hp⟩ := Machine.exists_reachBy_of_runBy (M := machine (Stage.identity : Stage ℕ ℕ))
    (C := Timely) (s := ⟨.spawnWithInput, .startThread, .spawn _ 1 1⟩) ⟨_, 1, 1, rfl⟩
    (List.flatten [.replicate 2 .spawner, [.thread .dropSender], .replicate 11 (.thread .worker)])
    (fun s => s.thread.worker.pc.isReturned && decide (s.pc = .returned ∧ s.fn = .spawnWithInput))
    (by decide)
  rw [Bool.and_eq_true] at hp
  obtain ⟨hpc, hfn⟩ := of_decide_eq_true hp.2
  obtain ⟨hstate, hrunning⟩ := final_of_timely hs hp.1
  exact ⟨s, hfn, hpc, hstate, hrunning⟩

/-- The senders are gone before `spawn_with_input` is called: the worker runs to its end
before the spawning thread's next step, which stores `Running`. -/
theorem not_forall_final : ¬ ∀ (S : Stage ℕ ℕ) (s : Spawning S), (machine S).Reach s →
    s.thread.worker.pc.isReturned = true → s.pc = .returned →
    s.thread.worker.control.state = .stopped ∧ s.thread.worker.control.isRunning = false := by
  intro h
  obtain ⟨s, hs, hp⟩ := Machine.exists_reach_of_run (M := machine (Stage.identity : Stage ℕ ℕ))
    (s := ⟨.spawnWithInput, .startThread, .spawn _ 1 1⟩) ⟨_, 1, 1, rfl⟩
    (List.flatten [[.thread .dropSender, .spawner], .replicate 11 (.thread .worker), [.spawner]])
    (fun s => s.thread.worker.pc.isReturned &&
      decide (s.pc = .returned ∧ s.thread.worker.control.state = .running)) (by decide)
  rw [Bool.and_eq_true] at hp
  obtain ⟨hpc, hstate⟩ := of_decide_eq_true hp.2
  have := (h _ s hs hp.1 hpc).1
  rw [hstate] at this
  cases this

end Spawning

end SensorBridge.Pipeline
