import SensorBridge.Foundation.Machine
import SensorBridge.Pipeline.StageHandle
import Mathlib.Logic.Function.Basic
import Mathlib.Tactic.SplitIfs

/-!
# The owner of a pipeline

The thread that holds a `MultiStagePipeline` and calls `shutdown`, `join`, `pause`,
`resume` and `reset` on it, one call at a time. `Owner.step` is what those functions
do, store by store; what they do to the stages is an `Effect`, carried out by whoever
runs the owner.

Here the stages are four threads that run until they finish or panic, at any time.
`join` takes a thread's handle before it looks at the deadline: when the deadline has
passed the handle is gone, and the next `join` returns `Ok(())` with that thread
running (`not_forall_agrees`). Where no deadline passes, and `shutdown` is not called
on a pipeline that has stopped, the pipeline's state agrees with its threads
(`agrees_of_orderly`).

The clock is not in the model: whether a deadline has passed is a choice.
-/

namespace SensorBridge.Pipeline

open Foundation

/-- State of the entire pipeline. -/
inductive PipelineState where
  /-- Pipeline is created but not started. -/
  | created
  /-- Pipeline is starting up. -/
  | starting
  /-- Pipeline is running normally. -/
  | running
  /-- Pipeline is stopping. -/
  | stopping
  /-- Pipeline has stopped. -/
  | stopped
  /-- Pipeline encountered an error. -/
  | error
  deriving DecidableEq, Repr

/-- `state as u8`. -/
def PipelineState.toU8 : PipelineState → UInt8
  | created => 0
  | starting => 1
  | running => 2
  | stopping => 3
  | stopped => 4
  | error => 5

/-- `impl From<u8> for PipelineState`. -/
def PipelineState.ofU8 : UInt8 → PipelineState
  | 0 => created
  | 1 => starting
  | 2 => running
  | 3 => stopping
  | 4 => stopped
  | 5 => error
  | _ => created

@[simp] theorem PipelineState.ofU8_toU8 (state : PipelineState) : ofU8 state.toU8 = state := by
  cases state <;> rfl

/-- The names of the stages, first to last. -/
def stageNames : List String := ["ingestion", "filtering", "aggregation", "output"]

/-- How many stages there are. -/
abbrev stageCount : ℕ := 4

/-- The error of a `join` whose deadline has passed. -/
def timeoutError (k : ℕ) : String :=
  "Timeout waiting for stage '" ++ stageNames.getD k "" ++ "' to finish"

/-- The error of a `join` that finds a thread panicked. -/
def panicError (k : ℕ) : String := "Stage '" ++ stageNames.getD k "" ++ "' panicked"

/-- What a stage's thread is doing. -/
inductive ThreadStatus where
  | running
  | finished
  | panicked
  deriving DecidableEq

/-- A call on the pipeline. -/
inductive OwnerCall where
  | shutdown
  | join
  | pause
  | resume
  | reset
  deriving DecidableEq

/-- Where the owner is. -/
inductive OwnerPc where
  /-- No call is in progress. -/
  | idle
  /-- `shutdown`: `self.state.store(PipelineState::Stopping)`. -/
  | storeStopping
  /-- `set_command(cmd)` on stage `k`, the first store. -/
  | storeCommand (cmd : StageCommand) (k : ℕ)
  /-- `set_command(cmd)` on stage `k`, the second store. -/
  | storeFlag (cmd : StageCommand) (k : ℕ)
  /-- `shutdown`: `self.input_tx.take()`. -/
  | takeInput
  /-- `join`: `stage.thread.take()` on stage `k`. -/
  | takeThread (k : ℕ)
  /-- `join`: the deadline is looked at, the handle of stage `k` in hand. -/
  | checkDeadline (k : ℕ)
  /-- `join`: `thread.join()` on stage `k`. -/
  | joinThread (k : ℕ)
  /-- `join`: `self.state.store(PipelineState::Stopped)`. -/
  | storeStopped
  deriving DecidableEq

/-- The thread whose handle `join` has in hand. -/
def OwnerPc.inHand : OwnerPc → Option ℕ
  | .checkDeadline k | .joinThread k => some k
  | _ => none

/-- How far the loop of `join` has come. -/
def OwnerPc.reached : OwnerPc → ℕ
  | .takeThread k | .checkDeadline k | .joinThread k => k
  | .storeStopped => stageCount
  | _ => 0

/-- The pipeline as its owner has it. -/
structure Owner where
  /-- Where the owner is. -/
  pc : OwnerPc
  /-- Pipeline state. -/
  stateCell : UInt8
  /-- Whether `input_tx` is there. -/
  inputTx : Bool
  /-- Whether the handle of stage `k`'s thread is there. -/
  thread : ℕ → Bool
  /-- What `join` has returned, first to last (not in the source). -/
  joins : List (Except String Unit)
  /-- Whether `thread.join()` has returned for stage `k` (not in the source). -/
  joined : ℕ → Bool

/-- What a step of the owner does to the stages. -/
inductive Effect where
  /-- The first store of `set_command(cmd)` on stage `k`. -/
  | storeCommand (k : ℕ) (cmd : StageCommand)
  /-- The second store of `set_command(cmd)` on stage `k`. -/
  | storeFlag (k : ℕ) (cmd : StageCommand)
  /-- The input sender is dropped. -/
  | dropInput
  deriving DecidableEq

/-- What the owner can do next. -/
inductive OwnerAct where
  /-- A call begins. -/
  | call (c : OwnerCall)
  /-- The next step of the call in progress; if it looks at the deadline, whether that has
  passed. -/
  | step (late : Bool)
  deriving DecidableEq

namespace Owner

/-- The state of the pipeline. -/
def state (o : Owner) : PipelineState := .ofU8 o.stateCell

/-- The owner of a pipeline just built. -/
def built : Owner where
  pc := .idle
  stateCell := PipelineState.running.toU8
  inputTx := true
  thread k := decide (k < stageCount)
  joins := []
  joined _ := false

/-- Where a call begins. -/
def entry : OwnerCall → OwnerPc
  | .shutdown => .storeStopping
  | .join => .takeThread 0
  | .pause => .storeCommand .pause 0
  | .resume => .storeCommand .resume 0
  | .reset => .storeCommand .reset 0

/-- One step of the owner, and what it does to the stages: `none` when there is nothing to
do, or when `thread.join()` blocks. -/
def step (status : ℕ → ThreadStatus) (o : Owner) : OwnerAct → Option (Owner × Option Effect)
  | .call c => match o.pc with
    | .idle => some ({ o with pc := entry c }, none)
    | _ => none
  | .step late => match o.pc with
    | .idle => none
    | .storeStopping =>
      some ({ o with stateCell := PipelineState.stopping.toU8, pc := .storeCommand .shutdown 0 }, none)
    | .storeCommand cmd k =>
      if k < stageCount then some ({ o with pc := .storeFlag cmd k }, some (.storeCommand k cmd))
      else some ({ o with pc := if cmd = .shutdown then .takeInput else .idle }, none)
    | .storeFlag cmd k => some ({ o with pc := .storeCommand cmd (k + 1) }, some (.storeFlag k cmd))
    | .takeInput => some ({ o with inputTx := false, pc := .idle }, some .dropInput)
    | .takeThread k =>
      if k < stageCount then
        if o.thread k then
          some ({ o with thread := Function.update o.thread k false, pc := .checkDeadline k }, none)
        else some ({ o with pc := .takeThread (k + 1) }, none)
      else some ({ o with pc := .storeStopped }, none)
    | .checkDeadline k =>
      if late then some ({ o with pc := .idle, joins := o.joins ++ [.error (timeoutError k)] }, none)
      else some ({ o with pc := .joinThread k }, none)
    | .joinThread k => match status k with
      | .running => none
      | .finished =>
        some ({ o with pc := .takeThread (k + 1), joined := Function.update o.joined k true }, none)
      | .panicked =>
        some ({ o with pc := .idle, joins := o.joins ++ [.error (panicError k)]
                       joined := Function.update o.joined k true }, none)
    | .storeStopped =>
      some ({ o with stateCell := PipelineState.stopped.toU8, pc := .idle, joins := o.joins ++ [.ok ()] },
        none)

/-- What one step of the owner can be. -/
inductive Step (status : ℕ → ThreadStatus) (o : Owner) : OwnerAct → Owner → Option Effect → Prop
  | call (c : OwnerCall) : o.pc = .idle → Step status o (.call c) { o with pc := entry c } none
  | storeStopping (late : Bool) : o.pc = .storeStopping →
      Step status o (.step late)
        { o with stateCell := PipelineState.stopping.toU8, pc := .storeCommand .shutdown 0 } none
  | storeCommand (late : Bool) (cmd : StageCommand) (k : ℕ) : o.pc = .storeCommand cmd k →
      k < stageCount →
      Step status o (.step late) { o with pc := .storeFlag cmd k } (some (.storeCommand k cmd))
  | signalled (late : Bool) (cmd : StageCommand) (k : ℕ) : o.pc = .storeCommand cmd k →
      ¬ k < stageCount →
      Step status o (.step late) { o with pc := if cmd = .shutdown then .takeInput else .idle } none
  | storeFlag (late : Bool) (cmd : StageCommand) (k : ℕ) : o.pc = .storeFlag cmd k →
      Step status o (.step late) { o with pc := .storeCommand cmd (k + 1) } (some (.storeFlag k cmd))
  | takeInput (late : Bool) : o.pc = .takeInput →
      Step status o (.step late) { o with inputTx := false, pc := .idle } (some .dropInput)
  | takeThread (late : Bool) (k : ℕ) : o.pc = .takeThread k → k < stageCount → o.thread k = true →
      Step status o (.step late)
        { o with thread := Function.update o.thread k false, pc := .checkDeadline k } none
  | noThread (late : Bool) (k : ℕ) : o.pc = .takeThread k → k < stageCount → o.thread k = false →
      Step status o (.step late) { o with pc := .takeThread (k + 1) } none
  | tookThreads (late : Bool) (k : ℕ) : o.pc = .takeThread k → ¬ k < stageCount →
      Step status o (.step late) { o with pc := .storeStopped } none
  | timeout (k : ℕ) : o.pc = .checkDeadline k →
      Step status o (.step true)
        { o with pc := .idle, joins := o.joins ++ [.error (timeoutError k)] } none
  | inTime (k : ℕ) : o.pc = .checkDeadline k →
      Step status o (.step false) { o with pc := .joinThread k } none
  | finished (late : Bool) (k : ℕ) : o.pc = .joinThread k → status k = .finished →
      Step status o (.step late)
        { o with pc := .takeThread (k + 1), joined := Function.update o.joined k true } none
  | panicked (late : Bool) (k : ℕ) : o.pc = .joinThread k → status k = .panicked →
      Step status o (.step late)
        { o with pc := .idle, joins := o.joins ++ [.error (panicError k)]
                 joined := Function.update o.joined k true } none
  | storeStopped (late : Bool) : o.pc = .storeStopped →
      Step status o (.step late)
        { o with stateCell := PipelineState.stopped.toU8, pc := .idle, joins := o.joins ++ [.ok ()] }
        none

/-- **The owner steps only so.** -/
theorem step_cases {status : ℕ → ThreadStatus} {o o' : Owner} {a : OwnerAct} {e : Option Effect}
    (h : o.step status a = some (o', e)) : Step status o a o' e := by
  revert h
  cases a with
  | call c =>
    simp only [step]
    cases hpc : o.pc <;> rintro ⟨⟩
    exact .call c hpc
  | step late =>
    simp only [step]
    cases hpc : o.pc with
    | idle =>
      intro hw
      cases hw
    | storeStopping =>
      intro hw
      cases hw
      exact .storeStopping late hpc
    | storeCommand cmd k =>
      by_cases hk : k < stageCount
      · simp only [hk, if_true]
        intro hw
        cases hw
        exact .storeCommand late cmd k hpc hk
      · simp only [hk, if_false]
        intro hw
        cases hw
        exact .signalled late cmd k hpc hk
    | storeFlag cmd k =>
      intro hw
      cases hw
      exact .storeFlag late cmd k hpc
    | takeInput =>
      intro hw
      cases hw
      exact .takeInput late hpc
    | takeThread k =>
      by_cases hk : k < stageCount
      · cases ht : o.thread k with
        | true =>
          simp only [hk, ht, if_true]
          intro hw
          cases hw
          exact .takeThread late k hpc hk ht
        | false =>
          simp only [hk, ht, if_true, Bool.false_eq_true, if_false]
          intro hw
          cases hw
          exact .noThread late k hpc hk ht
      · simp only [hk, if_false]
        intro hw
        cases hw
        exact .tookThreads late k hpc hk
    | checkDeadline k =>
      cases late with
      | true =>
        intro hw
        cases hw
        exact .timeout k hpc
      | false =>
        intro hw
        cases hw
        exact .inTime k hpc
    | joinThread k =>
      cases hst : status k with
      | running =>
        simp only [hst]
        intro hw
        cases hw
      | finished =>
        simp only [hst]
        intro hw
        cases hw
        exact .finished late k hpc hst
      | panicked =>
        simp only [hst]
        intro hw
        cases hw
        exact .panicked late k hpc hst
    | storeStopped =>
      intro hw
      cases hw
      exact .storeStopped late hpc

/-! ### What the owner keeps track of -/

/-- Whether the step is other than giving up a `join` because its deadline has passed. -/
def inTime (o : Owner) : OwnerAct → Bool
  | .step late => match o.pc with
    | .checkDeadline _ => !late
    | _ => true
  | _ => true

/-- Whether the step is other than calling `shutdown` on a pipeline that has stopped. -/
def notStopped (o : Owner) : OwnerAct → Bool
  | .call .shutdown => decide (o.state ≠ .stopped)
  | _ => true

/-- **No thread is lost sight of**: the owner has its handle, or has seen it end. -/
structure Held (status : ℕ → ThreadStatus) (o : Owner) : Prop where
  /-- A thread not joined has its handle in its slot, or in the hands of `join`. -/
  held : ∀ k < stageCount, o.thread k = true ∨ o.joined k = true ∨ o.pc.inHand = some k
  /-- A thread joined has ended. -/
  ended : ∀ k, o.joined k = true → status k ≠ .running
  /-- What `join` has passed, it has joined. -/
  passed : ∀ k < o.pc.reached, o.joined k = true
  /-- When `join` has returned `Ok`, all threads are joined. -/
  ok : .ok () ∈ o.joins → ∀ k < stageCount, o.joined k = true

section Held

variable {status status' : ℕ → ThreadStatus} {o o' : Owner} {a : OwnerAct} {e : Option Effect}

theorem held_built (status : ℕ → ThreadStatus) : Held status built where
  held k hk := .inl (decide_eq_true hk)
  ended := by rintro k ⟨⟩
  passed := by rintro k ⟨⟩
  ok := by rintro ⟨⟩

/-- Threads that end stay ended. -/
theorem Held.mono (h : Held status o) (hst : ∀ k, status k ≠ .running → status' k ≠ .running) :
    Held status' o :=
  ⟨h.held, fun k hk => hst k (h.ended k hk), h.passed, h.ok⟩

/-- A step that touches no handle. -/
theorem Held.of_eq (h : Held status o) (ht : o'.thread = o.thread) (hj : o'.joined = o.joined)
    (hr : o'.joins = o.joins) (hh : o'.pc.inHand = o.pc.inHand)
    (hp : ∀ k < o'.pc.reached, o.joined k = true) : Held status o' := by
  constructor
  · rw [ht, hj, hh]
    exact h.held
  · rw [hj]
    exact h.ended
  · rw [hj]
    exact hp
  · rw [hr, hj]
    exact h.ok

/-- `thread.join()` has returned for the thread in hand. -/
theorem Held.join (h : Held status o) {k : ℕ} (hpc : o.pc = .joinThread k)
    (hst : status k ≠ .running) (hj : o'.joined = Function.update o.joined k true)
    (ht : o'.thread = o.thread) (hr : .ok () ∈ o'.joins → .ok () ∈ o.joins)
    (hp : o'.pc.reached ≤ k + 1) : Held status o' := by
  have hkeep : ∀ i, o.joined i = true → o'.joined i = true := by
    intro i hi
    rw [hj]
    by_cases hik : i = k
    · subst hik
      exact Function.update_self _ _ _
    · rw [Function.update_of_ne hik]
      exact hi
  have hself : o'.joined k = true := by
    rw [hj]
    exact Function.update_self _ _ _
  constructor
  · intro i hi
    rcases h.held i hi with hi | hi | hi
    · exact .inl (ht ▸ hi)
    · exact .inr (.inl (hkeep i hi))
    · rw [hpc] at hi
      cases hi
      exact .inr (.inl hself)
  · intro i hi
    by_cases hik : i = k
    · subst hik
      exact hst
    · rw [hj, Function.update_of_ne hik] at hi
      exact h.ended i hi
  · intro i hi
    by_cases hik : i = k
    · subst hik
      exact hself
    · refine hkeep i (h.passed i ?_)
      rw [hpc]
      simp only [OwnerPc.reached]
      omega
  · intro hok i hi
    exact hkeep i (h.ok (hr hok) i hi)

/-- A step that gives up no thread loses sight of none. -/
theorem Held.step (h : Held status o) (hx : o.inTime a = true) (hs : Step status o a o' e) :
    Held status o' := by
  have hpassed := h.passed
  cases hs with
  | call c hpc =>
    refine h.of_eq rfl rfl rfl ?_ ?_
    · rw [hpc]
      cases c <;> rfl
    · cases c <;> exact fun k hk => absurd hk (Nat.not_lt_zero k)
  | storeStopping late hpc | storeCommand late cmd k hpc hk | storeFlag late cmd k hpc
    | takeInput late hpc =>
    exact h.of_eq rfl rfl rfl (by rw [hpc]; rfl) fun k hk => absurd hk (Nat.not_lt_zero k)
  | signalled late cmd k hpc hk =>
    refine h.of_eq rfl rfl rfl ?_ ?_
    · rw [hpc]
      by_cases hcmd : cmd = .shutdown <;> simp [hcmd, OwnerPc.inHand]
    · by_cases hcmd : cmd = .shutdown <;> simp [hcmd, OwnerPc.reached]
  | takeThread late k hpc hk ht =>
    rw [hpc] at hpassed
    refine ⟨?_, h.ended, hpassed, h.ok⟩
    intro i hi
    by_cases hik : i = k
    · subst hik
      exact .inr (.inr rfl)
    · rcases h.held i hi with hi | hi | hi
      · exact .inl (by simpa only [Function.update_of_ne hik] using hi)
      · exact .inr (.inl hi)
      · rw [hpc] at hi
        cases hi
  | noThread late k hpc hk ht =>
    rw [hpc] at hpassed
    refine h.of_eq rfl rfl rfl (by rw [hpc]; rfl) ?_
    intro i hi
    rcases Nat.lt_succ_iff_lt_or_eq.mp hi with hi | rfl
    · exact hpassed i hi
    · rcases h.held i hk with hi | hi | hi
      · rw [ht] at hi
        cases hi
      · exact hi
      · rw [hpc] at hi
        cases hi
  | tookThreads late k hpc hk =>
    rw [hpc] at hpassed
    exact h.of_eq rfl rfl rfl (by rw [hpc]; rfl) fun i hi =>
      hpassed i (Nat.lt_of_lt_of_le hi (Nat.le_of_not_lt hk))
  | timeout k hpc => simp [inTime, hpc] at hx
  | inTime k hpc =>
    rw [hpc] at hpassed
    exact h.of_eq rfl rfl rfl (by rw [hpc]; rfl) hpassed
  | finished late k hpc hst => exact h.join hpc (by simp [hst]) rfl rfl id (Nat.le_refl _)
  | panicked late k hpc hst =>
    refine h.join hpc (by simp [hst]) rfl rfl ?_ (Nat.zero_le _)
    intro hok
    simpa using hok
  | storeStopped late hpc =>
    rw [hpc] at hpassed
    refine ⟨?_, h.ended, fun i hi => absurd hi (Nat.not_lt_zero i), fun _ => hpassed⟩
    intro i hi
    exact .inr (.inl (hpassed i hi))

end Held

/-- What `state()` says, and what `join` has returned. -/
structure Tells (o : Owner) : Prop where
  stopped_iff : o.state = .stopped ↔ .ok () ∈ o.joins
  storeStopping : o.pc = .storeStopping → o.state ≠ .stopped

theorem tells_built : Tells built := ⟨by simp [state, built], by simp [built]⟩

theorem Tells.step {status : ℕ → ThreadStatus} {o o' : Owner} {a : OwnerAct} {e : Option Effect}
    (h : Tells o) (hx : o.notStopped a = true) (hs : Step status o a o' e) : Tells o' := by
  obtain ⟨hiff, hst⟩ := h
  cases hs with
  | call c hpc =>
    refine ⟨hiff, ?_⟩
    cases c with
    | shutdown => exact fun _ => of_decide_eq_true hx
    | _ =>
      intro hw
      cases hw
  | storeStopping late hpc =>
    refine ⟨?_, by simp⟩
    have hno : .ok () ∉ o.joins := fun hok => hst hpc (hiff.mpr hok)
    simp [state, hno]
  | storeStopped late hpc => exact ⟨by simp [state], by simp⟩
  | signalled late cmd k hpc hk =>
    refine ⟨hiff, ?_⟩
    by_cases hcmd : cmd = .shutdown <;> simp [hcmd]
  | timeout k hpc => exact ⟨by simpa [state] using hiff, by simp⟩
  | panicked late k hpc hs => exact ⟨by simpa [state] using hiff, by simp⟩
  | _ => exact ⟨hiff, by simp⟩

end Owner

/-! ### The owner and its threads -/

/-- A pipeline whose threads end when and as they please. -/
structure Lifecycle where
  /-- The owner. -/
  owner : Owner
  /-- The threads. -/
  status : ℕ → ThreadStatus

namespace Lifecycle

/-- What can happen next. -/
inductive Act where
  /-- The owner acts. -/
  | owner (a : OwnerAct)
  /-- A thread's function returns. -/
  | finish (k : ℕ)
  /-- A thread panics. -/
  | panic (k : ℕ)
  deriving DecidableEq

/-- One step. -/
def step (s : Lifecycle) : Act → Option Lifecycle
  | .owner a => (s.owner.step s.status a).map fun r => { s with owner := r.1 }
  | .finish k =>
    if s.status k = .running then some { s with status := Function.update s.status k .finished } else none
  | .panic k =>
    if s.status k = .running then some { s with status := Function.update s.status k .panicked } else none

/-- The machine. -/
def machine : Machine Lifecycle Act where
  init := (· = ⟨.built, fun _ => .running⟩)
  step := step

/-- A step is the owner's, or a thread ends. -/
theorem step_cases {s s' : Lifecycle} {a : Act} (h : s.step a = some s') :
    (∃ b o' e, a = .owner b ∧ Owner.Step s.status s.owner b o' e ∧ s' = { s with owner := o' }) ∨
    (∃ k st, st ≠ .running ∧ s' = { s with status := Function.update s.status k st }) := by
  cases a with
  | owner b =>
    obtain ⟨⟨o', e⟩, ho, rfl⟩ := Option.map_eq_some_iff.mp h
    exact .inl ⟨b, o', e, rfl, Owner.step_cases ho, rfl⟩
  | finish k =>
    simp only [step] at h
    split_ifs at h
    cases h
    exact .inr ⟨k, .finished, by decide, rfl⟩
  | panic k =>
    simp only [step] at h
    split_ifs at h
    cases h
    exact .inr ⟨k, .panicked, by decide, rfl⟩

/-- **The pipeline agrees with its threads.** -/
structure Agrees (s : Lifecycle) : Prop where
  /-- `join` returns `Ok` only when all threads have ended. -/
  ended : .ok () ∈ s.owner.joins → ∀ k < stageCount, s.status k ≠ .running
  /-- Between calls, the state is `Stopped` when some `join` has returned `Ok`. -/
  stopped_iff : s.owner.pc = .idle → (s.owner.state = .stopped ↔ .ok () ∈ s.owner.joins)
  /-- Between calls, a thread that has not been joined can be. -/
  joinable : s.owner.pc = .idle → ∀ k < stageCount, s.owner.thread k = true ∨ s.owner.joined k = true

/-- **What the pipeline needs of a step**: no `join` finds its deadline passed with a handle
in hand, and `shutdown` is not called once the pipeline has stopped. -/
def orderly (s : Lifecycle) : Act → Bool
  | .owner a => s.owner.inTime a && s.owner.notStopped a
  | _ => true

/-- `orderly`, as a condition on the steps of a run. -/
abbrev Orderly (s : Lifecycle) (a : Act) : Prop := orderly s a = true

/-- A step in which no deadline has passed. -/
abbrev InTime (s : Lifecycle) (a : Act) : Prop := ∀ b, a = .owner b → s.owner.inTime b = true

/-- Where no deadline passes, no thread is lost sight of. -/
theorem held_of_inTime {s : Lifecycle} (h : Machine.ReachBy machine InTime s) :
    s.owner.Held s.status := by
  refine h.invariant (I := fun s => s.owner.Held s.status) ?_ ?_
  · rintro s rfl
    exact Owner.held_built _
  · intro s a s' hi hx hs
    rcases step_cases hs with ⟨b, o', e, rfl, ho, rfl⟩ | ⟨k, st, hst, rfl⟩
    · exact hi.step (hx b rfl) ho
    · refine hi.mono ?_
      intro i hi
      change Function.update s.status k st i ≠ .running
      by_cases hik : i = k
      · subst hik
        rwa [Function.update_self]
      · rwa [Function.update_of_ne hik]

theorem tells_of_orderly {s : Lifecycle} (h : Machine.ReachBy machine Orderly s) : s.owner.Tells := by
  refine h.invariant (I := fun s => s.owner.Tells) ?_ ?_
  · rintro s rfl
    exact Owner.tells_built
  · intro s a s' hi hx hs
    rcases step_cases hs with ⟨b, o', e, rfl, ho, rfl⟩ | ⟨k, st, hst, rfl⟩
    · rw [Orderly, orderly, Bool.and_eq_true] at hx
      exact hi.step hx.2 ho
    · exact hi

/-- **When the pipeline agrees with its threads**: in every run in which no deadline passes and
`shutdown` is not called on a stopped pipeline. -/
theorem agrees_of_orderly {s : Lifecycle} (h : Machine.ReachBy machine Orderly s) : Agrees s := by
  have htells := tells_of_orderly h
  have hheld : s.owner.Held s.status := by
    refine held_of_inTime (h.mono ?_)
    rintro s a hx b rfl
    rw [Orderly, orderly, Bool.and_eq_true] at hx
    exact hx.1
  constructor
  · intro hok k hk
    exact hheld.ended k (hheld.ok hok k hk)
  · intro _
    exact htells.stopped_iff
  · intro hidle k hk
    rcases hheld.held k hk with ht | hj | hh
    · exact .inl ht
    · exact .inr hj
    · rw [hidle] at hh
      cases hh

/-- Whether the last `join` returned `Ok`. -/
def lastOk (s : Lifecycle) : Bool :=
  match s.owner.joins.getLast? with
  | some (.ok ()) => true
  | _ => false

theorem ok_mem_of_lastOk {s : Lifecycle} (h : s.lastOk = true) : .ok () ∈ s.owner.joins := by
  unfold lastOk at h
  split at h
  · exact List.mem_of_getLast? ‹_›
  · cases h

/-- A thread panics, the first `join` says so, and the second joins the others. -/
theorem agrees_of_orderly_panicked : ∃ s : Lifecycle, s.owner.joins.length = 2 ∧
    s.status 1 = .panicked ∧ s.owner.state = .stopped ∧ Agrees s := by
  obtain ⟨s, hs, hp⟩ := Machine.exists_reachBy_of_runBy (M := machine) (C := Orderly)
    (s := ⟨.built, fun _ => .running⟩) rfl
    (List.flatten [[.panic 1, .owner (.call .shutdown)], .replicate 11 (.owner (.step false)),
      [.finish 0, .finish 2, .finish 3, .owner (.call .join)], .replicate 6 (.owner (.step false)),
      [.owner (.call .join)], .replicate 10 (.owner (.step false))])
    (fun s => decide (s.owner.joins.length = 2 ∧ s.status 1 = .panicked ∧ s.owner.state = .stopped))
    (by decide)
  obtain ⟨hlen, hst, hstate⟩ := of_decide_eq_true hp
  exact ⟨s, hlen, hst, hstate, agrees_of_orderly hs⟩

/-- The deadline of the first `join` has passed when it has the handle of the first thread in
hand, and the handle is dropped. The second `join` finds none, joins the other three, and
returns `Ok(())`: the first thread is still running. -/
theorem not_forall_agrees : ¬ ∀ s : Lifecycle, machine.Reach s → Agrees s := by
  intro h
  obtain ⟨s, hs, hp⟩ := Machine.exists_reach_of_run (M := machine)
    (s := ⟨.built, fun _ => .running⟩) rfl
    (List.flatten [[.owner (.call .shutdown)], .replicate 11 (.owner (.step false)),
      [.owner (.call .join), .owner (.step false), .owner (.step true), .finish 1, .finish 2,
        .finish 3, .owner (.call .join)],
      .replicate 12 (.owner (.step false))])
    (fun s => s.lastOk && decide (s.status 0 = .running)) (by decide)
  rw [Bool.and_eq_true] at hp
  exact (h s hs).ended (ok_mem_of_lastOk hp.1) 0 (by decide) (of_decide_eq_true hp.2)

end Lifecycle

end SensorBridge.Pipeline
