import SensorBridge.Buffer.Spsc
import SensorBridge.Pipeline.Runner

/-!
# A pipeline in a thread of its own

`spawn_pipeline` hands a `PipelineRunner` to a new thread, which polls until it is told to stop,
and returns a `PipelineHandle`. The thread that holds the producer pushes meanwhile: the pops of
the thread are the atomic steps of `Spsc`, and interleave with the pushes.

What the callback has been called with is what the stage outputs on the items taken so far, which
are the first of the items accepted (`faithful_of_reach`). The statistics count them, and `join`
returns the statistics. The shared counter is behind by less than a thousand while the thread runs,
and exact once it has returned.

`stop` is obeyed at the head of the loop: from then on the thread takes one more item at most, and
has returned after eight steps of its own, whatever the producer does (`prompt_of_reach`). What is
still in the buffer is left there, and the stage is not flushed. `join` only waits, and has taken
the handle: when nobody has called `stop` before, it never returns (`stuck_of_join`).

The stage and the callback do not panic.
-/

namespace SensorBridge.Pipeline

open Buffer Foundation Foundation.Transducer

universe u

/-- Where the thread of `spawn_pipeline` is: what it does next. -/
inductive LoopPc (ο : Type u) where
  /-- `while !stop_flag.load(Acquire)`. -/
  | loadStop
  /-- `runner.poll()`, which calls `consumer.pop()`. -/
  | poll
  /-- In `consumer.pop()`. -/
  | popping
  /-- `callback(output)`. -/
  | callback (output : ο)
  /-- `thread::yield_now()`. -/
  | yield
  /-- `if processed_count % 1000 == 0`, store it. -/
  | publish
  /-- The final update of the shared counter. -/
  | finalStore
  /-- The thread has returned the statistics. -/
  | returned
  deriving DecidableEq

namespace LoopPc

variable {ο : Type u}

/-- What is left to do with what `poll` has returned. -/
def ofPoll : Option ο → LoopPc ο
  | some output => callback output
  | none => yield

/-- The output that the callback has yet to be called with. -/
@[simp] def inHand : LoopPc ο → List ο
  | callback output => [output]
  | _ => []

/-- Whether the thread has seen the stop flag set. -/
@[simp] def hasLeft : LoopPc ο → Bool
  | finalStore | returned => true
  | _ => false

/-- Whether the thread may not have published a count that it should. -/
@[simp] def unpublished : LoopPc ο → Bool
  | callback _ | yield | publish => true
  | _ => false

/-- Whether the thread may take another item before it looks at the flag. -/
@[simp] def mayTake : LoopPc ο → ℕ
  | poll | popping => 1
  | _ => 0

/-- How many steps are left once the flag is set, with so many in a `pop` in progress. -/
@[simp] def stepsLeft (inPop : ℕ) : LoopPc ο → ℕ
  | poll => 8
  | popping => inPop + 4
  | callback _ | yield => 4
  | publish => 3
  | loadStop => 2
  | finalStore => 1
  | returned => 0

theorem inHand_ofPoll (output : Option ο) : (ofPoll output).inHand = output.toList := by
  cases output <;> rfl

theorem unpublished_ofPoll (output : Option ο) : (ofPoll output).unpublished = true := by
  cases output <;> rfl

theorem hasLeft_ofPoll (output : Option ο) : (ofPoll output).hasLeft = false := by
  cases output <;> rfl

theorem mayTake_ofPoll (output : Option ο) : (ofPoll output).mayTake = 0 := by
  cases output <;> rfl

theorem stepsLeft_ofPoll (inPop : ℕ) (output : Option ο) : (ofPoll output).stepsLeft inPop = 4 := by
  cases output <;> rfl

end LoopPc

/-- Where the owner of a `PipelineHandle` is. -/
inductive HandlePc where
  /-- The handle is held, and no call that takes it is in progress. -/
  | held
  /-- In `join`: waiting for the thread. -/
  | joining
  /-- In `join`: the handle is dropped, and calls `stop` first. Its thread is taken. -/
  | joined
  /-- In `drop`: `self.stop()`. -/
  | dropping
  /-- In `drop`: waiting for the thread. -/
  | dropJoining
  /-- There is no handle. -/
  | gone
  deriving DecidableEq

variable {ι ο : Type u}

/-- A pipeline thread, its buffer and its handle. -/
structure PipelineThread (S : Stage ι ο) where
  /-- The ring buffer, with the producer and the pop in progress. -/
  buffer : Spsc ι
  pc : LoopPc ο
  stage : S.State
  stats : PipelineStats
  stopFlag : Bool
  processedCount : UInt64
  handle : HandlePc
  /-- What `join` returned. -/
  joinResult : Option PipelineStats
  /-- What the consumer's pops had returned before the thread was spawned. -/
  before : List (Option ι)
  /-- What the thread's pops returned. -/
  polls : List (Option ι)
  /-- What the callback was called with. -/
  calls : List ο

namespace PipelineThread

variable {S : Stage ι ο} {N : ℕ}

/-- The items taken. -/
def taken (s : PipelineThread S) : List ι := s.polls.filterMap id

/-- `spawn_pipeline`. -/
def spawn (S : Stage ι ο) (buffer : Spsc ι) : PipelineThread S :=
  ⟨buffer, .loadStop, S.init, ⟨0, 0, 0, 0⟩, false, 0, .held, none, buffer.popResults, [], []⟩

/-- What can happen next. -/
inductive Act (ι : Type u) where
  /-- The producer calls `push(value)`. -/
  | push (value : ι)
  /-- The producer's next step. -/
  | producer
  /-- The thread's next step. -/
  | thread
  /-- `PipelineHandle::stop`. -/
  | stop
  /-- `PipelineHandle::join` is called. -/
  | join
  /-- The handle is dropped. -/
  | drop
  /-- The next step of the call that took the handle. -/
  | owner

/-- Whether the thread moves. -/
def Act.isThread {ι : Type u} : Act ι → Bool
  | .thread => true
  | _ => false

/-- `PipelineHandle::stop`. -/
def storeStop (s : PipelineThread S) : PipelineThread S := { s with stopFlag := true }

/-- The rest of `poll`, once `pop` has returned. -/
def polled (s : PipelineThread S) (buffer : Spsc ι) : Option ι → PipelineThread S
  | some item =>
    { s with buffer, stage := (S.process s.stage item).1, stats := s.stats.count (S.process s.stage item).2
             polls := s.polls ++ [some item], pc := .ofPoll (S.process s.stage item).2 }
  | none =>
    { s with buffer, stats := { s.stats with emptyPolls := s.stats.emptyPolls + 1 }
             polls := s.polls ++ [none], pc := .yield }

/-- What a step of the consumer returned, if it was the last of its `pop`. -/
def returnedBy (b b' : Spsc ι) : Option (Option ι) := (b'.popResults.drop b.popResults.length).head?

/-- The next step of the thread. -/
def threadStep (N : ℕ) (s : PipelineThread S) : Option (PipelineThread S) :=
  match s.pc with
  | .loadStop => some { s with pc := if s.stopFlag then .finalStore else .poll }
  | .poll => (s.buffer.step N .pop).map fun buffer => { s with buffer, pc := .popping }
  | .popping => (s.buffer.step N .consumer).map fun buffer =>
    match returnedBy s.buffer buffer with
    | none => { s with buffer }
    | some result => s.polled buffer result
  | .callback output => some { s with calls := s.calls ++ [output], pc := .publish }
  | .yield => some { s with pc := .publish }
  | .publish =>
    some { s with processedCount := if s.stats.processedCount % 1000 = 0 then s.stats.processedCount
                    else s.processedCount
                  pc := .loadStop }
  | .finalStore => some { s with processedCount := s.stats.processedCount, pc := .returned }
  | .returned => none

/-- The next step of `join` or `drop`. -/
def ownerStep (s : PipelineThread S) : Option (PipelineThread S) :=
  match s.handle, s.pc with
  | .joining, .returned => some { s with joinResult := some s.stats, handle := .joined }
  | .joined, _ => some { s.storeStop with handle := .gone }
  | .dropping, _ => some { s.storeStop with handle := .dropJoining }
  | .dropJoining, .returned => some { s with handle := .gone }
  | _, _ => none

/-- One step. -/
def step (N : ℕ) (s : PipelineThread S) : Act ι → Option (PipelineThread S)
  | .push value => (s.buffer.step N (.push value)).map fun buffer => { s with buffer }
  | .producer => (s.buffer.step N .producer).map fun buffer => { s with buffer }
  | .thread => s.threadStep N
  | .stop => if s.handle = .held then some s.storeStop else none
  | .join => if s.handle = .held then some { s with handle := .joining } else none
  | .drop => if s.handle = .held then some { s with handle := .dropping } else none
  | .owner => s.ownerStep

/-- The machine. The buffer may have been used before, by a consumer that is between calls. -/
def machine (N : ℕ) (S : Stage ι ο) : Machine (PipelineThread S) (Act ι) where
  init s := ∃ b, (Spsc.machine N ι).Reach b ∧ b.pop = .idle ∧ s = spawn S b
  step := step N

/-! ### Steps of the buffer -/

/-- The producer does not touch what the consumer has. -/
theorem pop_eq_of_producer {b b' : Spsc ι} {a : Spsc.Act ι} (hs : b.step N a = some b')
    (ha : a = .producer ∨ ∃ v, a = .push v) : b'.pop = b.pop ∧ b'.popResults = b.popResults := by
  cases Spsc.step_cases hs with
  | pop | empty | item | read | release => simp at ha
  | push | full | room | write | publish => exact ⟨rfl, rfl⟩

/-- Between the call and the return of a `pop`. -/
theorem popResults_of_pop {b b' : Spsc ι} (hs : b.step N .pop = some b') :
    b.pop = .idle ∧ b'.pop ≠ .idle ∧ b'.popResults = b.popResults := by
  cases Spsc.step_cases hs with
  | pop hp => exact ⟨hp, by simp, rfl⟩

/-- A step of a `pop` in progress returns, or the `pop` is still in progress. -/
theorem consumer_cases {b b' : Spsc ι} (hs : b.step N .consumer = some b') :
    (b'.pop ≠ .idle ∧ b'.popResults = b.popResults) ∨
      b'.pop = .idle ∧ ∃ result, b'.popResults = b.popResults ++ [result] := by
  cases Spsc.step_cases hs with
  | empty => exact .inr ⟨rfl, _, rfl⟩
  | release => exact .inr ⟨rfl, _, rfl⟩
  | item => exact .inl ⟨by simp, rfl⟩
  | read => exact .inl ⟨by simp, rfl⟩

theorem returnedBy_eq_none {b b' : Spsc ι} (h : b'.popResults = b.popResults) : returnedBy b b' = none := by
  simp [returnedBy, h]

theorem returnedBy_eq_some {b b' : Spsc ι} {result : Option ι} (h : b'.popResults = b.popResults ++ [result]) :
    returnedBy b b' = some result := by
  simp [returnedBy, h]

/-! ### Steps -/

/-- **What a step can be.** -/
inductive Step (N : ℕ) (s : PipelineThread S) : Act ι → PipelineThread S → Prop
  | push {v : ι} {b : Spsc ι} : s.buffer.step N (.push v) = some b → Step N s (.push v) { s with buffer := b }
  | producer {b : Spsc ι} : s.buffer.step N .producer = some b → Step N s .producer { s with buffer := b }
  | goOn : s.pc = .loadStop → s.stopFlag = false → Step N s .thread { s with pc := .poll }
  | leave : s.pc = .loadStop → s.stopFlag = true → Step N s .thread { s with pc := .finalStore }
  | poll {b : Spsc ι} : s.pc = .poll → s.buffer.step N .pop = some b →
      Step N s .thread { s with buffer := b, pc := .popping }
  | popping {b : Spsc ι} : s.pc = .popping → s.buffer.step N .consumer = some b → b.pop ≠ .idle →
      b.popResults = s.buffer.popResults → Step N s .thread { s with buffer := b, pc := .popping }
  | popped {b : Spsc ι} (result : Option ι) : s.pc = .popping → s.buffer.step N .consumer = some b →
      b.pop = .idle → b.popResults = s.buffer.popResults ++ [result] → Step N s .thread (s.polled b result)
  | callback {output : ο} : s.pc = .callback output →
      Step N s .thread { s with calls := s.calls ++ [output], pc := .publish }
  | yield : s.pc = .yield → Step N s .thread { s with pc := .publish }
  | store : s.pc = .publish → s.stats.processedCount % 1000 = 0 →
      Step N s .thread { s with processedCount := s.stats.processedCount, pc := .loadStop }
  | skip : s.pc = .publish → s.stats.processedCount % 1000 ≠ 0 → Step N s .thread { s with pc := .loadStop }
  | finalStore : s.pc = .finalStore →
      Step N s .thread { s with processedCount := s.stats.processedCount, pc := .returned }
  | stop : s.handle = .held → Step N s .stop s.storeStop
  | join : s.handle = .held → Step N s .join { s with handle := .joining }
  | drop : s.handle = .held → Step N s .drop { s with handle := .dropping }
  | joined : s.handle = .joining → s.pc = .returned →
      Step N s .owner { s with joinResult := some s.stats, handle := .joined }
  | stopJoined : s.handle = .joined → Step N s .owner { s.storeStop with handle := .gone }
  | stopDropped : s.handle = .dropping → Step N s .owner { s.storeStop with handle := .dropJoining }
  | dropped : s.handle = .dropJoining → s.pc = .returned → Step N s .owner { s with handle := .gone }

theorem threadStep_cases {s s' : PipelineThread S} (hs : s.threadStep N = some s') : Step N s .thread s' := by
  cases hpc : s.pc with
  | loadStop =>
    simp only [threadStep, hpc, Option.some.injEq] at hs
    subst hs
    split_ifs with hflag
    · exact .leave hpc hflag
    · exact .goOn hpc (Bool.eq_false_iff.2 hflag)
  | poll =>
    simp only [threadStep, hpc, Option.map_eq_some_iff] at hs
    obtain ⟨b, hb, rfl⟩ := hs
    exact .poll hpc hb
  | popping =>
    simp only [threadStep, hpc, Option.map_eq_some_iff] at hs
    obtain ⟨b, hb, rfl⟩ := hs
    rcases consumer_cases hb with ⟨hpop, hres⟩ | ⟨hpop, result, hres⟩
    · rw [returnedBy_eq_none hres]
      exact .popping hpc hb hpop hres
    · rw [returnedBy_eq_some hres]
      exact .popped result hpc hb hpop hres
  | callback output =>
    simp only [threadStep, hpc, Option.some.injEq] at hs
    subst hs
    exact .callback hpc
  | yield =>
    simp only [threadStep, hpc, Option.some.injEq] at hs
    subst hs
    exact .yield hpc
  | publish =>
    simp only [threadStep, hpc, Option.some.injEq] at hs
    subst hs
    split_ifs with hmod
    · exact .store hpc hmod
    · exact .skip hpc hmod
  | finalStore =>
    simp only [threadStep, hpc, Option.some.injEq] at hs
    subst hs
    exact .finalStore hpc
  | returned => simp [threadStep, hpc] at hs

theorem ownerStep_cases {s s' : PipelineThread S} (hs : s.ownerStep = some s') : Step N s .owner s' := by
  simp only [ownerStep] at hs
  split at hs
  · cases hs
    exact .joined ‹_› ‹_›
  · cases hs
    exact .stopJoined ‹_›
  · cases hs
    exact .stopDropped ‹_›
  · cases hs
    exact .dropped ‹_› ‹_›
  · cases hs

theorem step_cases {s s' : PipelineThread S} {a : Act ι} (hs : s.step N a = some s') : Step N s a s' := by
  cases a with
  | push v =>
    obtain ⟨b, hb, rfl⟩ := Option.map_eq_some_iff.mp hs
    exact .push hb
  | producer =>
    obtain ⟨b, hb, rfl⟩ := Option.map_eq_some_iff.mp hs
    exact .producer hb
  | thread => exact threadStep_cases hs
  | owner => exact ownerStep_cases hs
  | stop =>
    simp only [step] at hs
    split_ifs at hs with hheld
    cases hs
    exact .stop hheld
  | join =>
    simp only [step] at hs
    split_ifs at hs with hheld
    cases hs
    exact .join hheld
  | drop =>
    simp only [step] at hs
    split_ifs at hs with hheld
    cases hs
    exact .drop hheld

/-! ### What the thread has done -/

/-- The statistics after polls with these results. -/
def statsOf (S : Stage ι ο) (polls : List (Option ι)) : PipelineStats where
  processedCount := .ofNat (polls.filterMap id).length
  outputCount := .ofNat (S.outputs (polls.filterMap id)).length
  filteredCount := .ofNat ((polls.filterMap id).length - (S.outputs (polls.filterMap id)).length)
  emptyPolls := .ofNat (polls.countP Option.isNone)

theorem statsOf_none (polls : List (Option ι)) :
    statsOf S (polls ++ [none]) = { statsOf S polls with emptyPolls := (statsOf S polls).emptyPolls + 1 } := by
  simp [statsOf, UInt64.ofNat_add]

theorem statsOf_some (polls : List (Option ι)) (item : ι) :
    statsOf S (polls ++ [some item]) =
      (statsOf S polls).count (S.process (after S.process S.init (polls.filterMap id)) item).2 := by
  have hitems : (polls ++ [some item]).filterMap id = polls.filterMap id ++ [item] := by simp
  have hempty : (polls ++ [some item]).countP Option.isNone = polls.countP Option.isNone := by simp
  have hout : S.outputs (polls.filterMap id ++ [item]) = S.outputs (polls.filterMap id) ++
      (S.process (after S.process S.init (polls.filterMap id)) item).2.toList := emit_concat _ _ _ _
  have hle : (S.outputs (polls.filterMap id)).length ≤ (polls.filterMap id).length := length_emit_le _ _ _
  simp only [statsOf, hitems, hempty, hout, List.length_append, List.length_singleton]
  cases (S.process (after S.process S.init (polls.filterMap id)) item).2 with
  | none =>
    have hsub : (polls.filterMap id).length + 1 - (S.outputs (polls.filterMap id)).length =
        (polls.filterMap id).length - (S.outputs (polls.filterMap id)).length + 1 := by omega
    simp only [Option.toList_none, List.length_nil, Nat.add_zero, hsub]
    simp [PipelineStats.count, UInt64.ofNat_add]
  | some output => simp [PipelineStats.count, UInt64.ofNat_add]

/-- What the shared counter shows at the head of the loop: the number processed, rounded down. -/
def Rounded (cell processed : UInt64) : Prop := cell.toNat = processed.toNat / 1000 * 1000

/-- A counter that was right is right still, or it is time to store it. -/
theorem Rounded.succ {cell processed : UInt64} (h : Rounded cell processed) :
    (processed + 1) % 1000 = 0 ∨ Rounded cell (processed + 1) := by
  by_cases hmod : (processed + 1) % 1000 = 0
  · exact .inl hmod
  · right
    have hne : (processed + 1).toNat % 1000 ≠ 0 := by
      intro hz
      refine hmod (UInt64.toNat_inj.mp ?_)
      simpa using hz
    unfold Rounded at *
    rw [UInt64.toNat_add, UInt64.toNat_one] at hne ⊢
    -- a count that wraps is zero, and zero is stored
    rcases Nat.lt_or_ge (processed.toNat + 1) (2 ^ 64) with hno | hwrap
    · rw [Nat.mod_eq_of_lt hno] at hne ⊢
      rw [h, Nat.succ_div_of_not_dvd (fun hdvd => hne (Nat.mod_eq_zero_of_dvd hdvd))]
    · have hall : processed.toNat + 1 = 2 ^ 64 := Nat.le_antisymm processed.toNat_lt hwrap
      rw [hall, Nat.mod_self] at hne
      exact absurd rfl hne

theorem Rounded.of_mod {processed : UInt64} (h : processed % 1000 = 0) : Rounded processed processed := by
  have hz : processed.toNat % 1000 = 0 := by simpa using congrArg UInt64.toNat h
  unfold Rounded
  omega

/-- **The invariant.** -/
structure Inv (N : ℕ) (s : PipelineThread S) : Prop where
  /-- The buffer is used by one producer and one consumer. -/
  reach : (Spsc.machine N ι).Reach s.buffer
  results_eq : s.buffer.popResults = s.before ++ s.polls
  /-- A `pop` is in progress while the thread is in `poll`. -/
  popping : s.buffer.pop ≠ .idle ↔ s.pc = .popping
  stage_eq : s.stage = after S.process S.init s.taken
  stats_eq : s.stats = statsOf S s.polls
  calls_eq : s.calls ++ s.pc.inHand = S.outputs s.taken
  /-- The shared counter, from the store to the next `poll`. -/
  published : s.pc.unpublished = false → s.pc ≠ .returned → Rounded s.processedCount s.stats.processedCount
  /-- The shared counter, from a `poll` to the store. -/
  unpublished : s.pc.unpublished = true →
    s.stats.processedCount % 1000 = 0 ∨ Rounded s.processedCount s.stats.processedCount
  final : s.pc = .returned → s.processedCount = s.stats.processedCount
  left : s.pc.hasLeft = true → s.stopFlag = true
  joined : ∀ st, s.joinResult = some st → s.pc = .returned ∧ st = s.stats

theorem Inv.spawn {b : Spsc ι} (hb : (Spsc.machine N ι).Reach b) (hpop : b.pop = .idle) :
    Inv N (spawn S b) where
  reach := hb
  results_eq := (List.append_nil _).symm
  popping := by simp [PipelineThread.spawn, hpop]
  stage_eq := rfl
  stats_eq := rfl
  calls_eq := rfl
  published _ _ := by simp [Rounded, PipelineThread.spawn]
  unpublished := by rintro ⟨⟩
  final := by rintro ⟨⟩
  left := by rintro ⟨⟩
  joined := by rintro _ ⟨⟩

section InvSteps

variable {s s' : PipelineThread S}

/-- A step of the producer. -/
theorem Inv.producer (h : Inv N s) {a : Spsc.Act ι} {b : Spsc ι} (hb : s.buffer.step N a = some b)
    (ha : a = .producer ∨ ∃ v, a = .push v) : Inv N { s with buffer := b } := by
  obtain ⟨hpop, hres⟩ := pop_eq_of_producer hb ha
  exact { h with
    reach := h.reach.next trivial hb
    results_eq := hres.trans h.results_eq
    popping := by rw [← h.popping, hpop] }

/-- What `pop` returns goes through the stage. -/
theorem Inv.popped (h : Inv N s) {b : Spsc ι} {result : Option ι} (hpc : s.pc = .popping)
    (hb : s.buffer.step N .consumer = some b) (hpop : b.pop = .idle)
    (hres : b.popResults = s.buffer.popResults ++ [result]) : Inv N (s.polled b result) := by
  have hreach : (Spsc.machine N ι).Reach b := h.reach.next (a := .consumer) trivial hb
  have hresults : b.popResults = s.before ++ (s.polls ++ [result]) := by
    rw [hres, h.results_eq, List.append_assoc]
  have hround := h.published (by rw [hpc]; rfl) (by rw [hpc]; simp)
  have hcalls := h.calls_eq
  simp only [hpc, LoopPc.inHand, List.append_nil] at hcalls
  have hjoin : ∀ st, s.joinResult = some st → False := fun st hst => by
    have := (h.joined st hst).1
    rw [hpc] at this
    cases this
  cases result with
  | none =>
    refine ⟨hreach, hresults, ?_, ?_, ?_, ?_, ?_, ?_, ?_, ?_, fun st hst => (hjoin st hst).elim⟩
    · simp [polled, hpop]
    · simpa [polled, taken] using h.stage_eq
    · simp [polled, statsOf_none, h.stats_eq]
    · simpa [polled, taken] using hcalls
    · rintro ⟨⟩
    · exact fun _ => .inr hround
    · rintro ⟨⟩
    · rintro ⟨⟩
  | some item =>
    refine ⟨hreach, hresults, ?_, ?_, ?_, ?_, ?_, ?_, ?_, ?_, fun st hst => (hjoin st hst).elim⟩
    · simp only [polled, hpop]
      cases (S.process s.stage item).2 <;> simp [LoopPc.ofPoll]
    · show (S.process s.stage item).1 = after S.process S.init ((s.polls ++ [some item]).filterMap id)
      rw [List.filterMap_append, h.stage_eq]
      exact (after_concat S.process _ _ _).symm
    · show s.stats.count (S.process s.stage item).2 = statsOf S (s.polls ++ [some item])
      rw [statsOf_some, ← taken, ← h.stage_eq, h.stats_eq]
    · show s.calls ++ (LoopPc.ofPoll (S.process s.stage item).2).inHand =
        S.outputs ((s.polls ++ [some item]).filterMap id)
      rw [LoopPc.inHand_ofPoll, hcalls, List.filterMap_append, h.stage_eq]
      exact (emit_concat S.process _ _ _).symm
    · intro hpub
      rw [show (s.polled b (some item)).pc = .ofPoll (S.process s.stage item).2 from rfl,
        LoopPc.unpublished_ofPoll] at hpub
      cases hpub
    · intro _
      have hcount : (s.polled b (some item)).stats.processedCount = s.stats.processedCount + 1 := by
        show (s.stats.count _).processedCount = _
        cases (S.process s.stage item).2 <;> rfl
      rw [hcount]
      exact hround.succ
    · intro hret
      have hleft := LoopPc.hasLeft_ofPoll (S.process s.stage item).2
      rw [show LoopPc.ofPoll _ = LoopPc.returned from hret] at hleft
      cases hleft
    · intro hleft
      rw [show (s.polled b (some item)).pc = .ofPoll (S.process s.stage item).2 from rfl,
        LoopPc.hasLeft_ofPoll] at hleft
      cases hleft

/-- A step of the thread that leaves the buffer alone and gives up no output. -/
theorem Inv.move (h : Inv N s) {pc : LoopPc ο} {cell : UInt64} (hin : pc.inHand = s.pc.inHand)
    (hpop : s.pc ≠ .popping) (hpop' : pc ≠ .popping) (hret : s.pc ≠ .returned)
    (hpub : pc.unpublished = false → pc ≠ .returned → Rounded cell s.stats.processedCount)
    (hun : pc.unpublished = true → s.stats.processedCount % 1000 = 0 ∨ Rounded cell s.stats.processedCount)
    (hfinal : pc = .returned → cell = s.stats.processedCount)
    (hleft : pc.hasLeft = true → s.stopFlag = true) :
    Inv N { s with pc := pc, processedCount := cell } where
  reach := h.reach
  results_eq := h.results_eq
  popping := iff_of_false (fun hne => hpop (h.popping.1 hne)) hpop'
  stage_eq := h.stage_eq
  stats_eq := h.stats_eq
  calls_eq := by
    show s.calls ++ pc.inHand = S.outputs s.taken
    rw [hin, h.calls_eq]
  published := hpub
  unpublished := hun
  final := hfinal
  left := hleft
  joined st hst := absurd (h.joined st hst).1 hret

/-- A step of the owner. -/
theorem Inv.owner (h : Inv N s) {flag : Bool} (hflag : s.stopFlag = true → flag = true) (handle : HandlePc) :
    Inv N { s with stopFlag := flag, handle := handle } :=
  ⟨h.reach, h.results_eq, h.popping, h.stage_eq, h.stats_eq, h.calls_eq, h.published, h.unpublished, h.final,
    fun hl => hflag (h.left hl), h.joined⟩

/-- Every step keeps the invariant. -/
theorem Inv.step (h : Inv N s) {a : Act ι} (hs : s.step N a = some s') : Inv N s' := by
  cases step_cases hs with
  | push hb => exact h.producer hb (.inr ⟨_, rfl⟩)
  | producer hb => exact h.producer hb (.inl rfl)
  | goOn hpc hflag =>
    have hround := h.published (by simp [hpc]) (by simp [hpc])
    exact h.move (by simp [hpc]) (by simp [hpc]) (by simp) (by simp [hpc]) (fun _ _ => hround) (by simp) (by simp)
      (by simp)
  | leave hpc hflag =>
    have hround := h.published (by simp [hpc]) (by simp [hpc])
    exact h.move (by simp [hpc]) (by simp [hpc]) (by simp) (by simp [hpc]) (fun _ _ => hround) (by simp) (by simp)
      (fun _ => hflag)
  | poll hpc hb =>
    obtain ⟨-, hpop, hres⟩ := popResults_of_pop hb
    have hround := h.published (by simp [hpc]) (by simp [hpc])
    exact ⟨h.reach.next (a := .pop) trivial hb, hres.trans h.results_eq, iff_of_true hpop rfl, h.stage_eq, h.stats_eq,
      by simpa [hpc, taken] using h.calls_eq, fun _ _ => hround, by simp, by simp, by simp,
      fun st hst => by simpa [hpc] using (h.joined st hst).1⟩
  | popping hpc hb hpop hres =>
    have hround := h.published (by simp [hpc]) (by simp [hpc])
    exact ⟨h.reach.next (a := .consumer) trivial hb, hres.trans h.results_eq, iff_of_true hpop rfl, h.stage_eq,
      h.stats_eq, by simpa [hpc, taken] using h.calls_eq, fun _ _ => hround, by simp, by simp, by simp,
      fun st hst => by simpa [hpc] using (h.joined st hst).1⟩
  | popped result hpc hb hpop hres => exact h.popped hpc hb hpop hres
  | callback hpc =>
    have hround := h.unpublished (by simp [hpc])
    refine ⟨h.reach, h.results_eq, iff_of_false (fun hne => ?_) (by simp), h.stage_eq, h.stats_eq, ?_, by simp,
      fun _ => hround, by simp, by simp, fun st hst => by simpa [hpc] using (h.joined st hst).1⟩
    · simpa [hpc] using h.popping.1 hne
    · simpa [hpc, taken] using h.calls_eq
  | yield hpc =>
    have hround := h.unpublished (by simp [hpc])
    exact h.move (by simp [hpc]) (by simp [hpc]) (by simp) (by simp [hpc]) (by simp) (fun _ => hround) (by simp)
      (by simp)
  | store hpc hmod =>
    exact h.move (by simp [hpc]) (by simp [hpc]) (by simp) (by simp [hpc]) (fun _ _ => .of_mod hmod) (by simp)
      (by simp) (by simp)
  | skip hpc hmod =>
    have hround := (h.unpublished (by simp [hpc])).resolve_left hmod
    exact h.move (by simp [hpc]) (by simp [hpc]) (by simp) (by simp [hpc]) (fun _ _ => hround) (by simp)
      (by simp) (by simp)
  | finalStore hpc =>
    have hstop := h.left (by simp [hpc])
    exact h.move (by simp [hpc]) (by simp [hpc]) (by simp) (by simp [hpc]) (by simp) (by simp) (fun _ => rfl)
      (fun _ => hstop)
  | stop => exact h.owner (fun _ => rfl) _
  | join | drop | dropped => exact h.owner id _
  | stopJoined | stopDropped => exact h.owner (fun _ => rfl) _
  | joined hhandle hpc =>
    have hall : Inv N { s with stopFlag := s.stopFlag, handle := .joined } := h.owner id .joined
    exact { hall with joined := fun st hst => ⟨hpc, (Option.some.inj hst).symm⟩ }

end InvSteps

theorem inv_of_reach {s : PipelineThread S} (h : (machine N S).Reach s) : Inv N s := by
  refine h.invariant ?_ fun s a s' hi _ hs => hi.step hs
  rintro _ ⟨b, hb, hpop, rfl⟩
  exact .spawn hb hpop

/-! ### Faithful -/

/-- **What a pipeline thread shows for what it has been given.** -/
structure Faithful (s : PipelineThread S) : Prop where
  /-- The items taken are the next of those accepted, in order, after those popped before. -/
  taken_isPrefix : s.before.filterMap id ++ s.taken <+: s.buffer.accepted
  /-- The callback is called with what the stage outputs on them, in order, once each. -/
  calls_eq : s.calls ++ s.pc.inHand = S.outputs s.taken
  /-- The statistics count the items, the outputs, the other items and the empty polls. -/
  stats_eq : s.stats = statsOf S s.polls
  /-- At the head of the loop the shared counter is the count rounded down to thousands. -/
  counter_head : s.pc = .loadStop → s.processedCount.toNat = s.stats.processedCount.toNat / 1000 * 1000
  /-- Once the thread has returned, which it does when told to stop, the counter is exact and
  no output is missing. -/
  returned : s.pc = .returned →
    s.stopFlag = true ∧ s.processedCount = s.stats.processedCount ∧ s.calls = S.outputs s.taken
  /-- `join` returns when the thread has, and what the thread has. -/
  joined : ∀ st, s.joinResult = some st → s.pc = .returned ∧ st = statsOf S s.polls

/-- **The thread of `spawn_pipeline` runs its stage on what is pushed**: in every reachable state of
every interleaving with the producer and with the owner of the handle. -/
theorem faithful_of_reach (hN : AssertPowerOfTwo N) {s : PipelineThread S} (h : (machine N S).Reach s) :
    Faithful s := by
  have hi := inv_of_reach h
  refine ⟨?_, hi.calls_eq, hi.stats_eq, ?_, ?_, ?_⟩
  · obtain ⟨vs, hb⟩ := Spsc.inv_of_reach hN hi.reach
    have hpopped : s.buffer.popped = s.before.filterMap id ++ s.taken := by
      rw [Spsc.popped, hi.results_eq, List.filterMap_append]
      rfl
    rw [← hpopped, hb.accepted_eq]
    exact List.prefix_append _ _
  · intro hpc
    exact hi.published (by rw [hpc]; rfl) (by rw [hpc]; simp)
  · intro hpc
    have hcalls := hi.calls_eq
    simp only [hpc, LoopPc.inHand, List.append_nil] at hcalls
    exact ⟨hi.left (by rw [hpc]; rfl), hi.final hpc, hcalls⟩
  · intro st hst
    obtain ⟨hpc, rfl⟩ := hi.joined st hst
    exact ⟨hpc, hi.stats_eq⟩

section Example

/-- A stage that lets even numbers through. -/
def evens : Stage ℕ ℕ := Stage.filter fun x => x % 2 == 0

/-- The producer pushes a value, from its call to its return. -/
def pushing (value : ℕ) : List (Act ℕ) := [.push value, .producer, .producer, .producer]

theorem faithful_of_reach_joined : ∃ s : PipelineThread evens, s.taken = [4, 5] ∧ s.buffer.accepted = [4, 5, 6] ∧
    s.joinResult.isSome = true ∧ Faithful s := by
  obtain ⟨s, hs, hp⟩ := Machine.exists_reach_of_run (M := machine 4 evens) (s := spawn evens .new)
    ⟨.new, .start rfl, rfl, rfl⟩
    (List.flatten [pushing 4, List.replicate 9 .thread, pushing 5, [.push 6, .stop], List.replicate 7 .thread,
      [.producer, .producer, .producer, .join, .owner, .owner]])
    (fun s => decide (s.taken = [4, 5] ∧ s.buffer.accepted = [4, 5, 6] ∧ s.joinResult.isSome = true)) (by decide)
  obtain ⟨htaken, haccepted, hjoin⟩ := of_decide_eq_true hp
  exact ⟨s, htaken, haccepted, hjoin, faithful_of_reach (by decide) hs⟩

end Example

/-! ### Stopping -/

/-- How many steps a `pop` has left, at most. -/
def popSteps : PopPc ι → ℕ
  | .idle => 0
  | .loadedTail _ => 3
  | .checked _ => 2
  | .taken _ _ => 1

theorem popSteps_lt {b b' : Spsc ι} (hs : b.step N .consumer = some b') : popSteps b'.pop < popSteps b.pop := by
  cases Spsc.step_cases hs with
  | empty hp | item hp | read hp | release hp => simp [popSteps, hp]

theorem popSteps_of_pop {b b' : Spsc ι} (hs : b.step N .pop = some b') : popSteps b'.pop = 3 := by
  cases Spsc.step_cases hs with
  | pop hp => rfl

/-- How many steps the thread has left, at most, once the flag is set. -/
def stepsLeft (s : PipelineThread S) : ℕ := s.pc.stepsLeft (popSteps s.buffer.pop)

theorem stepsLeft_le (s : PipelineThread S) : s.stepsLeft ≤ 8 := by
  have hpop : popSteps s.buffer.pop ≤ 3 := by cases s.buffer.pop <;> simp [popSteps]
  unfold stepsLeft
  cases s.pc <;> simp
  omega

theorem stepsLeft_eq_zero {s : PipelineThread S} (h : s.stepsLeft = 0) : s.pc = .returned := by
  unfold stepsLeft at h
  cases hpc : s.pc <;> simp [hpc] at h
  rfl

section Polled

variable (s : PipelineThread S) (b : Spsc ι) (result : Option ι)

theorem stepsLeft_polled : (s.polled b result).stepsLeft = 4 := by
  cases result with
  | none => rfl
  | some item => exact LoopPc.stepsLeft_ofPoll _ _

theorem mayTake_polled : (s.polled b result).pc.mayTake = 0 := by
  cases result with
  | none => rfl
  | some item => exact LoopPc.mayTake_ofPoll _

theorem length_taken_polled : (s.polled b result).taken.length ≤ s.taken.length + 1 := by
  cases result with
  | none => simp [polled, taken]
  | some item => simp [polled, taken]

end Polled

/-- A `pop` in progress is never stuck: what it is about to read is there. -/
theorem isSome_consumer (hN : AssertPowerOfTwo N) {b : Spsc ι} (h : (Spsc.machine N ι).Reach b)
    (hpop : b.pop ≠ .idle) : (b.step N .consumer).isSome = true := by
  obtain ⟨vs, hi⟩ := Spsc.inv_of_reach hN h
  simp only [Spsc.step, Spsc.consumerStep]
  cases hp : b.pop with
  | idle => exact absurd hp hpop
  | loadedTail t => simp only []; split_ifs <;> rfl
  | checked t =>
    obtain ⟨v, hv, -⟩ := (hi.correct hN).read_ok t hp
    simp [hv]
  | taken t v => rfl

/-- The thread is never stuck before it has returned. -/
theorem isSome_threadStep (hN : AssertPowerOfTwo N) {s : PipelineThread S} (h : Inv N s) (hpc : s.pc ≠ .returned) :
    (s.threadStep N).isSome = true := by
  cases hp : s.pc with
  | returned => exact absurd hp hpc
  | poll =>
    have hidle : s.buffer.pop = .idle := by
      by_contra hne
      rw [h.popping.1 hne] at hp
      cases hp
    simp [threadStep, hp, Spsc.step, hidle]
  | popping =>
    have hsome := isSome_consumer hN h.reach (h.popping.2 hp)
    simpa [threadStep, hp] using hsome
  | _ => simp [threadStep, hp]

section Stopping

variable {s s' : PipelineThread S}

/-- **Once the flag is set** it stays set, every step of the thread brings it nearer to its end, and it
takes no item except in the iteration it is in. -/
theorem step_stopped {a : Act ι} (hs : s.step N a = some s') (hstop : s.stopFlag = true) :
    s'.stopFlag = true ∧ s'.stepsLeft + (if a.isThread then 1 else 0) ≤ s.stepsLeft ∧
      s'.taken.length + s'.pc.mayTake ≤ s.taken.length + s.pc.mayTake := by
  cases step_cases hs with
  | push hb =>
    obtain ⟨hpop, -⟩ := pop_eq_of_producer hb (.inr ⟨_, rfl⟩)
    exact ⟨hstop, by simp [stepsLeft, hpop, Act.isThread], Nat.le_refl _⟩
  | producer hb =>
    obtain ⟨hpop, -⟩ := pop_eq_of_producer hb (.inl rfl)
    exact ⟨hstop, by simp [stepsLeft, hpop, Act.isThread], Nat.le_refl _⟩
  | goOn hpc hflag =>
    rw [hflag] at hstop
    cases hstop
  | leave hpc hflag => exact ⟨hstop, by simp [stepsLeft, hpc, Act.isThread], by simp [hpc, taken]⟩
  | poll hpc hb =>
    have hpop := popSteps_of_pop hb
    exact ⟨hstop, by simp [stepsLeft, hpc, hpop, Act.isThread], by simp [hpc, taken]⟩
  | popping hpc hb hpop hres =>
    have hlt := popSteps_lt hb
    exact ⟨hstop, by simp only [stepsLeft, hpc, LoopPc.stepsLeft, Act.isThread, if_true]; omega, by simp [hpc, taken]⟩
  | @popped b result hpc hb hpop hres =>
    have hlt := popSteps_lt hb
    have hlen := length_taken_polled s b result
    refine ⟨by cases result <;> exact hstop, ?_, ?_⟩
    · rw [stepsLeft_polled]
      simp only [stepsLeft, hpc, LoopPc.stepsLeft, Act.isThread, if_true]
      omega
    · rw [mayTake_polled, hpc]
      exact hlen
  | callback hpc | yield hpc | store hpc | skip hpc | finalStore hpc =>
    exact ⟨hstop, by simp [stepsLeft, hpc, Act.isThread], by simp [hpc, taken]⟩
  | stop | stopJoined | stopDropped => exact ⟨rfl, Nat.le_refl _, Nat.le_refl _⟩
  | join | drop | joined | dropped => exact ⟨hstop, Nat.le_refl _, Nat.le_refl _⟩

theorem run_stopped {as : List (Act ι)} (hrun : (machine N S).run s as = some s') (hstop : s.stopFlag = true) :
    s'.stopFlag = true ∧ s'.stepsLeft + as.countP Act.isThread ≤ s.stepsLeft ∧
      s'.taken.length + s'.pc.mayTake ≤ s.taken.length + s.pc.mayTake := by
  induction as generalizing s with
  | nil =>
    cases hrun
    exact ⟨hstop, Nat.le_refl _, Nat.le_refl _⟩
  | cons a as ih =>
    obtain ⟨u, hu, hrun⟩ := Option.bind_eq_some_iff.mp hrun
    obtain ⟨hflag, hleft, htaken⟩ := step_stopped hu hstop
    obtain ⟨hflag', hleft', htaken'⟩ := ih hrun hflag
    refine ⟨hflag', ?_, Nat.le_trans htaken' htaken⟩
    rw [List.countP_cons]
    omega

end Stopping

/-- **`stop` is prompt**: from any reachable state in which the flag is set, whatever the producer and
the owner do, the thread takes at most eight more steps and one more item; it is never stuck; and after
eight steps it has returned. -/
theorem prompt_of_reach (hN : AssertPowerOfTwo N) {s s' : PipelineThread S} (h : (machine N S).Reach s)
    (hstop : s.stopFlag = true) (as : List (Act ι)) (hrun : (machine N S).run s as = some s') :
    as.countP Act.isThread ≤ 8 ∧ s'.taken.length ≤ s.taken.length + 1 ∧
      (s'.pc = .returned ∨ ((machine N S).step s' .thread).isSome = true) ∧
      (as.countP Act.isThread = 8 → s'.pc = .returned) := by
  obtain ⟨-, hleft, htaken⟩ := run_stopped hrun hstop
  have hle := s.stepsLeft_le
  have hmay : s.pc.mayTake ≤ 1 := by cases s.pc <;> simp
  refine ⟨by omega, by omega, ?_, fun hall => stepsLeft_eq_zero (by omega)⟩
  by_cases hpc : s'.pc = .returned
  · exact .inl hpc
  · exact .inr (isSome_threadStep hN (inv_of_reach (Machine.reach_of_run h hrun)) hpc)

/-- Eight steps are taken when the thread is told to stop just before it polls, and finds an item. -/
theorem prompt_of_reach_eight : ∃ s s' : PipelineThread evens, s.stopFlag = true ∧ s.taken = [] ∧
    s'.taken = [4] ∧ s'.pc = .returned := by
  obtain ⟨s, hs, hp⟩ := Machine.exists_reach_of_run (M := machine 4 evens) (s := spawn evens .new)
    ⟨.new, .start rfl, rfl, rfl⟩ (List.flatten [pushing 4, pushing 5, [.thread, .stop]])
    (fun s => s.stopFlag && decide (s.taken = []) &&
      ((machine 4 evens).run s (List.replicate 8 .thread)).any fun s' : PipelineThread evens =>
        decide (s'.taken = [4])) (by decide)
  simp only [Bool.and_eq_true, Option.any_eq_true] at hp
  obtain ⟨⟨hstop, htaken⟩, s', hrun, htaken'⟩ := hp
  obtain ⟨-, -, -, hret⟩ := prompt_of_reach (by decide) hs hstop _ hrun
  exact ⟨s, s', hstop, of_decide_eq_true htaken, of_decide_eq_true htaken', hret rfl⟩

/-! ### A join without a stop -/

/-- The owner waits for a thread that nobody can tell to stop. -/
structure Stuck (s : PipelineThread S) : Prop where
  joining : s.handle = .joining
  flag : s.stopFlag = false
  inLoop : s.pc.hasLeft = false

theorem Stuck.step {s s' : PipelineThread S} {a : Act ι} (h : Stuck s) (hs : s.step N a = some s') : Stuck s' := by
  obtain ⟨hjoining, hflag, hloop⟩ := h
  cases step_cases hs with
  | push | producer => exact ⟨hjoining, hflag, hloop⟩
  | goOn | poll | popping | callback | yield | store | skip => exact ⟨hjoining, hflag, rfl⟩
  | leave hpc hset =>
    rw [hflag] at hset
    cases hset
  | popped result => cases result with
    | none => exact ⟨hjoining, hflag, rfl⟩
    | some item => exact ⟨hjoining, hflag, LoopPc.hasLeft_ofPoll _⟩
  | finalStore hpc | joined _ hpc | dropped _ hpc => simp [hpc] at hloop
  | stop hheld | join hheld | drop hheld => simp [hjoining] at hheld
  | stopJoined hh | stopDropped hh => simp [hjoining] at hh

/-- **`join` does not stop the thread, it waits for it**: when `join` is called and nobody has called
`stop`, which takes the handle `join` has consumed, the thread goes on for ever and `join` never
returns, in any run. -/
theorem stuck_of_join {s s' s'' : PipelineThread S} (h : (machine N S).Reach s) (hflag : s.stopFlag = false)
    (hjoin : (machine N S).step s .join = some s') (hs : (machine N S).Steps s' s'') :
    s''.handle = .joining ∧ s''.joinResult = none ∧ s''.pc ≠ .returned ∧ (machine N S).step s'' .owner = none := by
  have hi := inv_of_reach h
  have hloop : s.pc.hasLeft = false := by
    by_contra hleft
    rw [Bool.not_eq_false] at hleft
    rw [hi.left hleft] at hflag
    cases hflag
  have hstart : Stuck s' := by
    cases step_cases (N := N) (a := .join) hjoin with
    | join => exact ⟨rfl, hflag, hloop⟩
  have hinv : Inv N s'' :=
    Machine.StepsBy.keeps (P := Inv N) (fun _ _ _ hi _ hs => hi.step hs) hs (hi.step (a := .join) hjoin)
  have hstuck : Stuck s'' := Machine.StepsBy.keeps (P := Stuck) (fun _ _ _ hi _ hs => hi.step hs) hs hstart
  have hret : s''.pc ≠ .returned := fun hpc => by simpa [hpc] using hstuck.inLoop
  refine ⟨hstuck.joining, ?_, hret, ?_⟩
  · rcases hres : s''.joinResult with _ | st
    · rfl
    · exact absurd (hinv.joined st hres).1 hret
  · show s''.ownerStep = none
    unfold ownerStep
    rw [hstuck.joining]
    cases hpc : s''.pc <;> first | rfl | exact absurd hpc hret

/-- The owner joins at once: the thread takes what is pushed, and looks for more. -/
theorem stuck_of_join_pushed : ∃ s : PipelineThread evens,
    s.calls = [4] ∧ s.handle = .joining ∧ s.joinResult = none := by
  obtain ⟨s, hs, hp⟩ := Machine.exists_reach_of_run (M := machine 4 evens) (s := spawn evens .new)
    ⟨.new, .start rfl, rfl, rfl⟩ [.thread]
    (fun s => !s.stopFlag && ((machine 4 evens).step s .join).any fun s' : PipelineThread evens =>
      ((machine 4 evens).run s' (List.flatten [pushing 4, List.replicate 12 .thread])).any
        fun s'' : PipelineThread evens => decide (s''.calls = [4])) (by decide)
  simp only [Bool.and_eq_true, Bool.not_eq_true', Option.any_eq_true] at hp
  obtain ⟨hflag, s', hjoin, s'', hrun, hcalls⟩ := hp
  obtain ⟨hhandle, hnone, -, -⟩ := stuck_of_join hs hflag hjoin (Machine.steps_of_run hrun)
  exact ⟨s'', of_decide_eq_true hcalls, hhandle, hnone⟩

end PipelineThread

end SensorBridge.Pipeline
