import SensorBridge.Buffer.Sequential
import SensorBridge.Stage.Traits

/-!
# A pipeline in the consumer's thread

A `PipelineRunner` has the consumer of a ring buffer, a stage and statistics. `poll` takes one item
through the stage and returns what comes out; `drain` does so with all items there are, in a loop
of its own, and hands the outputs to a callback.

While nobody pushes the two do the same: `drain` is as many polls as there are items
(`drain_eq_polls`). A poll that finds an item counts it as processed, and as output or as filtered
(`poll_cons`, `Balanced.poll`).

The counters of the statistics are `u64` and wrap.
-/

namespace SensorBridge.Pipeline

open Buffer Foundation.Transducer

universe u

/-- `PipelineStats`. -/
structure PipelineStats where
  processedCount : UInt64
  outputCount : UInt64
  filteredCount : UInt64
  /-- How often the buffer was empty. -/
  emptyPolls : UInt64

/-- An item has come through the stage. -/
def PipelineStats.count {ο : Type u} (stats : PipelineStats) : Option ο → PipelineStats
  | some _ => { stats with processedCount := stats.processedCount + 1, outputCount := stats.outputCount + 1 }
  | none => { stats with processedCount := stats.processedCount + 1, filteredCount := stats.filteredCount + 1 }

variable {ι ο : Type u}

/-- `PipelineRunner`. The consumer is the ring buffer that it pops. -/
structure PipelineRunner (S : Stage ι ο) where
  consumer : RingBuffer ι
  stage : S.State
  stats : PipelineStats

namespace PipelineRunner

variable {S : Stage ι ο} {N : ℕ}

/-- `poll`. -/
def poll (N : ℕ) (r : PipelineRunner S) : PipelineRunner S × Option ο :=
  match r.consumer.popInternal N with
  | (consumer, some item) =>
    let stats := { r.stats with processedCount := r.stats.processedCount + 1 }
    match S.process r.stage item with
    | (stage, some output) => (⟨consumer, stage, { stats with outputCount := stats.outputCount + 1 }⟩, some output)
    | (stage, none) => (⟨consumer, stage, { stats with filteredCount := stats.filteredCount + 1 }⟩, none)
  | (consumer, none) =>
    (⟨consumer, r.stage, { r.stats with emptyPolls := r.stats.emptyPolls + 1 }⟩, none)

/-- The loop of `drain`, for less than so many items: what the callback is called with, and the
count. -/
def drainLoop (N : ℕ) : ℕ → PipelineRunner S → ℕ → Option (PipelineRunner S × List ο × ℕ)
  | 0, _, _ => none
  | n + 1, r, count =>
    match r.consumer.popInternal N with
    | (consumer, some item) =>
      let stats := { r.stats with processedCount := r.stats.processedCount + 1 }
      match S.process r.stage item with
      | (stage, some output) =>
        (drainLoop N n ⟨consumer, stage, { stats with outputCount := stats.outputCount + 1 }⟩ (count + 1)).map
          fun (r, outputs, count) => (r, output :: outputs, count)
      | (stage, none) =>
        drainLoop N n ⟨consumer, stage, { stats with filteredCount := stats.filteredCount + 1 }⟩ (count + 1)
    | (consumer, none) => some ({ r with consumer }, [], count)

/-- `drain`, for less than so many items. -/
def drain (N n : ℕ) (r : PipelineRunner S) : Option (PipelineRunner S × List ο × ℕ) := r.drainLoop N n 0

/-! ### One item -/

section
variable {r : PipelineRunner S} {q : List (Cell ι)} {c : Cell ι}

/-- A poll that finds an item. -/
theorem poll_cons (hN : AssertPowerOfTwo N) (h : RingBuffer.Represents N r.consumer (c :: q)) :
    r.poll N = (⟨(r.consumer.popInternal N).1, (S.process r.stage c.val).1,
      r.stats.count (S.process r.stage c.val).2⟩, (S.process r.stage c.val).2) := by
  have hitem := (h.popInternal_cons hN).2
  rcases hpop : r.consumer.popInternal N with ⟨consumer, item⟩
  rw [hpop] at hitem
  obtain rfl : item = some c.val := hitem
  simp only [poll, hpop]
  rcases S.process r.stage c.val with ⟨stage, _ | output⟩
  · rfl
  · rfl

/-- The loop goes on from where a poll has come to, with what that has returned. -/
theorem drainLoop_cons (hN : AssertPowerOfTwo N) (h : RingBuffer.Represents N r.consumer (c :: q)) (n count : ℕ) :
    r.drainLoop N (n + 1) count = ((r.poll N).1.drainLoop N n (count + 1)).map
      fun (r', outputs, count) => (r', (r.poll N).2.toList ++ outputs, count) := by
  have hitem := (h.popInternal_cons hN).2
  rw [poll_cons hN h]
  rcases hpop : r.consumer.popInternal N with ⟨consumer, item⟩
  rw [hpop] at hitem
  obtain rfl : item = some c.val := hitem
  simp only [drainLoop, hpop]
  rcases S.process r.stage c.val with ⟨stage, _ | output⟩
  · exact Option.map_id'.symm
  · rfl

theorem drainLoop_nil (h : RingBuffer.Represents N r.consumer []) (n count : ℕ) :
    r.drainLoop N (n + 1) count = some (r, [], count) := by
  rw [drainLoop, h.popInternal_nil]

/-- Every item that was processed was output or filtered. -/
def Balanced (stats : PipelineStats) : Prop := stats.processedCount = stats.outputCount + stats.filteredCount

theorem Balanced.count {stats : PipelineStats} (h : Balanced stats) (output : Option ο) :
    Balanced (stats.count output) := by
  unfold Balanced at *
  cases output with
  | none =>
    show stats.processedCount + 1 = stats.outputCount + (stats.filteredCount + 1)
    rw [h, UInt64.add_assoc]
  | some output =>
    show stats.processedCount + 1 = stats.outputCount + 1 + stats.filteredCount
    rw [h, UInt64.add_assoc, UInt64.add_assoc, UInt64.add_comm stats.filteredCount]

theorem represents_poll (hN : AssertPowerOfTwo N) (h : RingBuffer.Represents N r.consumer (c :: q)) :
    RingBuffer.Represents N (r.poll N).1.consumer q := by
  rw [poll_cons hN h]
  exact (h.popInternal_cons hN).1

end

/-! ### All items -/

/-- A poll, as the answer to a call without arguments. -/
def answer (N : ℕ) (r : PipelineRunner S) (_ : Unit) : PipelineRunner S × Option ο := r.poll N

section
variable {r : PipelineRunner S} {q : List (Cell ι)}

theorem drainLoop_eq_polls (hN : AssertPowerOfTwo N) (h : RingBuffer.Represents N r.consumer q) {n : ℕ}
    (hn : q.length < n) (count : ℕ) :
    r.drainLoop N n count =
      some (after (answer N) r (List.replicate q.length ()), emit (answer N) r (List.replicate q.length ()),
        count + q.length) := by
  obtain ⟨n, rfl⟩ := Nat.exists_eq_add_one_of_ne_zero (Nat.ne_of_gt (Nat.lt_of_le_of_lt (Nat.zero_le _) hn))
  induction q generalizing r n count with
  | nil => exact drainLoop_nil h n count
  | cons c q ih =>
    obtain ⟨n, rfl⟩ := Nat.exists_eq_add_one_of_ne_zero
      (Nat.ne_of_gt (Nat.lt_of_le_of_lt (Nat.zero_le _) (Nat.lt_of_succ_lt_succ hn)))
    have hcount : count + 1 + q.length = count + (q.length + 1) := by omega
    rw [drainLoop_cons hN h, ih (represents_poll hN h) (count + 1) n (Nat.lt_of_succ_lt_succ hn), List.length_cons,
      List.replicate_succ, emit_cons, ← hcount]
    rfl

/-- While there are items no poll finds the buffer empty, and the statistics stay balanced. -/
theorem stats_polls (hN : AssertPowerOfTwo N) (h : RingBuffer.Represents N r.consumer q) :
    (after (answer N) r (List.replicate q.length ())).stats.emptyPolls = r.stats.emptyPolls ∧
      (Balanced r.stats → Balanced (after (answer N) r (List.replicate q.length ())).stats) := by
  induction q generalizing r with
  | nil => exact ⟨rfl, id⟩
  | cons c q ih =>
    have hpoll : (r.poll N).1.stats = r.stats.count (S.process r.stage c.val).2 := by rw [poll_cons hN h]
    obtain ⟨hempty, hbalanced⟩ := ih (represents_poll hN h)
    refine ⟨hempty.trans ?_, fun hstats => hbalanced ?_⟩
    · rw [hpoll]
      cases (S.process r.stage c.val).2 with
      | none | some _ => rfl
    · rw [hpoll]
      exact hstats.count _

end

/-- **Draining is polling once for each item**: the loop of `drain` ends, having called back with
what so many polls return, in order, and counted the items; it leaves the stage and the statistics
as the polls do. No poll was empty, and what was balanced still is. -/
theorem drain_eq_polls (hN : AssertPowerOfTwo N) (r : PipelineRunner S) (q : List (Cell ι))
    (h : RingBuffer.Represents N r.consumer q) (n : ℕ) (hn : q.length < n) :
    r.drain N n = some (after (answer N) r (List.replicate q.length ()),
        emit (answer N) r (List.replicate q.length ()), q.length) ∧
      (after (answer N) r (List.replicate q.length ())).stats.emptyPolls = r.stats.emptyPolls ∧
      (Balanced r.stats → Balanced (after (answer N) r (List.replicate q.length ())).stats) := by
  have hdrain := drainLoop_eq_polls hN h hn 0
  rw [Nat.zero_add] at hdrain
  exact ⟨hdrain, stats_polls hN h⟩

/-- A runner whose filter lets two of the three items through, with counters about to wrap. -/
def filtering : PipelineRunner (Stage.filter fun x : ℕ => x % 2 == 0) :=
  ⟨(((RingBuffer.new.pushInternal 4 2 0).1.pushInternal 4 5 1).1.pushInternal 4 8 2).1, PUnit.unit,
    ⟨18446744073709551615, 18446744073709551614, 1, 7⟩⟩

theorem drain_eq_polls_filtering :
    filtering.drain 4 4 = some (after (answer 4) filtering (List.replicate 3 ()),
        emit (answer 4) filtering (List.replicate 3 ()), 3) ∧
      (after (answer 4) filtering (List.replicate 3 ())).stats.emptyPolls = filtering.stats.emptyPolls ∧
      (Balanced filtering.stats → Balanced (after (answer 4) filtering (List.replicate 3 ())).stats) :=
  drain_eq_polls (by decide) filtering [⟨2, 0, false⟩, ⟨5, 1, false⟩, ⟨8, 2, false⟩]
    ⟨by decide, by decide, by decide⟩ 4 (by decide)

end PipelineRunner

end SensorBridge.Pipeline
