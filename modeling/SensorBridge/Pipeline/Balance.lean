import SensorBridge.Pipeline.MultiStage
import SensorBridge.Pipeline.StageThread
import Mathlib.Algebra.BigOperators.Group.Finset.Basic

/-!
# The balance of a pipeline

Where the items of a `MultiStagePipeline` are. An item that was accepted is waiting in a channel, in
the hands of a worker, filtered, dropped, given back by `flush`'s send, lost in a channel whose
receiver has gone, or delivered as a result; and so is a value that a stage produced of its own, in
`tick` or `flush`. `balanced_of_reach` says so of every reachable state, whatever the commands and
whenever they come: stage by stage, channel by channel, and in all.

Nothing is lost in a channel as long as its worker has not returned. As long as a worker has not reset
its metrics, they are the numbers of the balance, apart from what is due.
-/

namespace SensorBridge.Channel.Chan

universe u

variable {α : Type u}

/-- How many messages went down with the receiver. -/
def lost (c : Chan α) : ℕ := c.sent.length - (c.received.length + c.queue.length)

/-- What was sent was received, or waits, or is lost. -/
theorem Fifo.length_sent {c : Chan α} (h : c.Fifo) :
    c.sent.length = c.received.length + c.queue.length + c.lost := by
  have hle := h.prefix_sent.length_le
  rw [List.length_append] at hle
  unfold lost
  omega

/-- Nothing is lost before. -/
theorem Fifo.lost_eq_zero {c : Chan α} (h : c.Fifo) (hr : c.receiver = true) : c.lost = 0 := by
  have hlen := congrArg List.length (h.eq_sent hr)
  rw [List.length_append] at hlen
  unfold lost
  omega

end SensorBridge.Channel.Chan

namespace SensorBridge.Pipeline

open Foundation Channel

universe u

namespace Worker

variable {ι ο : Type u} {S : Stage ι ο}

/-- How many events of a kind there have been. -/
def many {β : Type u} (w : Worker S) (kind : Event ι ο → Option β) : ℕ := (w.hist.filterMap kind).length

/-- What a worker has in hand. -/
def inHand (w : Worker S) : ℕ := w.pc.item.toList.length + w.pc.result.toList.length

/-- What a worker took did not get past it: filtered, dropped, given back, or in hand. -/
def kept (w : Worker S) : ℕ :=
  w.many Event.filtered? + w.many Event.dropped? + w.many Event.refused? + w.inHand

/-- **Nothing gets lost in a worker**: what it took, and what its stage produced, it put in the channel
or it did not get past it. -/
theorem Kept.balance {w : Worker S} (h : w.Kept) :
    w.many Event.took? + w.many Event.extra? = w.many Event.placed? + w.kept := by
  obtain ⟨htook, hout⟩ := h.flow
  have htook := congrArg List.length htook
  have hout := congrArg List.length hout
  have hitem := StageThread.length_item_add_extra w.hist
  have hhandled := (handled_perm w.hist).length_eq
  simp only [List.length_append] at htook hout hhandled
  simp only [many, kept, inHand]
  omega

/-- Until the metrics are reset, they count the worker's whole history. -/
theorem Kept.counts_hist {w : Worker S} (h : w.Kept) (hreset : .metricsReset ∉ w.hist) :
    Counts w.hist w.pc w.metrics := by
  have hsince : sinceReset ([] ++ w.hist) = w.hist := sinceReset_append hreset
  rw [List.nil_append] at hsince
  rw [← hsince]
  exact h.counts

end Worker

namespace Net

variable {T : ℕ → Type u} {S : ∀ i, Stage (T i) (T (i + 1))}

/-- What went into stage `i` and did not come out: in its channel, or kept by its worker. -/
def spent (s : Net S) (i : ℕ) : ℕ :=
  (s.chan i).queue.length + (s.chan i).lost + (s.worker i).kept

/-- **The balance of a pipeline.** -/
structure Balanced (s : Net S) : Prop where
  /-- What was put in the channel of a stage, and what the stage produced, was put in the next channel, or
  is spent. -/
  stage : ∀ i < stageCount, (s.chan i).sent.length + (s.worker i).many Event.extra? =
    (s.chan (i + 1)).sent.length + s.spent i
  /-- What was accepted, and what the stages produced, was delivered, or waits to be, or is spent. -/
  total : (s.chan 0).sent.length + ∑ i ∈ Finset.range stageCount, (s.worker i).many Event.extra? =
    (s.chan stageCount).received.length + (s.chan stageCount).queue.length + (s.chan stageCount).lost +
      ∑ i ∈ Finset.range stageCount, s.spent i
  /-- Nothing is lost on the way to a worker that has not returned. -/
  lost_eq_zero : ∀ i < stageCount, (s.worker i).pc.isReturned = false → (s.chan i).lost = 0
  /-- The metrics of a stage are the numbers of the balance, as long as they have not been reset. -/
  metrics : ∀ i < stageCount, .metricsReset ∉ (s.worker i).hist →
    (s.worker i).metrics.inputCount + (s.worker i).pc.owedInput = (s.chan i).received.length ∧
    (s.worker i).metrics.outputCount + (s.worker i).pc.owedOutput =
      (s.chan (i + 1)).sent.length + (s.worker i).many Event.refused? ∧
    (s.worker i).metrics.filteredCount + (s.worker i).pc.owedFiltered = (s.worker i).many Event.filtered? ∧
    (s.worker i).metrics.droppedCount + (s.worker i).pc.owedDropped = (s.worker i).many Event.dropped?

section

variable {s : Net S}

theorem Wired.length_received (h : Wired s) {i : ℕ} (hi : i < stageCount) :
    (s.chan i).received.length = (s.worker i).many Event.took? := congrArg List.length (h.reads i hi).took_eq

theorem Wired.length_sent (h : Wired s) {i : ℕ} (hi : i < stageCount) :
    (s.chan (i + 1)).sent.length = (s.worker i).many Event.placed? := congrArg List.length (h.writes i hi).placed_eq

theorem Wired.stage (h : Wired s) {i : ℕ} (hi : i < stageCount) :
    (s.chan i).sent.length + (s.worker i).many Event.extra? = (s.chan (i + 1)).sent.length + s.spent i := by
  have hchan := (h.fifo i).length_sent
  have hworker := (h.kept i).balance
  have hin := h.length_received hi
  have hout := h.length_sent hi
  unfold spent
  omega

/-- The stages so far. -/
theorem Wired.sum_stages (h : Wired s) {n : ℕ} (hn : n ≤ stageCount) :
    (s.chan 0).sent.length + ∑ i ∈ Finset.range n, (s.worker i).many Event.extra? =
      (s.chan n).sent.length + ∑ i ∈ Finset.range n, s.spent i := by
  induction n with
  | zero => rfl
  | succ n ih =>
    have hlast := h.stage (Nat.lt_of_succ_le hn)
    have hrest := ih (Nat.le_of_succ_le hn)
    rw [Finset.sum_range_succ, Finset.sum_range_succ]
    omega

theorem Wired.balanced (h : Wired s) : Balanced s where
  stage _ hi := h.stage hi
  total := by
    rw [h.sum_stages (Nat.le_refl _), (h.fifo stageCount).length_sent]
  lost_eq_zero i hi hret := by
    refine (h.fifo i).lost_eq_zero ?_
    rw [(h.reads i hi).receiver_eq, hret]
    rfl
  metrics i hi hreset := by
    obtain ⟨hinput, houtput, hdropped, hfiltered⟩ := (h.kept i).counts_hist hreset
    refine ⟨?_, ?_, hfiltered, hdropped⟩
    · rw [h.length_received hi]
      exact hinput
    · rw [h.length_sent hi]
      exact houtput

end

/-- **No item is unaccounted for**: of any four stages and any channel capacity, in every reachable
state of every interleaving of the workers with the sender, the receiver and the owner's commands. -/
theorem balanced_of_reach {s : Net S} (h : (machine S).Reach s) : Balanced s := (wired_of_reach h).balanced

/-- Four stages that keep the even numbers. -/
def evenStages : ℕ → Stage ℕ ℕ := fun _ => .filter fun x => x % 2 == 0

/-- Of three items one is filtered, one is in the hands of the second worker and one waits for it. -/
theorem balanced_of_reach_even : ∃ s : Net (T := fun _ => ℕ) evenStages, (s.chan 0).sent = [1, 2, 4] ∧
    (s.spent 0, s.spent 1) = (1, 2) ∧ (s.worker 1).inHand = 1 ∧ Balanced s := by
  obtain ⟨s, hs, hp⟩ := Machine.exists_reach_of_run (M := machine (T := fun _ => ℕ) evenStages)
    (s := build evenStages 3 false) ⟨3, false, rfl⟩
    (List.flatten [[.send 1, .send 2, .send 4], .replicate 28 (.worker 0), .replicate 6 (.worker 1)])
    (fun s => decide ((s.chan 0).sent = [1, 2, 4] ∧ (s.spent 0, s.spent 1) = (1, 2) ∧ (s.worker 1).inHand = 1))
    (by decide +kernel)
  obtain ⟨hsent, hspent, hhand⟩ := of_decide_eq_true hp
  exact ⟨s, hsent, hspent, hhand, balanced_of_reach hs⟩

end Net

end SensorBridge.Pipeline
