import SensorBridge.Foundation.Machine
import SensorBridge.Foundation.Threads
import Mathlib.Data.Int.Notation
import Mathlib.Order.Basic

/-!
# Channel metrics

A channel made by `bounded(capacity)` carries a `ChannelMetrics`, which its senders and
receivers update one cell at a time, after the queue operation: a send counts itself, then adds
to the depth, then raises the maximum; a receive counts itself, then takes from the depth,
stopping at zero. Any number of calls may be between two of these steps. The queue itself is
crossbeam's and taken to be what it is documented to be: a linearizable first-in first-out
queue of at most `capacity` values, a channel without places handing each value over.

What the cells lack of the truth is owed by the calls in progress (`Inv`), so with none in
progress the metrics are right (`accurate_of_orderly`), as long as the depth is never taken
from zero nor raised above the capacity and no queued value is thrown away with the last
receiver. None of it is ensured: a receiver that is faster than its sender takes from zero,
nothing is taken then, and the depth is one too many for ever (`not_forall_accurate`).
-/

namespace SensorBridge.Channel

open Foundation

universe u

/-! ### The metrics -/

/-- Metrics for a single channel. -/
structure ChannelMetrics where
  /-- Total items sent through the channel. -/
  sent : ℕ
  /-- Total items received from the channel. -/
  received : ℕ
  /-- Items dropped due to backpressure. -/
  dropped : ℕ
  /-- Current approximate queue depth. -/
  currentDepth : ℕ
  /-- Maximum observed queue depth. -/
  maxDepth : ℕ
  /-- Channel capacity. -/
  capacity : ℕ
  deriving DecidableEq

namespace ChannelMetrics

/-- `ChannelMetrics::new`. -/
def new (capacity : ℕ) : ChannelMetrics := ⟨0, 0, 0, 0, 0, capacity⟩

/-- `sent.fetch_add(1)`. -/
def addSent (m : ChannelMetrics) : ChannelMetrics := { m with sent := m.sent + 1 }

/-- `current_depth.fetch_add(1)`. -/
def addDepth (m : ChannelMetrics) : ChannelMetrics := { m with currentDepth := m.currentDepth + 1 }

/-- `received.fetch_add(1)`. -/
def addReceived (m : ChannelMetrics) : ChannelMetrics := { m with received := m.received + 1 }

/-- The `fetch_update` of `current_depth` with `d.saturating_sub(1)`. -/
def subDepth (m : ChannelMetrics) : ChannelMetrics := { m with currentDepth := m.currentDepth - 1 }

/-- `record_drop`. -/
def recordDrop (m : ChannelMetrics) : ChannelMetrics := { m with dropped := m.dropped + 1 }

/-- `record_send`, with nothing in between. -/
def recordSend (m : ChannelMetrics) : ChannelMetrics :=
  { m.addSent.addDepth with maxDepth := max m.maxDepth (m.currentDepth + 1) }

/-- `record_receive`, with nothing in between. -/
def recordReceive (m : ChannelMetrics) : ChannelMetrics := m.addReceived.subDepth

end ChannelMetrics

/-! ### Calls -/

/-- Where a call of `send`, `try_send` or `send_timeout` is: what it does next. -/
inductive SendPc (α : Type u) where
  /-- The queue operation. -/
  | sending (value : α)
  /-- `sent.fetch_add(1)`. -/
  | addSent
  /-- `current_depth.fetch_add(1)`. -/
  | addDepth
  /-- `max_depth.load()`. -/
  | loadMax (newDepth : ℕ)
  /-- The exchange of `max_depth`, which was less than the new depth. -/
  | casMax (newDepth max : ℕ)
  /-- `record_drop`. -/
  | recordDrop
  /-- It has returned. -/
  | returned
  deriving DecidableEq

/-- Where a call of `recv`, `try_recv`, `recv_timeout` or `recv_deadline` is. -/
inductive RecvPc where
  /-- The queue operation. -/
  | receiving
  /-- `received.fetch_add(1)`. -/
  | addReceived
  /-- The `fetch_update` of `current_depth`. -/
  | subDepth
  /-- It has returned. -/
  | returned
  deriving DecidableEq

namespace SendPc

variable {α : Type u}

/-- The test of the loop: is the new depth more than the maximum? -/
def tryMax (newDepth max : ℕ) : SendPc α := if max < newDepth then .casMax newDepth max else .returned

/-- What the call owes to `sent`. -/
@[simp] def owesSent : SendPc α → ℕ
  | .addSent => 1
  | _ => 0

/-- What the call owes to `current_depth`. -/
@[simp] def owesDepth : SendPc α → ℕ
  | .addSent | .addDepth => 1
  | _ => 0

/-- Whether the call has returned. -/
@[simp] def done : SendPc α → Bool
  | .returned => true
  | _ => false

/-- The depth it is about to make the maximum. -/
@[simp] def newDepth : SendPc α → ℕ
  | .loadMax n | .casMax n _ => n
  | _ => 0

@[simp] theorem owesSent_tryMax (n m : ℕ) : (tryMax n m : SendPc α).owesSent = 0 := by
  unfold tryMax
  split_ifs <;> rfl

@[simp] theorem owesDepth_tryMax (n m : ℕ) : (tryMax n m : SendPc α).owesDepth = 0 := by
  unfold tryMax
  split_ifs <;> rfl

theorem eq_returned_of_done {pc : SendPc α} (h : pc.done = true) : pc = .returned := by
  cases pc <;> first | rfl | cases h

theorem newDepth_tryMax_le (n m : ℕ) : (tryMax n m : SendPc α).newDepth ≤ n := by
  unfold tryMax
  split_ifs
  · exact Nat.le_refl n
  · exact Nat.zero_le n

end SendPc

namespace RecvPc

/-- What the call owes to `received`. -/
@[simp] def owesReceived : RecvPc → ℕ
  | .addReceived => 1
  | _ => 0

/-- What the call owes to `current_depth`, downwards. -/
@[simp] def owesDepth : RecvPc → ℕ
  | .addReceived | .subDepth => 1
  | _ => 0

/-- Whether the call has returned. -/
@[simp] def done : RecvPc → Bool
  | .returned => true
  | _ => false

theorem eq_returned_of_done {pc : RecvPc} (h : pc.done = true) : pc = .returned := by
  cases pc <;> first | rfl | cases h

end RecvPc

/-! ### A channel in use -/

/-- A channel with its metrics, and the calls made so far. -/
structure Metered (α : Type u) where
  metrics : ChannelMetrics
  /-- The queued values, oldest first. -/
  queue : List α
  /-- Whether a `Sender` is alive. -/
  senders : Bool
  /-- Whether a `Receiver` is alive. -/
  receivers : Bool
  /-- The calls of the senders, in the order in which they began. -/
  sends : List (SendPc α)
  /-- The calls of the receivers. -/
  recvs : List RecvPc

namespace Metered

variable {α : Type u}

/-- What can happen next. -/
inductive Act (α : Type u) where
  /-- A sender calls. -/
  | callSend (value : α)
  /-- A receiver calls. -/
  | callRecv
  /-- Send `i` puts its value into the queue. -/
  | push (i : ℕ)
  /-- Send `i` finds the channel full, and returns or has waited long enough. -/
  | full (i : ℕ)
  /-- Send `i` finds the receivers gone. -/
  | refuse (i : ℕ)
  /-- Receive `j` takes the oldest value. -/
  | pop (j : ℕ)
  /-- Receive `j` finds the queue empty and gives up. -/
  | giveUp (j : ℕ)
  /-- A channel without places: send `i` hands its value to receive `j`. -/
  | handOver (i j : ℕ)
  /-- Send `i` takes its next step on the metrics. -/
  | sendStep (i : ℕ)
  /-- The exchange of send `i` fails: the maximum has changed, or for no reason. -/
  | casFails (i : ℕ)
  /-- Receive `j` takes its next step on the metrics. -/
  | recvStep (j : ℕ)
  /-- The last `Sender` is dropped. -/
  | dropSenders
  /-- The last `Receiver` is dropped, and with it what is queued. -/
  | dropReceivers

/-- A new channel. -/
def bounded (capacity : ℕ) : Metered α := ⟨.new capacity, [], true, true, [], []⟩

/-- Send `i` goes on to `pc`. -/
def setSend (s : Metered α) (i : ℕ) (pc : SendPc α) : Metered α := { s with sends := s.sends.set i pc }

/-- Receive `j` goes on to `pc`. -/
def setRecv (s : Metered α) (j : ℕ) (pc : RecvPc) : Metered α := { s with recvs := s.recvs.set j pc }

@[simp] theorem metrics_setSend (s : Metered α) (i : ℕ) (pc : SendPc α) :
    (s.setSend i pc).metrics = s.metrics := rfl

@[simp] theorem queue_setSend (s : Metered α) (i : ℕ) (pc : SendPc α) :
    (s.setSend i pc).queue = s.queue := rfl

@[simp] theorem metrics_setRecv (s : Metered α) (j : ℕ) (pc : RecvPc) :
    (s.setRecv j pc).metrics = s.metrics := rfl

@[simp] theorem queue_setRecv (s : Metered α) (j : ℕ) (pc : RecvPc) :
    (s.setRecv j pc).queue = s.queue := rfl

/-- **What a step can be.** -/
inductive Step (s : Metered α) : Act α → Metered α → Prop where
  | callSend (value : α) : s.senders = true →
      Step s (.callSend value) { s with sends := s.sends ++ [.sending value] }
  | callRecv : s.receivers = true → Step s .callRecv { s with recvs := s.recvs ++ [.receiving] }
  | push {i : ℕ} {value : α} : s.sends[i]? = some (.sending value) → s.receivers = true →
      s.queue.length < s.metrics.capacity →
      Step s (.push i) { s.setSend i .addSent with queue := s.queue ++ [value] }
  | full {i : ℕ} {value : α} : s.sends[i]? = some (.sending value) → s.receivers = true →
      s.metrics.capacity ≤ s.queue.length → Step s (.full i) (s.setSend i .recordDrop)
  | refuse {i : ℕ} {value : α} : s.sends[i]? = some (.sending value) → s.receivers = false →
      Step s (.refuse i) (s.setSend i .returned)
  | pop {j : ℕ} {value : α} {queue : List α} : s.recvs[j]? = some .receiving → s.queue = value :: queue →
      Step s (.pop j) { s.setRecv j .addReceived with queue }
  | giveUp {j : ℕ} : s.recvs[j]? = some .receiving → s.queue = [] →
      Step s (.giveUp j) (s.setRecv j .returned)
  | handOver {i j : ℕ} {value : α} : s.sends[i]? = some (.sending value) → s.recvs[j]? = some .receiving →
      s.metrics.capacity = 0 → Step s (.handOver i j) ((s.setSend i .addSent).setRecv j .addReceived)
  | addSent {i : ℕ} : s.sends[i]? = some .addSent →
      Step s (.sendStep i) { s.setSend i .addDepth with metrics := s.metrics.addSent }
  | addDepth {i : ℕ} : s.sends[i]? = some .addDepth →
      Step s (.sendStep i)
        { s.setSend i (.loadMax (s.metrics.currentDepth + 1)) with metrics := s.metrics.addDepth }
  | loadMax {i n : ℕ} : s.sends[i]? = some (.loadMax n) →
      Step s (.sendStep i) (s.setSend i (.tryMax n s.metrics.maxDepth))
  | casMax {i n max : ℕ} : s.sends[i]? = some (.casMax n max) → s.metrics.maxDepth = max →
      Step s (.sendStep i) { s.setSend i .returned with metrics.maxDepth := n }
  | recordDrop {i : ℕ} : s.sends[i]? = some .recordDrop →
      Step s (.sendStep i) { s.setSend i .returned with metrics := s.metrics.recordDrop }
  | casFails {i n max : ℕ} : s.sends[i]? = some (.casMax n max) →
      Step s (.casFails i) (s.setSend i (.tryMax n s.metrics.maxDepth))
  | addReceived {j : ℕ} : s.recvs[j]? = some .addReceived →
      Step s (.recvStep j) { s.setRecv j .subDepth with metrics := s.metrics.addReceived }
  | subDepth {j : ℕ} : s.recvs[j]? = some .subDepth →
      Step s (.recvStep j) { s.setRecv j .returned with metrics := s.metrics.subDepth }
  | dropSenders : s.sends.all SendPc.done = true → Step s .dropSenders { s with senders := false }
  | dropReceivers : s.recvs.all RecvPc.done = true →
      Step s .dropReceivers { s with receivers := false, queue := [] }

/-- One step. -/
def step (s : Metered α) : Act α → Option (Metered α)
  | .callSend value =>
    if s.senders = true then some { s with sends := s.sends ++ [.sending value] } else none
  | .callRecv => if s.receivers = true then some { s with recvs := s.recvs ++ [.receiving] } else none
  | .push i => match s.sends[i]? with
    | some (.sending value) =>
      if s.receivers = true ∧ s.queue.length < s.metrics.capacity then
        some { s.setSend i .addSent with queue := s.queue ++ [value] }
      else none
    | _ => none
  | .full i => match s.sends[i]? with
    | some (.sending _) =>
      if s.receivers = true ∧ s.metrics.capacity ≤ s.queue.length then some (s.setSend i .recordDrop)
      else none
    | _ => none
  | .refuse i => match s.sends[i]? with
    | some (.sending _) => if s.receivers = false then some (s.setSend i .returned) else none
    | _ => none
  | .pop j => match s.recvs[j]?, s.queue with
    | some .receiving, _ :: queue => some { s.setRecv j .addReceived with queue }
    | _, _ => none
  | .giveUp j => match s.recvs[j]?, s.queue with
    | some .receiving, [] => some (s.setRecv j .returned)
    | _, _ => none
  | .handOver i j => match s.sends[i]?, s.recvs[j]? with
    | some (.sending _), some .receiving =>
      if s.metrics.capacity = 0 then some ((s.setSend i .addSent).setRecv j .addReceived) else none
    | _, _ => none
  | .sendStep i => match s.sends[i]? with
    | some .addSent => some { s.setSend i .addDepth with metrics := s.metrics.addSent }
    | some .addDepth =>
      some { s.setSend i (.loadMax (s.metrics.currentDepth + 1)) with metrics := s.metrics.addDepth }
    | some (.loadMax n) => some (s.setSend i (.tryMax n s.metrics.maxDepth))
    | some (.casMax n max) =>
      if s.metrics.maxDepth = max then some { s.setSend i .returned with metrics.maxDepth := n } else none
    | some .recordDrop => some { s.setSend i .returned with metrics := s.metrics.recordDrop }
    | _ => none
  | .casFails i => match s.sends[i]? with
    | some (.casMax n _) => some (s.setSend i (.tryMax n s.metrics.maxDepth))
    | _ => none
  | .recvStep j => match s.recvs[j]? with
    | some .addReceived => some { s.setRecv j .subDepth with metrics := s.metrics.addReceived }
    | some .subDepth => some { s.setRecv j .returned with metrics := s.metrics.subDepth }
    | _ => none
  | .dropSenders => if s.sends.all SendPc.done = true then some { s with senders := false } else none
  | .dropReceivers =>
    if s.recvs.all RecvPc.done = true then some { s with receivers := false, queue := [] } else none

/-- The machine. -/
def machine (capacity : ℕ) (α : Type u) : Machine (Metered α) (Act α) where
  init s := s = bounded capacity
  step := step

variable {s s' : Metered α} {a : Act α} {capacity : ℕ}

theorem step_of_eq_some (h : s.step a = some s') : Step s a s' := by
  cases a with
  | callSend value =>
    obtain ⟨hsenders, hs⟩ := Option.ite_none_right_eq_some.mp h
    cases hs
    exact .callSend value hsenders
  | callRecv =>
    obtain ⟨hreceivers, hs⟩ := Option.ite_none_right_eq_some.mp h
    cases hs
    exact .callRecv hreceivers
  | push i =>
    simp only [step] at h
    split at h
    · obtain ⟨⟨hreceivers, hlt⟩, hs⟩ := Option.ite_none_right_eq_some.mp h
      cases hs
      exact .push ‹_› hreceivers hlt
    · cases h
  | full i =>
    simp only [step] at h
    split at h
    · obtain ⟨⟨hreceivers, hle⟩, hs⟩ := Option.ite_none_right_eq_some.mp h
      cases hs
      exact .full ‹_› hreceivers hle
    · cases h
  | refuse i =>
    simp only [step] at h
    split at h
    · obtain ⟨hreceivers, hs⟩ := Option.ite_none_right_eq_some.mp h
      cases hs
      exact .refuse ‹_› hreceivers
    · cases h
  | pop j =>
    simp only [step] at h
    split at h
    · cases h
      exact .pop ‹_› ‹_›
    · cases h
  | giveUp j =>
    simp only [step] at h
    split at h
    · cases h
      exact .giveUp ‹_› ‹_›
    · cases h
  | handOver i j =>
    simp only [step] at h
    split at h
    · obtain ⟨hzero, hs⟩ := Option.ite_none_right_eq_some.mp h
      cases hs
      exact .handOver ‹_› ‹_› hzero
    · cases h
  | sendStep i =>
    simp only [step] at h
    split at h
    · cases h
      exact .addSent ‹_›
    · cases h
      exact .addDepth ‹_›
    · cases h
      exact .loadMax ‹_›
    · obtain ⟨hmax, hs⟩ := Option.ite_none_right_eq_some.mp h
      cases hs
      exact .casMax ‹_› hmax
    · cases h
      exact .recordDrop ‹_›
    · cases h
  | casFails i =>
    simp only [step] at h
    split at h
    · cases h
      exact .casFails ‹_›
    · cases h
  | recvStep j =>
    simp only [step] at h
    split at h
    · cases h
      exact .addReceived ‹_›
    · cases h
      exact .subDepth ‹_›
    · cases h
  | dropSenders =>
    obtain ⟨hdone, hs⟩ := Option.ite_none_right_eq_some.mp h
    cases hs
    exact .dropSenders hdone
  | dropReceivers =>
    obtain ⟨hdone, hs⟩ := Option.ite_none_right_eq_some.mp h
    cases hs
    exact .dropReceivers hdone

/-! ### What the metrics lack -/

/-- What the sends owe to `sent`. -/
def owedSent (s : Metered α) : ℕ := (s.sends.map SendPc.owesSent).sum

/-- What the sends owe to `current_depth`. -/
def owedUp (s : Metered α) : ℕ := (s.sends.map SendPc.owesDepth).sum

/-- What the receives owe to `received`. -/
def owedReceived (s : Metered α) : ℕ := (s.recvs.map RecvPc.owesReceived).sum

/-- What the receives owe to `current_depth`, downwards. -/
def owedDown (s : Metered α) : ℕ := (s.recvs.map RecvPc.owesDepth).sum

/-- What the metrics lack of the truth, the calls in progress owe them. -/
structure Inv (capacity : ℕ) (s : Metered α) : Prop where
  capacity_eq : s.metrics.capacity = capacity
  sent_eq : s.metrics.sent + s.owedSent = s.metrics.received + s.owedReceived + s.queue.length
  depth_eq : s.metrics.currentDepth + s.owedUp = s.queue.length + s.owedDown
  maxDepth_le : s.metrics.maxDepth ≤ capacity
  newDepth_le : ∀ pc ∈ s.sends, pc.newDepth ≤ capacity

theorem inv_bounded : Inv capacity (bounded capacity : Metered α) :=
  ⟨rfl, rfl, rfl, Nat.zero_le _, by simp [bounded]⟩

/-- A send takes a step: what it owes, and what the step adds to the metrics and to the queue,
balance. -/
theorem Inv.send (h : Inv capacity s) {i : ℕ} {pc pc' : SendPc α} {m : ChannelMetrics} {queue : List α}
    (hi : s.sends[i]? = some pc) (hcap : m.capacity = s.metrics.capacity)
    (hreceived : m.received = s.metrics.received)
    (hsent : m.sent + pc'.owesSent + s.queue.length = s.metrics.sent + pc.owesSent + queue.length)
    (hdepth : m.currentDepth + pc'.owesDepth + s.queue.length =
      s.metrics.currentDepth + pc.owesDepth + queue.length)
    (hmax : m.maxDepth ≤ capacity) (hnew : pc'.newDepth ≤ capacity) :
    Inv capacity { s.setSend i pc' with metrics := m, queue } := by
  have howedSent := Threads.sum_map_set_eq SendPc.owesSent (a := pc') hi
  have howedUp := Threads.sum_map_set_eq SendPc.owesDepth (a := pc') hi
  have hsum := h.sent_eq
  have hdepthSum := h.depth_eq
  unfold owedSent owedReceived at hsum
  unfold owedUp owedDown at hdepthSum
  refine ⟨hcap.trans h.capacity_eq, ?_, ?_, hmax, ?_⟩
  · show m.sent + ((s.sends.set i pc').map SendPc.owesSent).sum =
      m.received + (s.recvs.map RecvPc.owesReceived).sum + queue.length
    omega
  · show m.currentDepth + ((s.sends.set i pc').map SendPc.owesDepth).sum =
      queue.length + (s.recvs.map RecvPc.owesDepth).sum
    omega
  · intro d hd
    rcases List.mem_or_eq_of_mem_set hd with hd | rfl
    · exact h.newDepth_le d hd
    · exact hnew

/-- A send looks at the maximum, for the first time or again. -/
theorem Inv.tryMax (h : Inv capacity s) {i n : ℕ} {pc : SendPc α} (hi : s.sends[i]? = some pc)
    (hsent : pc.owesSent = 0) (hdepth : pc.owesDepth = 0) (hnew : pc.newDepth = n) :
    Inv capacity (s.setSend i (.tryMax n s.metrics.maxDepth)) := by
  have hn : n ≤ capacity := hnew ▸ h.newDepth_le pc (List.mem_of_getElem? hi)
  refine h.send hi rfl rfl ?_ ?_ h.maxDepth_le ((SendPc.newDepth_tryMax_le _ _).trans hn)
  · rw [SendPc.owesSent_tryMax, hsent]
  · rw [SendPc.owesDepth_tryMax, hdepth]

/-- A receive takes a step. -/
theorem Inv.recv (h : Inv capacity s) {j : ℕ} {pc pc' : RecvPc} {m : ChannelMetrics} {queue : List α}
    (hj : s.recvs[j]? = some pc) (hcap : m.capacity = s.metrics.capacity)
    (hmax : m.maxDepth = s.metrics.maxDepth) (hsent : m.sent = s.metrics.sent)
    (hreceived : m.received + pc'.owesReceived + queue.length =
      s.metrics.received + pc.owesReceived + s.queue.length)
    (hdepth : m.currentDepth + s.queue.length + pc.owesDepth =
      s.metrics.currentDepth + queue.length + pc'.owesDepth) :
    Inv capacity { s.setRecv j pc' with metrics := m, queue } := by
  have howedReceived := Threads.sum_map_set_eq RecvPc.owesReceived (a := pc') hj
  have howedDown := Threads.sum_map_set_eq RecvPc.owesDepth (a := pc') hj
  have hsum := h.sent_eq
  have hdepthSum := h.depth_eq
  unfold owedSent owedReceived at hsum
  unfold owedUp owedDown at hdepthSum
  refine ⟨hcap.trans h.capacity_eq, ?_, ?_, hmax.trans_le h.maxDepth_le, h.newDepth_le⟩
  · show m.sent + (s.sends.map SendPc.owesSent).sum =
      m.received + ((s.recvs.set j pc').map RecvPc.owesReceived).sum + queue.length
    omega
  · show m.currentDepth + (s.sends.map SendPc.owesDepth).sum =
      queue.length + ((s.recvs.set j pc').map RecvPc.owesDepth).sum
    omega

/-- **What it takes of a step**: a send does not raise the depth above the capacity, a receive
does not take from a depth of zero, and the last receiver is not dropped with values queued. -/
def orderly (s : Metered α) : Act α → Bool
  | .sendStep i => match s.sends[i]? with
    | some .addDepth => decide (s.metrics.currentDepth < s.metrics.capacity)
    | _ => true
  | .recvStep j => match s.recvs[j]? with
    | some .subDepth => decide (0 < s.metrics.currentDepth)
    | _ => true
  | .dropReceivers => s.queue.isEmpty
  | _ => true

theorem Inv.step (h : Inv capacity s) (hc : s.orderly a = true) (hs : Step s a s') : Inv capacity s' := by
  have hmax := h.maxDepth_le
  cases hs with
  | callSend value hsenders =>
    refine ⟨h.capacity_eq, ?_, ?_, hmax, ?_⟩
    · simpa [owedSent, owedReceived] using h.sent_eq
    · simpa [owedUp, owedDown] using h.depth_eq
    · intro pc hpc
      rcases List.mem_append.mp hpc with hpc | hpc
      · exact h.newDepth_le pc hpc
      · rw [List.mem_singleton.mp hpc]
        exact Nat.zero_le _
  | callRecv hreceivers =>
    refine ⟨h.capacity_eq, ?_, ?_, hmax, h.newDepth_le⟩
    · simpa [owedSent, owedReceived] using h.sent_eq
    · simpa [owedUp, owedDown] using h.depth_eq
  | push hi hreceivers hlt =>
    refine h.send hi rfl rfl ?_ ?_ hmax (Nat.zero_le _)
    · simp only [metrics_setSend, List.length_append, List.length_singleton, SendPc.owesSent]
      omega
    · simp only [metrics_setSend, List.length_append, List.length_singleton, SendPc.owesDepth]
      omega
  | full hi hreceivers hle => exact h.send hi rfl rfl rfl rfl hmax (Nat.zero_le _)
  | refuse hi hreceivers => exact h.send hi rfl rfl rfl rfl hmax (Nat.zero_le _)
  | pop hj hq =>
    refine h.recv hj rfl rfl rfl ?_ ?_
    · simp only [metrics_setRecv, hq, List.length_cons, RecvPc.owesReceived]
      omega
    · simp only [metrics_setRecv, hq, List.length_cons, RecvPc.owesDepth]
      omega
  | giveUp hj hq => exact h.recv hj rfl rfl rfl rfl rfl
  | @handOver i j value hi hj hzero =>
    -- what is handed over is put into the queue and taken out of it
    have hput : Inv capacity { s.setSend i .addSent with queue := value :: s.queue } := by
      refine h.send hi rfl rfl ?_ ?_ hmax (Nat.zero_le _)
      · simp only [metrics_setSend, List.length_cons, SendPc.owesSent]
        omega
      · simp only [metrics_setSend, List.length_cons, SendPc.owesDepth]
        omega
    refine hput.recv hj rfl rfl rfl ?_ ?_
    · simp only [metrics_setSend, queue_setSend, List.length_cons, RecvPc.owesReceived]
      omega
    · simp only [metrics_setSend, queue_setSend, List.length_cons, RecvPc.owesDepth]
      omega
  | addSent hi =>
    refine h.send hi rfl rfl ?_ rfl hmax (Nat.zero_le _)
    simp [ChannelMetrics.addSent]
  | addDepth hi =>
    simp only [orderly, hi, decide_eq_true_eq] at hc
    refine h.send hi rfl rfl rfl ?_ hmax (h.capacity_eq ▸ hc)
    simp [ChannelMetrics.addDepth]
  | loadMax hi => exact h.tryMax hi rfl rfl rfl
  | @casMax i n max hi hold =>
    have hn : n ≤ capacity := h.newDepth_le _ (List.mem_of_getElem? hi)
    exact h.send hi rfl rfl rfl rfl hn (Nat.zero_le _)
  | recordDrop hi => exact h.send hi rfl rfl rfl rfl hmax (Nat.zero_le _)
  | casFails hi => exact h.tryMax hi rfl rfl rfl
  | addReceived hj =>
    refine h.recv hj rfl rfl rfl ?_ rfl
    simp [ChannelMetrics.addReceived]
  | subDepth hj =>
    simp only [orderly, hj, decide_eq_true_eq] at hc
    refine h.recv hj rfl rfl rfl rfl ?_
    simp only [ChannelMetrics.subDepth, queue_setRecv, RecvPc.owesDepth]
    omega
  | dropSenders hdone => exact ⟨h.capacity_eq, h.sent_eq, h.depth_eq, hmax, h.newDepth_le⟩
  | dropReceivers hdone =>
    have hempty : s.queue = [] := List.isEmpty_iff.mp hc
    have hsum := h.sent_eq
    have hdepth := h.depth_eq
    rw [hempty] at hsum hdepth
    exact ⟨h.capacity_eq, hsum, hdepth, hmax, h.newDepth_le⟩

theorem inv_of_orderly (h : (machine capacity α).ReachBy (fun s a => s.orderly a = true) s) :
    Inv capacity s := by
  refine h.invariant (I := Inv capacity) ?_ ?_
  · intro s hs
    obtain rfl := hs
    exact inv_bounded
  · intro s a s' hs hc hstep
    exact hs.step hc (step_of_eq_some hstep)

/-! ### The metrics are right -/

/-- No call is in progress. -/
def AtRest (s : Metered α) : Prop := s.sends.all SendPc.done = true ∧ s.recvs.all RecvPc.done = true

/-- **The metrics do not drift**: with no call in progress, the depth is the sends less the
receives, and the number of queued values; the maximum is never more than the capacity. -/
def Accurate (capacity : ℕ) (s : Metered α) : Prop :=
  (s.AtRest → (s.metrics.currentDepth : ℤ) = s.metrics.sent - s.metrics.received ∧
    s.metrics.currentDepth = s.queue.length) ∧ s.metrics.maxDepth ≤ capacity

/-- Calls that have returned owe nothing. -/
theorem sum_eq_zero_of_done {β : Type u} {l : List β} {done : β → Bool} {owes : β → ℕ}
    (hzero : ∀ b, done b = true → owes b = 0) (h : l.all done = true) : (l.map owes).sum = 0 := by
  induction l with
  | nil => rfl
  | cons b l ih =>
    rw [List.all_cons, Bool.and_eq_true] at h
    rw [List.map_cons, List.sum_cons, hzero b h.1, ih h.2]

theorem AtRest.owed_eq (h : s.AtRest) :
    s.owedSent = 0 ∧ s.owedUp = 0 ∧ s.owedReceived = 0 ∧ s.owedDown = 0 := by
  obtain ⟨hsends, hrecvs⟩ := h
  refine ⟨sum_eq_zero_of_done ?_ hsends, sum_eq_zero_of_done ?_ hsends, sum_eq_zero_of_done ?_ hrecvs,
    sum_eq_zero_of_done ?_ hrecvs⟩
  · intro pc hpc
    rw [SendPc.eq_returned_of_done hpc]
    rfl
  · intro pc hpc
    rw [SendPc.eq_returned_of_done hpc]
    rfl
  · intro pc hpc
    rw [RecvPc.eq_returned_of_done hpc]
    rfl
  · intro pc hpc
    rw [RecvPc.eq_returned_of_done hpc]
    rfl

theorem Inv.accurate (h : Inv capacity s) : Accurate capacity s := by
  refine ⟨?_, h.maxDepth_le⟩
  intro hrest
  obtain ⟨hsent, hup, hreceived, hdown⟩ := hrest.owed_eq
  have hsum := h.sent_eq
  have hdepth := h.depth_eq
  constructor <;> omega

/-- **The metrics are right**, as long as the depth stays between zero and the capacity when it
is updated and no queued value is thrown away. -/
theorem accurate_of_orderly (capacity : ℕ) (s : Metered α)
    (h : (machine capacity α).ReachBy (fun s a => s.orderly a = true) s) : Accurate capacity s :=
  (inv_of_orderly h).accurate

/-- Two senders and a receiver, in order: a value is left in the queue. -/
theorem accurate_of_orderly_shared :
    ∃ s, (machine 2 ℕ).ReachBy (fun s a => s.orderly a = true) s ∧ Accurate 2 s ∧
      s.queue = [20] ∧ s.metrics = ⟨2, 1, 0, 1, 2, 2⟩ := by
  obtain ⟨s, hs, htest⟩ := Machine.exists_reachBy_of_runBy (M := machine 2 ℕ)
    (C := fun s a => s.orderly a = true) rfl
    [.callSend 10, .callSend 20, .push 0, .push 1, .sendStep 0, .sendStep 1, .sendStep 1, .sendStep 0,
      .sendStep 1, .callRecv, .sendStep 0, .sendStep 1, .pop 0, .casFails 0, .recvStep 0, .sendStep 0,
      .recvStep 0]
    (fun s => decide (s.queue = [20] ∧ s.metrics = ⟨2, 1, 0, 1, 2, 2⟩)) (by decide)
  obtain ⟨hqueue, hmetrics⟩ := of_decide_eq_true htest
  exact ⟨s, hs, accurate_of_orderly 2 s hs, hqueue, hmetrics⟩

/-- The receiver takes from the depth before the sender adds to it: the queue is empty, and the
depth is one for ever. -/
theorem not_forall_accurate : ¬ ∀ (capacity : ℕ) (s : Metered ℕ),
    (machine capacity ℕ).Reach s → Accurate capacity s := by
  intro h
  obtain ⟨s, hs, htest⟩ := Machine.exists_reach_of_run (M := machine 2 ℕ) rfl
    [.callSend 10, .push 0, .callRecv, .pop 0, .recvStep 0, .recvStep 0, .sendStep 0, .sendStep 0,
      .sendStep 0, .sendStep 0]
    (fun s => s.sends.all SendPc.done && s.recvs.all RecvPc.done && s.queue.isEmpty &&
      decide (s.metrics.currentDepth = 1)) (by decide)
  simp only [Bool.and_eq_true, decide_eq_true_eq, List.isEmpty_iff] at htest
  obtain ⟨⟨hrest, hempty⟩, hdepth⟩ := htest
  have hlength := ((h 2 s hs).1 hrest).2
  rw [hempty, hdepth] at hlength
  cases hlength

/-! ### Calls that nothing interrupts -/

/-- The steps of a send that no other call interrupts are `record_send`. -/
theorem run_recordSend (s : Metered α) {i : ℕ} (hi : s.sends[i]? = some .addSent) :
    ∃ as s', (machine capacity α).run s as = some s' ∧ s'.sends[i]? = some .returned ∧
      s'.metrics = s.metrics.recordSend := by
  have hset : ∀ pc, (s.sends.set i pc)[i]? = some pc := fun pc => Threads.getElem?_set_self hi
  by_cases hmax : s.metrics.maxDepth < s.metrics.currentDepth + 1
  · refine ⟨[.sendStep i, .sendStep i, .sendStep i, .sendStep i], ?_⟩
    simp [Machine.run, machine, Metered.step, setSend, hi, hset, SendPc.tryMax, hmax,
      Nat.max_eq_right (Nat.le_of_lt hmax), ChannelMetrics.recordSend, ChannelMetrics.addSent,
      ChannelMetrics.addDepth]
  · refine ⟨[.sendStep i, .sendStep i, .sendStep i], ?_⟩
    simp [Machine.run, machine, Metered.step, setSend, hi, hset, SendPc.tryMax, hmax,
      Nat.max_eq_left (Nat.not_lt.mp hmax), ChannelMetrics.recordSend, ChannelMetrics.addSent,
      ChannelMetrics.addDepth]

/-- The steps of a receive that no other call interrupts are `record_receive`. -/
theorem run_recordReceive (s : Metered α) {j : ℕ} (hj : s.recvs[j]? = some .addReceived) :
    ∃ as s', (machine capacity α).run s as = some s' ∧ s'.recvs[j]? = some .returned ∧
      s'.metrics = s.metrics.recordReceive := by
  have hset : ∀ pc, (s.recvs.set j pc)[j]? = some pc := fun pc => Threads.getElem?_set_self hj
  refine ⟨[.recvStep j, .recvStep j], ?_⟩
  simp [Machine.run, machine, Metered.step, setRecv, hj, hset, ChannelMetrics.recordReceive]

end Metered

end SensorBridge.Channel
