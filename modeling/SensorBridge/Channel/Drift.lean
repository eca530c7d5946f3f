import SensorBridge.Channel.Metrics
import Mathlib.Algebra.Order.BigOperators.Group.List
import Mathlib.Algebra.Order.Ring.Nat

/-!
# How far the metrics of a channel drift

A receive that takes from a depth of zero takes nothing, and the depth is one too many from then on. Yet
this can happen only while a send has put its value into the queue and has not added to the depth. So the
depth is never too small, and too great by no more than the number of sends in progress at once: that
many receives at most ever take nothing, in the whole life of the channel (`Drifts.step`). The maximum
goes above the capacity by no more than the sends and the receives in progress at once.

The bound is reached by sends that all wait while their values are received (`drift_of_within`).
-/

namespace SensorBridge.Channel

open Foundation

universe u

variable {α : Type u}

/-- Whether a send is in progress, as a number. -/
@[simp] def SendPc.active : SendPc α → ℕ
  | .returned => 0
  | _ => 1

/-- Whether a receive is in progress, as a number. -/
@[simp] def RecvPc.active : RecvPc → ℕ
  | .returned => 0
  | _ => 1

theorem SendPc.owesDepth_le_active (pc : SendPc α) : pc.owesDepth ≤ pc.active := by
  cases pc <;> simp

theorem RecvPc.owesDepth_le_active (pc : RecvPc) : pc.owesDepth ≤ pc.active := by
  cases pc <;> simp

@[simp] theorem SendPc.active_tryMax_le (n m : ℕ) : (SendPc.tryMax n m : SendPc α).active ≤ 1 := by
  unfold tryMax
  split_ifs <;> simp

namespace Metered

variable {s s' : Metered α} {a : Act α} {capacity k r missed lost : ℕ}

/-- How many sends are in progress. -/
def sending (s : Metered α) : ℕ := (s.sends.map SendPc.active).sum

/-- How many receives are in progress. -/
def receiving (s : Metered α) : ℕ := (s.recvs.map RecvPc.active).sum

/-- No more than `k` sends and `r` receives are in progress at once. -/
def within (k r : ℕ) (s : Metered α) : Act α → Bool
  | .callSend _ => decide (s.sending < k)
  | .callRecv => decide (s.receiving < r)
  | _ => true

/-- **How far the metrics drift** with that many sends and receives at once. -/
structure Drift (capacity k r : ℕ) (s : Metered α) : Prop where
  /-- The sends and the receives are counted right. -/
  sent_eq : s.AtRest → s.receivers = true → s.metrics.sent = s.metrics.received + s.queue.length
  /-- With no call in progress, the depth is not too small. -/
  le_currentDepth : s.AtRest → s.metrics.sent ≤ s.metrics.received + s.metrics.currentDepth
  /-- And it is too great by `k` at most. -/
  currentDepth_le : s.AtRest → s.metrics.received + s.metrics.currentDepth ≤ s.metrics.sent + k
  /-- At any moment it lacks no more than the sends in progress. -/
  length_le : s.queue.length ≤ s.metrics.currentDepth + s.sending
  /-- And neither it nor the maximum is more than this above the capacity. -/
  depth_le : s.metrics.currentDepth ≤ capacity + k + r
  maxDepth_le : s.metrics.maxDepth ≤ capacity + k + r

/-! ### The invariant -/

/-- The metrics after `missed` receives that took nothing from the depth, and with `lost` values thrown
away with the last receiver. -/
structure Drifts (capacity k r missed lost : ℕ) (s : Metered α) : Prop where
  capacity_eq : s.metrics.capacity = capacity
  sent_eq : s.metrics.sent + s.owedSent = s.metrics.received + s.owedReceived + s.queue.length + lost
  depth_eq : s.metrics.currentDepth + s.owedUp = s.queue.length + s.owedDown + missed + lost
  missed_le : missed ≤ k
  length_le : s.queue.length + lost ≤ capacity
  lost_eq : s.receivers = true → lost = 0
  sending_le : s.sending ≤ k
  receiving_le : s.receiving ≤ r
  maxDepth_le : s.metrics.maxDepth ≤ capacity + k + r
  newDepth_le : ∀ pc ∈ s.sends, pc.newDepth ≤ capacity + k + r

theorem owedUp_le_sending (s : Metered α) : s.owedUp ≤ s.sending :=
  List.sum_le_sum fun pc _ => pc.owesDepth_le_active

theorem owedDown_le_receiving (s : Metered α) : s.owedDown ≤ s.receiving :=
  List.sum_le_sum fun pc _ => pc.owesDepth_le_active

/-- A send takes a step. -/
theorem Drifts.send (h : Drifts capacity k r missed lost s) {i : ℕ} {pc pc' : SendPc α} {m : ChannelMetrics}
    {queue : List α} (hi : s.sends[i]? = some pc) (hcap : m.capacity = s.metrics.capacity)
    (hreceived : m.received = s.metrics.received)
    (hsent : m.sent + pc'.owesSent + s.queue.length = s.metrics.sent + pc.owesSent + queue.length)
    (hdepth : m.currentDepth + pc'.owesDepth + s.queue.length =
      s.metrics.currentDepth + pc.owesDepth + queue.length)
    (hactive : pc'.active ≤ pc.active) (hlength : queue.length + lost ≤ capacity)
    (hmax : m.maxDepth ≤ capacity + k + r) (hnew : pc'.newDepth ≤ capacity + k + r) :
    Drifts capacity k r missed lost { s.setSend i pc' with metrics := m, queue } := by
  have howedSent := Threads.sum_map_set_eq SendPc.owesSent (a := pc') hi
  have howedUp := Threads.sum_map_set_eq SendPc.owesDepth (a := pc') hi
  have hsending := Threads.sum_map_set_eq SendPc.active (a := pc') hi
  have hsum := h.sent_eq
  have hdepthSum := h.depth_eq
  have hle := h.sending_le
  unfold owedSent owedReceived at hsum
  unfold owedUp owedDown at hdepthSum
  unfold sending at hle
  refine ⟨hcap.trans h.capacity_eq, ?_, ?_, h.missed_le, hlength, h.lost_eq, ?_, h.receiving_le, hmax, ?_⟩
  · show m.sent + ((s.sends.set i pc').map SendPc.owesSent).sum =
      m.received + (s.recvs.map RecvPc.owesReceived).sum + queue.length + lost
    omega
  · show m.currentDepth + ((s.sends.set i pc').map SendPc.owesDepth).sum =
      queue.length + (s.recvs.map RecvPc.owesDepth).sum + missed + lost
    omega
  · show ((s.sends.set i pc').map SendPc.active).sum ≤ k
    omega
  · intro d hd
    rcases List.mem_or_eq_of_mem_set hd with hd | rfl
    · exact h.newDepth_le d hd
    · exact hnew

/-- A receive takes a step. -/
theorem Drifts.recv (h : Drifts capacity k r missed lost s) {j missed' : ℕ} {pc pc' : RecvPc} {m : ChannelMetrics}
    {queue : List α} (hj : s.recvs[j]? = some pc) (hcap : m.capacity = s.metrics.capacity)
    (hmax : m.maxDepth = s.metrics.maxDepth) (hsent : m.sent = s.metrics.sent)
    (hreceived : m.received + pc'.owesReceived + queue.length =
      s.metrics.received + pc.owesReceived + s.queue.length)
    (hdepth : m.currentDepth + s.queue.length + pc.owesDepth + missed =
      s.metrics.currentDepth + queue.length + pc'.owesDepth + missed')
    (hactive : pc'.active ≤ pc.active) (hmissed : missed' ≤ k) (hlength : queue.length + lost ≤ capacity) :
    Drifts capacity k r missed' lost { s.setRecv j pc' with metrics := m, queue } := by
  have howedReceived := Threads.sum_map_set_eq RecvPc.owesReceived (a := pc') hj
  have howedDown := Threads.sum_map_set_eq RecvPc.owesDepth (a := pc') hj
  have hreceiving := Threads.sum_map_set_eq RecvPc.active (a := pc') hj
  have hsum := h.sent_eq
  have hdepthSum := h.depth_eq
  have hle := h.receiving_le
  unfold owedSent owedReceived at hsum
  unfold owedUp owedDown at hdepthSum
  unfold receiving at hle
  refine ⟨hcap.trans h.capacity_eq, ?_, ?_, hmissed, hlength, h.lost_eq, h.sending_le, ?_,
    hmax.trans_le h.maxDepth_le, h.newDepth_le⟩
  · show m.sent + (s.sends.map SendPc.owesSent).sum =
      m.received + ((s.recvs.set j pc').map RecvPc.owesReceived).sum + queue.length + lost
    omega
  · show m.currentDepth + (s.sends.map SendPc.owesDepth).sum =
      queue.length + ((s.recvs.set j pc').map RecvPc.owesDepth).sum + missed' + lost
    omega
  · show ((s.recvs.set j pc').map RecvPc.active).sum ≤ r
    omega

/-- A send hands its value to a receive: what both owe to the depth cancels. -/
theorem Drifts.handOver (h : Drifts capacity k r missed lost s) {i j : ℕ} {value : α}
    (hi : s.sends[i]? = some (.sending value)) (hj : s.recvs[j]? = some .receiving) :
    Drifts capacity k r missed lost ((s.setSend i .addSent).setRecv j .addReceived) := by
  have howedSent := Threads.sum_map_set_eq SendPc.owesSent (a := .addSent) hi
  have howedUp := Threads.sum_map_set_eq SendPc.owesDepth (a := .addSent) hi
  have hsending := Threads.sum_map_set_eq SendPc.active (a := .addSent) hi
  have howedReceived := Threads.sum_map_set_eq RecvPc.owesReceived (a := .addReceived) hj
  have howedDown := Threads.sum_map_set_eq RecvPc.owesDepth (a := .addReceived) hj
  have hreceiving := Threads.sum_map_set_eq RecvPc.active (a := .addReceived) hj
  have hsum := h.sent_eq
  have hdepth := h.depth_eq
  have hsendingLe := h.sending_le
  have hreceivingLe := h.receiving_le
  unfold owedSent owedReceived at hsum
  unfold owedUp owedDown at hdepth
  unfold sending at hsendingLe
  unfold receiving at hreceivingLe
  simp only [SendPc.owesSent, SendPc.owesDepth, SendPc.active, RecvPc.owesReceived, RecvPc.owesDepth,
    RecvPc.active] at howedSent howedUp hsending howedReceived howedDown hreceiving
  refine ⟨h.capacity_eq, ?_, ?_, h.missed_le, h.length_le, h.lost_eq, ?_, ?_, h.maxDepth_le, ?_⟩
  · show s.metrics.sent + ((s.sends.set i .addSent).map SendPc.owesSent).sum =
      s.metrics.received + ((s.recvs.set j .addReceived).map RecvPc.owesReceived).sum + s.queue.length + lost
    omega
  · show s.metrics.currentDepth + ((s.sends.set i .addSent).map SendPc.owesDepth).sum =
      s.queue.length + ((s.recvs.set j .addReceived).map RecvPc.owesDepth).sum + missed + lost
    omega
  · show ((s.sends.set i .addSent).map SendPc.active).sum ≤ k
    omega
  · show ((s.recvs.set j .addReceived).map RecvPc.active).sum ≤ r
    omega
  · intro d hd
    rcases List.mem_or_eq_of_mem_set hd with hd | rfl
    · exact h.newDepth_le d hd
    · exact Nat.zero_le _

/-- A send looks at the maximum, for the first time or again. -/
theorem Drifts.tryMax (h : Drifts capacity k r missed lost s) {i n : ℕ} {pc : SendPc α} (hi : s.sends[i]? = some pc)
    (hsent : pc.owesSent = 0) (hdepth : pc.owesDepth = 0) (hactive : pc.active = 1) (hnew : pc.newDepth = n) :
    Drifts capacity k r missed lost (s.setSend i (.tryMax n s.metrics.maxDepth)) := by
  have hn : n ≤ capacity + k + r := hnew ▸ h.newDepth_le pc (List.mem_of_getElem? hi)
  refine h.send hi rfl rfl ?_ ?_ ?_ h.length_le h.maxDepth_le ((SendPc.newDepth_tryMax_le _ _).trans hn)
  · rw [SendPc.owesSent_tryMax, hsent]
  · rw [SendPc.owesDepth_tryMax, hdepth]
  · rw [hactive]
    exact SendPc.active_tryMax_le _ _

/-- **A receive takes nothing only while a send owes to the depth**: there have been fewer of them than sends
are in progress. -/
theorem Drifts.missed_lt (h : Drifts capacity k r missed lost s) {j : ℕ} (hj : s.recvs[j]? = some .subDepth)
    (hzero : s.metrics.currentDepth = 0) : missed < k := by
  have hdown := Threads.sum_map_set_eq RecvPc.owesDepth (a := .returned) hj
  have hdepth := h.depth_eq
  have hup := s.owedUp_le_sending
  have hsending := h.sending_le
  unfold owedDown at hdepth
  simp only [RecvPc.owesDepth] at hdown
  omega

/-- A send raises the depth by no more than it owes. -/
theorem Drifts.currentDepth_lt (h : Drifts capacity k r missed lost s) {i : ℕ} (hi : s.sends[i]? = some .addDepth) :
    s.metrics.currentDepth + 1 ≤ capacity + k + r := by
  have hup := Threads.sum_map_set_eq SendPc.owesDepth (a := .returned) hi
  have hdepth := h.depth_eq
  have hdown := s.owedDown_le_receiving
  have hreceiving := h.receiving_le
  have hlength := h.length_le
  have hmissed := h.missed_le
  unfold owedUp at hdepth
  simp only [SendPc.owesDepth] at hup
  omega

/-- **What a step makes of it.** -/
theorem Drifts.step (h : Drifts capacity k r missed lost s) (hc : s.within k r a = true) (hs : Step s a s') :
    ∃ missed' lost', Drifts capacity k r missed' lost' s' := by
  have hmax := h.maxDepth_le
  have hlength := h.length_le
  cases hs with
  | callSend value hsenders =>
    simp only [within, decide_eq_true_eq] at hc
    refine ⟨missed, lost, h.capacity_eq, ?_, ?_, h.missed_le, hlength, h.lost_eq, ?_, h.receiving_le, hmax, ?_⟩
    · simpa [owedSent, owedReceived] using h.sent_eq
    · simpa [owedUp, owedDown] using h.depth_eq
    · simpa [sending] using Nat.succ_le_of_lt hc
    · intro pc hpc
      rcases List.mem_append.mp hpc with hpc | hpc
      · exact h.newDepth_le pc hpc
      · rw [List.mem_singleton.mp hpc]
        exact Nat.zero_le _
  | callRecv hreceivers =>
    simp only [within, decide_eq_true_eq] at hc
    refine ⟨missed, lost, h.capacity_eq, ?_, ?_, h.missed_le, hlength, h.lost_eq, h.sending_le, ?_, hmax,
      h.newDepth_le⟩
    · simpa [owedSent, owedReceived] using h.sent_eq
    · simpa [owedUp, owedDown] using h.depth_eq
    · simpa [receiving] using Nat.succ_le_of_lt hc
  | push hi hreceivers hlt =>
    have hlost := h.lost_eq hreceivers
    have hcapacity := h.capacity_eq
    refine ⟨missed, lost, h.send hi rfl rfl ?_ ?_ le_rfl ?_ hmax (Nat.zero_le _)⟩
    · simp only [metrics_setSend, List.length_append, List.length_singleton, SendPc.owesSent]
      omega
    · simp only [metrics_setSend, List.length_append, List.length_singleton, SendPc.owesDepth]
      omega
    · rw [List.length_append, List.length_singleton]
      omega
  | full hi hreceivers hle => exact ⟨missed, lost, h.send hi rfl rfl rfl rfl le_rfl hlength hmax (Nat.zero_le _)⟩
  | refuse hi hreceivers =>
    exact ⟨missed, lost, h.send hi rfl rfl rfl rfl (Nat.zero_le _) hlength hmax (Nat.zero_le _)⟩
  | pop hj hq =>
    rw [hq, List.length_cons] at hlength
    refine ⟨missed, lost, h.recv hj rfl rfl rfl ?_ ?_ le_rfl h.missed_le ?_⟩
    · simp only [metrics_setRecv, hq, List.length_cons, RecvPc.owesReceived]
      omega
    · simp only [metrics_setRecv, hq, List.length_cons, RecvPc.owesDepth]
      omega
    · omega
  | giveUp hj hq => exact ⟨missed, lost, h.recv hj rfl rfl rfl rfl rfl (Nat.zero_le _) h.missed_le hlength⟩
  | handOver hi hj hzero => exact ⟨missed, lost, h.handOver hi hj⟩
  | addSent hi =>
    refine ⟨missed, lost, h.send hi rfl rfl ?_ rfl le_rfl hlength hmax (Nat.zero_le _)⟩
    simp [ChannelMetrics.addSent]
  | addDepth hi =>
    refine ⟨missed, lost, h.send hi rfl rfl rfl ?_ le_rfl hlength hmax (h.currentDepth_lt hi)⟩
    simp [ChannelMetrics.addDepth]
  | loadMax hi => exact ⟨missed, lost, h.tryMax hi rfl rfl rfl rfl⟩
  | @casMax i n max hi hold =>
    have hn : n ≤ capacity + k + r := h.newDepth_le _ (List.mem_of_getElem? hi)
    exact ⟨missed, lost, h.send hi rfl rfl rfl rfl (Nat.zero_le _) hlength hn (Nat.zero_le _)⟩
  | recordDrop hi => exact ⟨missed, lost, h.send hi rfl rfl rfl rfl (Nat.zero_le _) hlength hmax (Nat.zero_le _)⟩
  | casFails hi => exact ⟨missed, lost, h.tryMax hi rfl rfl rfl rfl⟩
  | addReceived hj =>
    refine ⟨missed, lost, h.recv hj rfl rfl rfl ?_ rfl le_rfl h.missed_le hlength⟩
    simp [ChannelMetrics.addReceived]
  | subDepth hj =>
    rcases Nat.eq_zero_or_pos s.metrics.currentDepth with hzero | hpos
    · -- nothing is taken, and the depth is one too many from now on
      refine ⟨missed + 1, lost, h.recv hj rfl rfl rfl rfl ?_ (Nat.zero_le _) (h.missed_lt hj hzero) hlength⟩
      simp only [ChannelMetrics.subDepth, queue_setRecv, RecvPc.owesDepth]
      omega
    · refine ⟨missed, lost, h.recv hj rfl rfl rfl rfl ?_ (Nat.zero_le _) h.missed_le hlength⟩
      simp only [ChannelMetrics.subDepth, queue_setRecv, RecvPc.owesDepth]
      omega
  | dropSenders hdone =>
    exact ⟨missed, lost, h.capacity_eq, h.sent_eq, h.depth_eq, h.missed_le, hlength, h.lost_eq, h.sending_le,
      h.receiving_le, hmax, h.newDepth_le⟩
  | dropReceivers hdone =>
    -- what is queued is thrown away
    have hsum := h.sent_eq
    have hdepth := h.depth_eq
    refine ⟨missed, s.queue.length + lost, h.capacity_eq, ?_, ?_, h.missed_le, ?_, ?_, h.sending_le, h.receiving_le,
      hmax, h.newDepth_le⟩
    · show s.metrics.sent + s.owedSent = s.metrics.received + s.owedReceived + 0 + (s.queue.length + lost)
      omega
    · show s.metrics.currentDepth + s.owedUp = 0 + s.owedDown + missed + (s.queue.length + lost)
      omega
    · show 0 + (s.queue.length + lost) ≤ capacity
      omega
    · intro hfalse
      cases hfalse

theorem drifts_bounded : Drifts capacity k r 0 0 (bounded capacity : Metered α) :=
  ⟨rfl, rfl, rfl, Nat.zero_le _, Nat.zero_le _, fun _ => rfl, Nat.zero_le _, Nat.zero_le _, Nat.zero_le _,
    by simp [bounded]⟩

theorem drifts_of_within (h : (machine capacity α).ReachBy (fun s a => s.within k r a = true) s) :
    ∃ missed lost, Drifts capacity k r missed lost s := by
  refine h.invariant (I := fun s => ∃ missed lost, Drifts capacity k r missed lost s) ?_ ?_
  · intro s hs
    obtain rfl := hs
    exact ⟨0, 0, drifts_bounded⟩
  · rintro s a s' ⟨missed, lost, hdrifts⟩ hc hs
    exact hdrifts.step hc (step_of_eq_some hs)

theorem Drifts.drift (h : Drifts capacity k r missed lost s) : Drift capacity k r s := by
  have hsum := h.sent_eq
  have hdepth := h.depth_eq
  have hmissed := h.missed_le
  have hlength := h.length_le
  have hup := s.owedUp_le_sending
  have hdown := s.owedDown_le_receiving
  have hreceiving := h.receiving_le
  refine ⟨?_, ?_, ?_, ?_, ?_, h.maxDepth_le⟩
  · intro hrest hreceivers
    have hlost := h.lost_eq hreceivers
    obtain ⟨hsent, -, hreceived, -⟩ := hrest.owed_eq
    omega
  · intro hrest
    obtain ⟨hsent, hup, hreceived, hdown⟩ := hrest.owed_eq
    omega
  · intro hrest
    obtain ⟨hsent, hup, hreceived, hdown⟩ := hrest.owed_eq
    omega
  · omega
  · omega

/-! ### The bound is reached -/

/-- `n` sends have put their values into the queue and wait, and `n` receives have taken these and nothing
from the depth. -/
def overtaken (capacity n : ℕ) : Metered α :=
  ⟨⟨0, n, 0, 0, 0, capacity⟩, [], true, true, List.replicate n .addSent, List.replicate n .returned⟩

/-- Of those sends `i` have returned. -/
def catchingUp (capacity n i : ℕ) : Metered α :=
  ⟨⟨i, n, 0, i, i, capacity⟩, [], true, true, List.replicate i .returned ++ List.replicate (n - i) .addSent,
    List.replicate n .returned⟩

/-- One more send, whose value is received before it is counted. -/
theorem reachBy_overtaken (hcapacity : 0 < capacity) (hr : 0 < r) (value : α) {n : ℕ} (hn : n ≤ k) :
    (machine capacity α).ReachBy (fun s a => s.within k r a = true) (overtaken capacity n) := by
  induction n with
  | zero => exact .start rfl
  | succ n ih =>
    have hlt : n < k := hn
    have hrun : (machine capacity α).runBy (fun s a => s.within k r a = true) (overtaken capacity n)
        [.callSend value, .push n, .callRecv, .pop n, .recvStep n, .recvStep n] =
          some (overtaken capacity (n + 1)) := by
      simp [Machine.runBy, machine, Metered.step, within, sending, receiving, overtaken, setSend, setRecv,
        hcapacity, hr, hlt, ChannelMetrics.addReceived, ChannelMetrics.subDepth, List.replicate_succ']
    exact Machine.reachBy_of_runBy (ih hlt.le) hrun

/-- One more of the sends returns. -/
theorem reachBy_catchingUp {n i : ℕ} (hi : i ≤ n)
    (h : (machine capacity α).ReachBy (fun s a => s.within k r a = true) (overtaken capacity n)) :
    (machine capacity α).ReachBy (fun s a => s.within k r a = true) (catchingUp capacity n i) := by
  induction i with
  | zero => exact h
  | succ i ih =>
    obtain ⟨m, rfl⟩ : ∃ m, n = i + 1 + m := ⟨n - (i + 1), by omega⟩
    have hrest : i + 1 + m - i = m + 1 := by omega
    have hrun : (machine capacity α).runBy (fun s a => s.within k r a = true) (catchingUp capacity (i + 1 + m) i)
        [.sendStep i, .sendStep i, .sendStep i, .sendStep i] = some (catchingUp capacity (i + 1 + m) (i + 1)) := by
      simp [Machine.runBy, machine, Metered.step, within, catchingUp, setSend, hrest,
        ChannelMetrics.addSent, ChannelMetrics.addDepth, SendPc.tryMax, List.replicate_succ]
      rw [← List.cons_append, ← List.replicate_succ, List.replicate_succ', List.append_assoc]
      rfl
    exact Machine.reachBy_of_runBy (ih (Nat.le_of_succ_le hi)) hrun

/-- **How far the metrics drift** with no more than `k` sends and `r` receives at once; and the depth of
an empty channel with no call in progress can be `k`. -/
theorem drift_of_within (capacity k r : ℕ) (value : α) :
    (∀ s : Metered α, (machine capacity α).ReachBy (fun s a => s.within k r a = true) s → Drift capacity k r s) ∧
    (0 < capacity → 0 < r → ∃ s : Metered α, (machine capacity α).ReachBy (fun s a => s.within k r a = true) s ∧
      s.AtRest ∧ s.queue = [] ∧ s.metrics.currentDepth = k) := by
  constructor
  · intro s h
    obtain ⟨missed, lost, hdrifts⟩ := drifts_of_within h
    exact hdrifts.drift
  · intro hcapacity hr
    refine ⟨catchingUp capacity k k, reachBy_catchingUp le_rfl (reachBy_overtaken hcapacity hr value le_rfl), ?_, rfl,
      rfl⟩
    simp [AtRest, catchingUp]

end Metered

end SensorBridge.Channel
