import Mathlib.Data.List.Basic

/-!
# Bounded channels

`bounded(capacity)` wraps a crossbeam channel, which is taken to be what it is
documented to be: a linearizable first-in first-out queue of at most `capacity`
messages, disconnected for one side when every handle of the other side is gone.
Dropping the receiver discards what is queued.

Each operation is what it does at its linearization point. `send` may have to wait
and is then not enabled. A receive is split in two, entering the call and
completing it, for the sake of capacity `0`: such a channel holds nothing, and a
message passes only while a receiver is waiting. A receive with a timeout
completes with the oldest message if there is one; it gives up only on finding the
queue empty.

The channel's own counters are not part of this model. `sent` and `received` are not
in the source: they record the messages that went in and those that came out, so
that what a first-in first-out queue is can be said (`Chan.Fifo`).
-/

namespace SensorBridge.Channel

universe u

/-- Why a send failed; the value is given back. -/
inductive SendError (α : Type u) where
  /-- The channel is full. -/
  | full (value : α)
  /-- The receiver has been dropped. -/
  | disconnected (value : α)

/-- Why a receive failed. -/
inductive RecvError where
  /-- The channel is empty (the timeout expired). -/
  | empty
  /-- The channel is empty and the sender has been dropped. -/
  | disconnected
  deriving DecidableEq

/-- A channel. -/
structure Chan (α : Type u) where
  /-- How many messages it can hold. -/
  capacity : ℕ
  /-- The messages in it, oldest first. -/
  queue : List α
  /-- Whether a sender is alive. -/
  sender : Bool
  /-- Whether the receiver is alive. -/
  receiver : Bool
  /-- Whether the receiver is inside a receive. -/
  waiting : Bool
  /-- Every message that has gone in, oldest first. -/
  sent : List α
  /-- Every message that has come out, oldest first. -/
  received : List α

variable {α : Type u}

/-- A new channel. -/
def bounded (capacity : ℕ) : Chan α := ⟨capacity, [], true, true, false, [], []⟩

namespace Chan

/-- Whether a message can go in: there is a free place, or, in a channel without places,
a receiver to hand it to. -/
def HasRoom (c : Chan α) : Prop :=
  c.queue.length < c.capacity ∨ c.capacity = 0 ∧ c.queue = [] ∧ c.waiting = true

instance (c : Chan α) : Decidable c.HasRoom :=
  have : Decidable (c.queue = []) := decidable_of_iff (c.queue.isEmpty = true) List.isEmpty_iff
  inferInstanceAs (Decidable (_ ∨ _ ∧ _ ∧ _))

/-- A message goes in. -/
def push (c : Chan α) (value : α) : Chan α :=
  { c with queue := c.queue ++ [value], sent := c.sent ++ [value] }

/-- `Sender::try_send`. -/
def trySend (c : Chan α) (value : α) : Except (SendError α) (Chan α) :=
  if c.receiver = false then .error (.disconnected value)
  else if c.HasRoom then .ok (c.push value)
  else .error (.full value)

/-- `Sender::send_or_drop`: whether the value was sent. -/
def sendOrDrop (c : Chan α) (value : α) : Chan α × Bool :=
  match c.trySend value with
  | .ok c' => (c', true)
  | .error _ => (c, false)

/-- `Sender::send`; `none` while it blocks. -/
def send (c : Chan α) (value : α) : Option (Except (SendError α) (Chan α)) :=
  match c.trySend value with
  | .ok c' => some (.ok c')
  | .error (.disconnected v) => some (.error (.disconnected v))
  | .error (.full _) => none

/-- A receive begins. -/
def beginRecv (c : Chan α) : Chan α := { c with waiting := true }

/-- A receive takes the oldest message and leaves the others. -/
def take (c : Chan α) (x : α) (q : List α) : Chan α :=
  { c with queue := q, waiting := false, received := c.received ++ [x] }

/-- A receive gives up. -/
def giveUp (c : Chan α) : Chan α := { c with waiting := false }

/-- A receive completes: `Receiver::recv_timeout`, or `try_recv`. -/
def endRecv (c : Chan α) : Except RecvError α × Chan α :=
  match c.queue with
  | x :: q => (.ok x, c.take x q)
  | [] => (.error (if c.sender then .empty else .disconnected), c.giveUp)

/-- The last sender is dropped. -/
def dropSender (c : Chan α) : Chan α := { c with sender := false }

/-- The receiver is dropped, and with it what is queued. -/
def dropReceiver (c : Chan α) : Chan α := { c with receiver := false, queue := [], waiting := false }

/-! ### What an operation does to the queue and to the other side -/

theorem trySend_ok_iff {c c' : Chan α} {x : α} :
    c.trySend x = .ok c' ↔ c.receiver = true ∧ c.HasRoom ∧ c' = c.push x := by
  unfold trySend
  split_ifs with hr hroom
  · simp [hr]
  · simp [hr, hroom, eq_comm]
  · simp [hroom]

/-- `send_or_drop` puts the value in if it can, and otherwise leaves the channel as it is. -/
theorem sendOrDrop_cases (c : Chan α) (x : α) :
    c.receiver = true ∧ c.HasRoom ∧ c.sendOrDrop x = (c.push x, true) ∨
    ¬ (c.receiver = true ∧ c.HasRoom) ∧ c.sendOrDrop x = (c, false) := by
  unfold sendOrDrop
  cases h : c.trySend x with
  | ok c' =>
    obtain ⟨hr, hroom, rfl⟩ := trySend_ok_iff.mp h
    exact .inl ⟨hr, hroom, rfl⟩
  | error e =>
    refine .inr ⟨?_, rfl⟩
    rintro ⟨hr, hroom⟩
    rw [trySend_ok_iff.mpr ⟨hr, hroom, rfl⟩] at h
    cases h

/-- `send` puts the value in, gives it back when the receiver is gone, or blocks on a full
channel. -/
theorem send_cases (c : Chan α) (x : α) :
    c.receiver = true ∧ c.HasRoom ∧ c.send x = some (.ok (c.push x)) ∨
    c.receiver = false ∧ c.send x = some (.error (.disconnected x)) ∨
    c.receiver = true ∧ ¬ c.HasRoom ∧ c.send x = none := by
  unfold send trySend
  cases hr : c.receiver with
  | false => exact .inr (.inl ⟨rfl, by simp⟩)
  | true =>
    by_cases hroom : c.HasRoom
    · exact .inl ⟨rfl, hroom, by simp [hroom]⟩
    · exact .inr (.inr ⟨rfl, hroom, by simp [hroom]⟩)

/-- A receive takes the oldest message, or finds none. -/
theorem endRecv_cases (c : Chan α) :
    (∃ x q, c.queue = x :: q ∧ c.endRecv = (.ok x, c.take x q)) ∨
    c.queue = [] ∧ c.sender = true ∧ c.endRecv = (.error .empty, c.giveUp) ∨
    c.queue = [] ∧ c.sender = false ∧ c.endRecv = (.error .disconnected, c.giveUp) := by
  unfold endRecv
  cases c.queue with
  | cons x q => exact .inl ⟨x, q, rfl, rfl⟩
  | nil => cases c.sender <;> simp

/-! ### First in, first out -/

/-- **What comes out is what went in**: the messages received are the first of those sent,
and while the receiver is alive the queue holds the others. -/
structure Fifo (c : Chan α) : Prop where
  /-- Received and queued messages are the first of those sent. -/
  prefix_sent : c.received ++ c.queue <+: c.sent
  /-- Nothing is missing while the receiver is alive. -/
  eq_sent : c.receiver = true → c.received ++ c.queue = c.sent

theorem Fifo.received_isPrefix {c : Chan α} (h : c.Fifo) : c.received <+: c.sent :=
  (List.prefix_append _ _).trans h.prefix_sent

theorem fifo_bounded (capacity : ℕ) : (bounded capacity : Chan α).Fifo := ⟨List.prefix_rfl, fun _ => rfl⟩

theorem Fifo.push {c : Chan α} (h : c.Fifo) (hr : c.receiver = true) (x : α) : (c.push x).Fifo := by
  have heq : c.received ++ (c.queue ++ [x]) = c.sent ++ [x] := by
    rw [← List.append_assoc, h.eq_sent hr]
  exact ⟨⟨[], by rw [List.append_nil]; exact heq⟩, fun _ => heq⟩

theorem Fifo.beginRecv {c : Chan α} (h : c.Fifo) : c.beginRecv.Fifo := ⟨h.prefix_sent, h.eq_sent⟩

theorem Fifo.take {c : Chan α} (h : c.Fifo) {x : α} {q : List α} (hq : c.queue = x :: q) :
    (c.take x q).Fifo := by
  have hassoc : (c.received ++ [x]) ++ q = c.received ++ c.queue := by simp [hq]
  constructor
  · change (c.received ++ [x]) ++ q <+: c.sent
    rw [hassoc]
    exact h.prefix_sent
  · intro hr
    exact hassoc.trans (h.eq_sent hr)

theorem Fifo.giveUp {c : Chan α} (h : c.Fifo) : c.giveUp.Fifo := ⟨h.prefix_sent, h.eq_sent⟩

theorem Fifo.endRecv {c : Chan α} (h : c.Fifo) : c.endRecv.2.Fifo := by
  rcases c.endRecv_cases with ⟨x, q, hq, he⟩ | ⟨-, -, he⟩ | ⟨-, -, he⟩
  · rw [he]
    exact h.take hq
  · rw [he]
    exact h.giveUp
  · rw [he]
    exact h.giveUp

theorem Fifo.dropSender {c : Chan α} (h : c.Fifo) : c.dropSender.Fifo := ⟨h.prefix_sent, h.eq_sent⟩

theorem Fifo.dropReceiver {c : Chan α} (h : c.Fifo) : c.dropReceiver.Fifo where
  prefix_sent := by
    change c.received ++ [] <+: c.sent
    rw [List.append_nil]
    exact h.received_isPrefix
  eq_sent := by rintro ⟨⟩

/-! ### Two sides -/

/-- What the sending side of a channel sees is as it was: the other side moved. -/
structure SameSender (c c' : Chan α) : Prop where
  sent_eq : c'.sent = c.sent
  sender_eq : c'.sender = c.sender

/-- What the receiving side of a channel sees is as it was, apart from what is queued. -/
structure SameReceiver (c c' : Chan α) : Prop where
  received_eq : c'.received = c.received
  receiver_eq : c'.receiver = c.receiver

theorem SameSender.refl (c : Chan α) : SameSender c c := ⟨rfl, rfl⟩

theorem SameReceiver.refl (c : Chan α) : SameReceiver c c := ⟨rfl, rfl⟩

/-- A receive leaves the sending side as it was, and the receiver alive. -/
theorem endRecv_sameSender (c : Chan α) :
    c.SameSender c.endRecv.2 ∧ c.endRecv.2.receiver = c.receiver := by
  rcases c.endRecv_cases with ⟨x, q, -, he⟩ | ⟨-, -, he⟩ | ⟨-, -, he⟩
  · rw [he]
    exact ⟨⟨rfl, rfl⟩, rfl⟩
  · rw [he]
    exact ⟨⟨rfl, rfl⟩, rfl⟩
  · rw [he]
    exact ⟨⟨rfl, rfl⟩, rfl⟩

end Chan

end SensorBridge.Channel
