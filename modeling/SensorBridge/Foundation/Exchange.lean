import Mathlib.Order.Basic

/-!
# Loops around an exchange

A thread that changes a shared cell by a loop loads the cell, works out what to put there, and tries
to exchange the one for the other. The exchange fails when the cell holds something else by then, or
for no reason at all; then the loop goes round again.

The cell is numbered by the writes there have been. As long as the number is the one the thread saw,
so is the value (`Seen`): an exchange that finds the cell changed fails because of a write since the
thread looked (`Seen.lt_of_ne`). A `Tally` counts for one thread the exchanges that found the cell
changed, those that failed for no reason, and its own writes, since it began. Of the first there are no
more than writes of the others (`Tally.Within.changed_le`), so that whenever the cell throws one thread
back another one has got through. Of the second nothing can be said.
-/

namespace SensorBridge.Foundation.Exchange

universe u

variable {α : Type u} {cell cell' seen : α} {writes n : ℕ}

/-- A thread saw this value after `n` writes. -/
structure Seen (cell : α) (writes : ℕ) (seen : α) (n : ℕ) : Prop where
  le : n ≤ writes
  eq : n = writes → seen = cell

/-- What is loaded is seen. -/
theorem Seen.load (cell : α) (writes : ℕ) : Seen cell writes cell writes := ⟨Nat.le_refl _, fun _ => rfl⟩

/-- Whatever is written, it has been seen before. -/
theorem Seen.write (h : Seen cell writes seen n) (cell' : α) : Seen cell' (writes + 1) seen n :=
  ⟨Nat.le_succ_of_le h.le, fun heq => absurd heq (Nat.ne_of_lt (Nat.lt_succ_of_le h.le))⟩

/-- When the cell holds something else, it has been written. -/
theorem Seen.lt_of_ne (h : Seen cell writes seen n) (hne : cell ≠ seen) : n < writes :=
  Nat.lt_of_le_of_ne h.le fun heq => hne (h.eq heq).symm

/-! ### The account of a thread -/

/-- What became of the exchanges of a thread. -/
structure Tally where
  /-- How many writes there had been when the thread began. -/
  begun : ℕ
  /-- How many of its exchanges wrote the cell. -/
  own : ℕ
  /-- How many failed because the cell held something else. -/
  changed : ℕ
  /-- How many failed although it held what it should: for no reason. -/
  spurious : ℕ
  deriving DecidableEq

namespace Tally

/-- A thread begins. -/
def start (writes : ℕ) : Tally := ⟨writes, 0, 0, 0⟩

/-- An exchange has written the cell. -/
def succeed (t : Tally) : Tally := { t with own := t.own + 1 }

/-- An exchange has failed: because the cell held something else, or for no reason. -/
def fail (t : Tally) (changed : Bool) : Tally :=
  if changed then { t with changed := t.changed + 1 } else { t with spurious := t.spurious + 1 }

/-- The failures because of the cell and the thread's own writes are no more than the writes since it
began. -/
def Within (t : Tally) (writes : ℕ) : Prop := t.begun + t.own + t.changed ≤ writes

variable {t : Tally}

theorem within_start (writes : ℕ) : (start writes).Within writes := Nat.le_refl _

theorem Within.mono (h : t.Within n) (hle : n ≤ writes) : t.Within writes := Nat.le_trans h hle

/-- A write makes room for itself. -/
theorem Within.succeed (h : t.Within writes) : t.succeed.Within (writes + 1) := by
  simp only [Within, Tally.succeed] at *
  omega

/-- A failure because of the cell is made up for by a write since the thread looked. -/
theorem Within.fail [DecidableEq α] (h : t.Within n) (hs : Seen cell writes seen n) :
    (t.fail (decide (cell ≠ seen))).Within writes := by
  have hle := hs.le
  unfold Tally.fail
  split_ifs with hchanged
  · have hlt := hs.lt_of_ne (of_decide_eq_true hchanged)
    simp only [Within] at *
    omega
  · exact h.mono hle

/-- **A thread is thrown back only when another gets through.** -/
theorem Within.changed_le (h : t.Within writes) : t.changed ≤ writes - t.begun - t.own := by
  unfold Within at h
  omega

end Tally

end SensorBridge.Foundation.Exchange
