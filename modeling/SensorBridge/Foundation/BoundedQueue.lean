import SensorBridge.Foundation.Machine
import Mathlib.Data.List.Basic

/-!
# Bounded queues

What a concurrent queue is meant to look like from outside: pushes and pops, each taking
effect at once, on a first-in first-out queue of at most `n` items. A push into a full queue
gives its value back and a pop of an empty one returns nothing.

A queue implements it when what its users have seen is something this machine can show, which
is a simulation (`Machine.ReachBy.simulate`); then what holds of every queue the machine
reaches (`Sound`) holds of the implementation.
-/

namespace SensorBridge.Foundation

universe u

/-- A queue, with what its users have seen of it. -/
structure BoundedQueue (α : Type u) where
  /-- The items in it, oldest first. -/
  items : List α
  /-- Every value that has been accepted, oldest first. -/
  accepted : List α
  /-- What the pushes returned. -/
  pushResults : List (Except α Unit)
  /-- What the pops returned. -/
  popResults : List (Option α)

namespace BoundedQueue

variable {α : Type u} {n : ℕ}

/-- An operation. -/
inductive Op (α : Type u) where
  | push (value : α)
  | pop

/-- An operation takes effect. -/
def apply (n : ℕ) (q : BoundedQueue α) : Op α → BoundedQueue α
  | .push v =>
    if q.items.length < n then
      { q with items := q.items ++ [v], accepted := q.accepted ++ [v]
               pushResults := q.pushResults ++ [.ok ()] }
    else { q with pushResults := q.pushResults ++ [.error v] }
  | .pop => match q.items with
    | [] => { q with popResults := q.popResults ++ [none] }
    | v :: items => { q with items := items, popResults := q.popResults ++ [some v] }

/-- An empty queue that nobody has used. -/
def empty : BoundedQueue α := ⟨[], [], [], []⟩

/-- The machine. -/
def machine (n : ℕ) (α : Type u) : Machine (BoundedQueue α) (Op α) where
  init := (· = empty)
  step q op := some (q.apply n op)

/-- **What holds of every queue.** -/
structure Sound (n : ℕ) (q : BoundedQueue α) : Prop where
  /-- What is accepted is popped, in order, or in the queue. -/
  accepted_eq : q.accepted = q.popResults.filterMap id ++ q.items
  /-- The queue is bounded. -/
  length_le : q.items.length ≤ n
  /-- The pushes that returned `ok` are those accepted. -/
  count_ok : q.pushResults.countP Except.isOk = q.accepted.length

theorem sound_empty : Sound n (empty : BoundedQueue α) := ⟨rfl, Nat.zero_le n, rfl⟩

theorem Sound.apply {q : BoundedQueue α} (h : Sound n q) (op : Op α) : Sound n (q.apply n op) := by
  obtain ⟨hacc, hlen, hok⟩ := h
  cases op with
  | push v =>
    by_cases hlt : q.items.length < n
    · simp only [BoundedQueue.apply, if_pos hlt]
      constructor
      · show q.accepted ++ [v] = _
        rw [hacc, List.append_assoc]
      · show (q.items ++ [v]).length ≤ n
        rw [List.length_append, List.length_singleton]
        exact hlt
      · show (q.pushResults ++ [Except.ok ()]).countP Except.isOk = (q.accepted ++ [v]).length
        rw [List.countP_append, hok, List.length_append]
        rfl
    · simp only [BoundedQueue.apply, if_neg hlt]
      refine ⟨hacc, hlen, ?_⟩
      show (q.pushResults ++ [Except.error v]).countP Except.isOk = q.accepted.length
      rw [List.countP_append, hok]
      rfl
  | pop =>
    cases hq : q.items with
    | nil =>
      simp only [BoundedQueue.apply, hq]
      refine ⟨?_, by rw [hq] at hlen; exact hlen, hok⟩
      simp [hacc, hq]
    | cons v items =>
      simp only [BoundedQueue.apply, hq]
      rw [hq, List.length_cons] at hlen
      refine ⟨?_, Nat.le_of_succ_le hlen, hok⟩
      simp [hacc, hq]

theorem sound_of_reach {q : BoundedQueue α} (h : (machine n α).Reach q) : Sound n q := by
  refine h.invariant (I := Sound n) ?_ ?_
  · rintro q rfl
    exact sound_empty
  · intro q op q' hq _ hs
    cases hs
    exact hq.apply op

end BoundedQueue

end SensorBridge.Foundation
