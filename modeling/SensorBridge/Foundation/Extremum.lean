import SensorBridge.Foundation.Threads
import Mathlib.Order.Bounds.Basic

/-!
# Raising a cell to a maximum

Each of a number of threads has a value and raises a shared cell to it by a loop: it loads
the cell and, as long as what it has seen is less than its value, tries to exchange that for
its value. The exchange fails when the cell has changed, or for no reason at all, and then gives
what the cell holds. Over the dual order the same loop lowers a cell to a minimum.

Whatever the interleaving, the cell holds where it started or one of the values, and no less than
the values of the threads that are through (`Raised`). When all are, it is the greatest. And if
it is not where it started, the thread whose value it holds is through (`Attained`).
-/

namespace SensorBridge.Foundation.Extremum

open Threads

universe u

variable {α : Type u}

/-- Where the loop of a thread is. -/
inductive Progress (α : Type u) where
  /-- It loads the cell. -/
  | load
  /-- It tries to exchange what it has seen for its value. -/
  | exchange (current : α)
  /-- It is through. -/
  | finished
  deriving DecidableEq

/-- The test of the loop. -/
def test [LT α] [DecidableLT α] (value current : α) : Progress α :=
  if current < value then .exchange current else .finished

/-- What the next step makes of the cell, and where the loop is then. -/
def advance [LT α] [DecidableLT α] [DecidableEq α] (value cell : α) (spurious : Bool) :
    Progress α → α × Progress α
  | .load => (cell, test value cell)
  | .exchange current =>
    if cell = current ∧ spurious = false then (value, .finished) else (cell, test value cell)
  | .finished => (cell, .finished)

/-- A thread tries to exchange only what is less than its value. -/
def Sound [LT α] (value : α) : Progress α → Prop
  | .exchange current => current < value
  | _ => True

section
variable [LinearOrder α] {value cell : α} {p : Progress α}

theorem sound_test (value current : α) : Sound value (test value current) := by
  unfold test
  split_ifs with h
  · exact h
  · trivial

theorem le_of_test_eq (h : test value cell = .finished) : value ≤ cell := by
  unfold test at h
  split_ifs at h with hlt
  exact not_lt.1 hlt

/-- A step of the loop leaves the cell, or raises it to the value; and a thread that is through
then has a value no greater than the cell. -/
theorem advance_spec (h : Sound value p) (hp : p = .finished → value ≤ cell) (spurious : Bool) :
    Sound value (advance value cell spurious p).2 ∧ cell ≤ (advance value cell spurious p).1 ∧
      ((advance value cell spurious p).1 = cell ∨ (advance value cell spurious p).1 = value) ∧
      ((advance value cell spurious p).2 = .finished → value ≤ (advance value cell spurious p).1) := by
  cases p with
  | load => exact ⟨sound_test value cell, le_rfl, .inl rfl, le_of_test_eq⟩
  | exchange current =>
    rw [advance]
    split_ifs with hcell
    · obtain ⟨rfl, -⟩ := hcell
      exact ⟨trivial, le_of_lt h, .inr rfl, fun _ => le_rfl⟩
    · exact ⟨sound_test value cell, le_rfl, .inl rfl, le_of_test_eq⟩
  | finished => exact ⟨trivial, le_rfl, .inl rfl, fun _ => hp rfl⟩

/-- A step that does not leave the cell raises it to the value, and is the last. -/
theorem advance_cell (value cell : α) (spurious : Bool) (p : Progress α) :
    (advance value cell spurious p).1 = cell ∨
      (advance value cell spurious p).1 = value ∧ (advance value cell spurious p).2 = .finished := by
  cases p with
  | load | finished => exact .inl rfl
  | exchange current =>
    rw [advance]
    split_ifs
    · exact .inr ⟨rfl, rfl⟩
    · exact .inl rfl

end

/-! ### Any number of threads -/

/-- The cell, with the values of the threads and where they are. -/
structure Raised [LinearOrder α] (start cell : α) (threads : List (α × Progress α)) : Prop where
  sound : ∀ t ∈ threads, Sound t.1 t.2
  le_cell : ∀ t ∈ threads, t.2 = .finished → t.1 ≤ cell
  start_le : start ≤ cell
  attained : cell = start ∨ ∃ t ∈ threads, cell = t.1

namespace Raised

variable [LinearOrder α] {start cell value : α} {threads : List (α × Progress α)} {p : Progress α}

theorem nil (start : α) : Raised start start [] := ⟨by simp, by simp, le_rfl, .inl rfl⟩

/-- A thread begins. -/
theorem concat (h : Raised start cell threads) (value : α) : Raised start cell (threads ++ [(value, .load)]) := by
  constructor
  · intro t ht
    rcases List.mem_append.1 ht with ht | ht
    · exact h.sound t ht
    · obtain rfl := List.mem_singleton.1 ht
      trivial
  · intro t ht hdone
    rcases List.mem_append.1 ht with ht | ht
    · exact h.le_cell t ht hdone
    · obtain rfl := List.mem_singleton.1 ht
      cases hdone
  · exact h.start_le
  · rcases h.attained with heq | ⟨t, ht, heq⟩
    · exact .inl heq
    · exact .inr ⟨t, List.mem_append_left _ ht, heq⟩

/-- A thread takes a step. -/
theorem advance (h : Raised start cell threads) {i : ℕ} (hi : threads[i]? = some (value, p)) (spurious : Bool) :
    Raised start (Extremum.advance value cell spurious p).1
      (threads.set i (value, (Extremum.advance value cell spurious p).2)) := by
  have hmem := List.mem_of_getElem? hi
  obtain ⟨hsound, hle, hcell, hdone⟩ := advance_spec (h.sound _ hmem) (h.le_cell _ hmem) spurious
  constructor
  · intro t ht
    rcases List.mem_or_eq_of_mem_set ht with ht | rfl
    · exact h.sound t ht
    · exact hsound
  · intro t ht hfinished
    rcases List.mem_or_eq_of_mem_set ht with ht | rfl
    · exact (h.le_cell t ht hfinished).trans hle
    · exact hdone hfinished
  · exact h.start_le.trans hle
  · rcases hcell with heq | heq
    · rcases h.attained with hstart | ⟨t, ht, hvalue⟩
      · exact .inl (heq.trans hstart)
      · refine .inr ?_
        -- the thread that moves keeps its value
        rcases mem_set_of_mem hi (a := (value, (Extremum.advance value cell spurious p).2)) ht with rfl | ht
        · exact ⟨_, List.mem_of_getElem? (getElem?_set_self hi), heq.trans hvalue⟩
        · exact ⟨t, ht, heq.trans hvalue⟩
    · exact .inr ⟨_, List.mem_of_getElem? (getElem?_set_self hi), heq⟩

/-- **The cell is the greatest value** when all threads are through, if it started below them. -/
theorem isGreatest (h : Raised start cell threads) (hall : ∀ t ∈ threads, t.2 = .finished)
    (hstart : ∀ t ∈ threads, start ≤ t.1) (hne : threads ≠ []) :
    IsGreatest {v | v ∈ threads.map Prod.fst} cell := by
  have hub : ∀ t ∈ threads, t.1 ≤ cell := fun t ht => h.le_cell t ht (hall t ht)
  constructor
  · rcases h.attained with heq | ⟨t, ht, heq⟩
    · obtain ⟨t, ht⟩ := List.exists_mem_of_ne_nil threads hne
      have hcell : t.1 = cell := le_antisymm (hub t ht) (heq.le.trans (hstart t ht))
      exact List.mem_map.2 ⟨t, ht, hcell⟩
    · exact List.mem_map.2 ⟨t, ht, heq.symm⟩
  · intro v hv
    obtain ⟨t, ht, rfl⟩ := List.mem_map.1 hv
    exact hub t ht

/-- Without threads it is where it started. -/
theorem eq_start (h : Raised start cell ([] : List (α × Progress α))) : cell = start := by
  rcases h.attained with heq | ⟨t, ht, -⟩
  · exact heq
  · cases ht

end Raised

/-! ### What the cell holds -/

/-- The cell holds where it started, or the value of a thread that is through. -/
def Attained (start cell : α) (threads : List (α × Progress α)) : Prop :=
  cell = start ∨ ∃ t ∈ threads, t.2 = .finished ∧ cell = t.1

namespace Attained

variable {start cell value : α} {threads : List (α × Progress α)} {p : Progress α}

/-- A thread begins. -/
theorem concat (h : Attained start cell threads) (t : α × Progress α) : Attained start cell (threads ++ [t]) := by
  rcases h with heq | ⟨t, ht, hdone, heq⟩
  · exact .inl heq
  · exact .inr ⟨t, List.mem_append_left _ ht, hdone, heq⟩

variable [LinearOrder α]

/-- A thread takes a step. The one that raises the cell is through with that. -/
theorem advance (h : Attained start cell threads) {i : ℕ} (hi : threads[i]? = some (value, p)) (spurious : Bool) :
    Attained start (Extremum.advance value cell spurious p).1
      (threads.set i (value, (Extremum.advance value cell spurious p).2)) := by
  rcases advance_cell value cell spurious p with hcell | ⟨hcell, hdone⟩
  · rw [hcell]
    rcases h with heq | ⟨t, ht, hdone, heq⟩
    · exact .inl heq
    · refine .inr ?_
      rcases mem_set_of_mem hi (a := (value, (Extremum.advance value cell spurious p).2)) ht with rfl | ht
      · -- the thread that moves was through already
        obtain rfl : p = .finished := hdone
        exact ⟨_, List.mem_of_getElem? (getElem?_set_self hi), rfl, heq⟩
      · exact ⟨t, ht, hdone, heq⟩
  · exact .inr ⟨_, List.mem_of_getElem? (getElem?_set_self hi), hdone, hcell⟩

/-- **The cell is no less than a value above its start exactly when** a thread with a value that is
no less is through. -/
theorem le_iff (h : Attained start cell threads) (hraised : Raised start cell threads) (hne : cell ≠ start) (v : α) :
    v ≤ cell ↔ ∃ t ∈ threads, t.2 = .finished ∧ v ≤ t.1 := by
  constructor
  · intro hle
    rcases h with heq | ⟨t, ht, hdone, heq⟩
    · exact absurd heq hne
    · exact ⟨t, ht, hdone, heq ▸ hle⟩
  · rintro ⟨t, ht, hdone, hle⟩
    exact hle.trans (hraised.le_cell t ht hdone)

end Attained

end SensorBridge.Foundation.Extremum
