import SensorBridge.Foundation.Threads
import Mathlib.Logic.Function.Basic
import Mathlib.Data.List.Basic

/-!
# Counted cells

A heap of cells that are freed when the last reference to them is dropped. Each cell counts its
references; a program has a list of handles, each of which refers to a cell or has been given up.

`Sound` says that the counts are right: a cell counts the handles that refer to it, and is there as long
as there is one. `values` is what the handles read. Each operation keeps the heap sound, and changes what
its own handle reads and nothing else: in a cell that others refer to nothing is written, and a cell that
is freed nobody reads.
-/

namespace SensorBridge.Foundation.RefCount

universe u

/-- Cells, with the number of references to each. -/
structure Heap (α : Type u) where
  cell : ℕ → Option α
  strong : ℕ → ℕ
  /-- The next cell to be allocated. -/
  next : ℕ

namespace Heap

variable {α : Type u}

/-- No cells. -/
def empty : Heap α := ⟨fun _ => none, fun _ => 0, 0⟩

/-- A new cell, with one reference. -/
def alloc (h : Heap α) (v : α) : Heap α :=
  ⟨Function.update h.cell h.next (some v), Function.update h.strong h.next 1, h.next + 1⟩

/-- One more reference. -/
def retain (h : Heap α) (p : ℕ) : Heap α := { h with strong := Function.update h.strong p (h.strong p + 1) }

/-- One reference less; the last frees the cell. -/
def release (h : Heap α) (p : ℕ) : Heap α :=
  { h with
    cell := if h.strong p = 1 then Function.update h.cell p none else h.cell
    strong := Function.update h.strong p (h.strong p - 1) }

/-- A write. -/
def put (h : Heap α) (p : ℕ) (v : α) : Heap α := { h with cell := Function.update h.cell p (some v) }

/-- What the handles read. -/
def values (h : Heap α) (refs : List (Option ℕ)) : List (Option α) := refs.map fun r => r.bind h.cell

/-- **The counts are right.** -/
structure Sound (h : Heap α) (refs : List (Option ℕ)) : Prop where
  /-- A cell counts the handles that refer to it. -/
  strong_eq : ∀ p, h.strong p = refs.count (some p)
  /-- It is there as long as there is one. -/
  isSome_iff : ∀ p, (h.cell p).isSome = true ↔ 0 < h.strong p
  /-- It has been allocated. -/
  lt_next : ∀ p, 0 < h.strong p → p < h.next

variable {h : Heap α} {refs : List (Option ℕ)} {i p : ℕ} {v : α}

/-! ### What is counted -/

/-- What becomes of a count when a handle changes. -/
theorem count_set {r : Option ℕ} (hi : refs[i]? = some r) (r' : Option ℕ) (q : ℕ) :
    (refs.set i r').count (some q) + (if r = some q then 1 else 0) =
      refs.count (some q) + if r' = some q then 1 else 0 := by
  have hset := Threads.countP_set_eq (a := r') (· == some q) hi
  simpa [List.count] using hset

theorem Sound.mem_iff (hs : Sound h refs) : some p ∈ refs ↔ 0 < h.strong p := by
  rw [hs.strong_eq, List.count_pos_iff]

/-- The counts do not tell who refers to what. -/
theorem Sound.congr (hs : Sound h refs) {refs' : List (Option ℕ)}
    (hcount : ∀ q, refs'.count (some q) = refs.count (some q)) : Sound h refs' :=
  ⟨fun q => (hs.strong_eq q).trans (hcount q).symm, hs.isSome_iff, hs.lt_next⟩

theorem sound_empty : Sound (empty : Heap α) [] where
  strong_eq _ := rfl
  isSome_iff _ := by simp [empty]
  lt_next _ hp := absurd hp (Nat.lt_irrefl 0)

/-- The next cell is not referred to. -/
theorem Sound.next_not_mem (hs : Sound h refs) : some h.next ∉ refs :=
  fun hmem => Nat.lt_irrefl _ (hs.lt_next _ (hs.mem_iff.1 hmem))

/-- A reference to a new cell. -/
theorem Sound.alloc (hs : Sound h refs) (v : α) : Sound (h.alloc v) (refs ++ [some h.next]) := by
  have hnew : refs.count (some h.next) = 0 := List.count_eq_zero.2 hs.next_not_mem
  refine ⟨fun q => ?_, fun q => ?_, fun q hq => ?_⟩
  · by_cases hqn : q = h.next
    · subst hqn
      simp [Heap.alloc, hnew]
    · have hne : (some h.next == some q) = false := by simpa using Ne.symm hqn
      simp [Heap.alloc, Function.update_of_ne hqn, hs.strong_eq, List.count_singleton, hne]
  · by_cases hqn : q = h.next
    · subst hqn
      simp [Heap.alloc]
    · simpa [Heap.alloc, Function.update_of_ne hqn] using hs.isSome_iff q
  · by_cases hqn : q = h.next
    · exact hqn ▸ Nat.lt_succ_self _
    · simp only [Heap.alloc, Function.update_of_ne hqn] at hq ⊢
      exact Nat.lt_succ_of_lt (hs.lt_next q hq)

/-- One more handle to a cell. -/
theorem Sound.retain (hs : Sound h refs) (hp : some p ∈ refs) : Sound (h.retain p) (refs ++ [some p]) := by
  have hpos := hs.mem_iff.1 hp
  refine ⟨fun q => ?_, fun q => ?_, fun q hq => ?_⟩
  · by_cases hqp : q = p
    · subst hqp
      simp [Heap.retain, hs.strong_eq]
    · have hne : (some p == some q) = false := by simpa using Ne.symm hqp
      simp [Heap.retain, Function.update_of_ne hqp, hs.strong_eq, List.count_singleton, hne]
  · by_cases hqp : q = p
    · subst hqp
      simpa [Heap.retain] using (hs.isSome_iff q).2 hpos
    · simpa [Heap.retain, Function.update_of_ne hqp] using hs.isSome_iff q
  · by_cases hqp : q = p
    · exact hqp ▸ hs.lt_next p hpos
    · simp only [Heap.retain, Function.update_of_ne hqp] at hq ⊢
      exact hs.lt_next q hq

/-- A handle is given up. -/
theorem Sound.release (hs : Sound h refs) (hi : refs[i]? = some (some p)) :
    Sound (h.release p) (refs.set i none) := by
  have hpos := hs.mem_iff.1 (List.mem_of_getElem? hi)
  have hset := fun q => count_set hi none q
  refine ⟨fun q => ?_, fun q => ?_, fun q hq => ?_⟩
  · have hq := hset q
    by_cases hqp : q = p
    · subst hqp
      have hstrong := hs.strong_eq q
      simp only [if_true, reduceCtorEq, if_false] at hq
      simp only [Heap.release, Function.update_self]
      omega
    · have hne : some p ≠ some q := by simpa using Ne.symm hqp
      simp only [hne, reduceCtorEq, if_false, Nat.add_zero] at hq
      simp only [Heap.release, Function.update_of_ne hqp]
      rw [hq, hs.strong_eq]
  · by_cases hqp : q = p
    · subst hqp
      by_cases hone : h.strong q = 1
      · simp [Heap.release, hone]
      · have hmore : 0 < h.strong q - 1 := by omega
        simp only [Heap.release, hone, if_false, Function.update_self]
        exact iff_of_true ((hs.isSome_iff q).2 hpos) hmore
    · by_cases hone : h.strong p = 1
      · simpa [Heap.release, hone, Function.update_of_ne hqp] using hs.isSome_iff q
      · simpa [Heap.release, hone, Function.update_of_ne hqp] using hs.isSome_iff q
  · by_cases hqp : q = p
    · exact hqp ▸ hs.lt_next p hpos
    · simp only [Heap.release, Function.update_of_ne hqp] at hq ⊢
      exact hs.lt_next q hq

/-- A write to a cell that is there. -/
theorem Sound.put (hs : Sound h refs) (hp : some p ∈ refs) (v : α) : Sound (h.put p v) refs := by
  have hpos := hs.mem_iff.1 hp
  refine ⟨hs.strong_eq, fun q => ?_, hs.lt_next⟩
  by_cases hqp : q = p
  · subst hqp
    simpa [Heap.put] using hpos
  · simpa [Heap.put, Function.update_of_ne hqp] using hs.isSome_iff q

/-! ### What is read -/

/-- Every handle reads something. -/
theorem Sound.isSome_cell (hs : Sound h refs) (hp : some p ∈ refs) : (h.cell p).isSome = true :=
  (hs.isSome_iff p).2 (hs.mem_iff.1 hp)

theorem values_congr {h' : Heap α} (hcell : ∀ q, some q ∈ refs → h'.cell q = h.cell q) :
    h'.values refs = h.values refs := by
  refine List.map_congr_left fun r hr => ?_
  cases r with
  | none => rfl
  | some q => exact hcell q hr

theorem values_set (r : Option ℕ) : h.values (refs.set i r) = (h.values refs).set i (r.bind h.cell) := List.map_set

theorem values_append (refs' : List (Option ℕ)) : h.values (refs ++ refs') = h.values refs ++ h.values refs' :=
  List.map_append

theorem getElem?_values (hi : refs[i]? = some (some p)) : (h.values refs)[i]? = some (h.cell p) := by
  rw [values, List.getElem?_map, hi]
  rfl

/-- A new cell is read by a new handle. -/
theorem Sound.values_alloc (hs : Sound h refs) (v : α) :
    (h.alloc v).values (refs ++ [some h.next]) = h.values refs ++ [some v] := by
  rw [values_append, values_congr (h := h)]
  · simp [values, Heap.alloc]
  · intro q hq
    have hne : q ≠ h.next := by
      rintro rfl
      exact hs.next_not_mem hq
    exact Function.update_of_ne hne _ _

theorem values_retain (p : ℕ) : (h.retain p).values (refs ++ [some p]) = h.values refs ++ [h.cell p] := by
  rw [values_append]
  rfl

/-- **What is freed nobody reads.** -/
theorem Sound.values_release (hs : Sound h refs) (hi : refs[i]? = some (some p)) :
    (h.release p).values (refs.set i none) = (h.values refs).set i none := by
  rw [values_congr (h := h), values_set]
  · rfl
  intro q hq
  have hpos := (hs.release hi).mem_iff.1 hq
  by_cases hone : h.strong p = 1
  · have hqp : q ≠ p := by
      rintro rfl
      simp [Heap.release, hone] at hpos
    simp [Heap.release, hone, Function.update_of_ne hqp]
  · simp [Heap.release, hone]

/-- **What only one handle refers to only that handle reads.** -/
theorem Sound.values_put (hs : Sound h refs) (hi : refs[i]? = some (some p)) (hone : h.strong p = 1) (v : α) :
    (h.put p v).values refs = (h.values refs).set i (some v) := by
  have hcount := count_set hi none p
  have hstrong := hs.strong_eq p
  simp only [if_true, reduceCtorEq, if_false] at hcount
  have hnot : some p ∉ refs.set i none := List.count_eq_zero.1 (by omega)
  have hothers : (h.put p v).values (refs.set i none) = h.values (refs.set i none) := by
    refine values_congr fun q hq => ?_
    have hqp : q ≠ p := by
      rintro rfl
      exact hnot hq
    exact Function.update_of_ne hqp _ _
  have hself : refs = (refs.set i none).set i (some p) := by
    obtain ⟨hlt, hget⟩ := List.getElem?_eq_some_iff.1 hi
    rw [List.set_set, ← hget, List.set_getElem_self]
  calc (h.put p v).values refs
      = (h.put p v).values ((refs.set i none).set i (some p)) := by rw [← hself]
    _ = ((h.put p v).values (refs.set i none)).set i (some v) := by
      rw [values_set]
      simp [Heap.put]
    _ = (h.values refs).set i (some v) := by
      rw [hothers, values_set, List.set_set]

/-- A handle is made to refer to a new cell, and its old one released. -/
theorem Sound.redirect (hs : Sound h refs) (hi : refs[i]? = some (some p)) (v : α) :
    Sound ((h.alloc v).release p) (refs.set i (some h.next)) ∧
      ((h.alloc v).release p).values (refs.set i (some h.next)) = (h.values refs).set i (some v) := by
  have hlt : i < refs.length := (List.getElem?_eq_some_iff.1 hi).1
  have halloc := hs.alloc v
  have hi' : (refs ++ [some h.next])[i]? = some (some p) := by rw [List.getElem?_append_left hlt, hi]
  have hrelease := halloc.release hi'
  have hvalues := halloc.values_release hi'
  rw [List.set_append_left _ _ hlt] at hrelease hvalues
  have hread : ((h.alloc v).release p).cell h.next = some v := by
    have hne : h.next ≠ p := by
      rintro rfl
      exact hs.next_not_mem (List.mem_of_getElem? hi)
    have hfresh : (h.alloc v).cell h.next = some v := Function.update_self _ _ _
    simp only [Heap.release]
    split_ifs
    · rw [Function.update_of_ne hne, hfresh]
    · exact hfresh
  constructor
  · refine hrelease.congr fun q => ?_
    have hnone : (refs.set i none)[i]? = some none := by simp [hlt]
    have hcount := count_set hnone (some h.next) q
    rw [List.set_set] at hcount
    rw [List.count_append, List.count_singleton]
    simp only [reduceCtorEq, if_false, Nat.add_zero] at hcount
    simpa using hcount
  · have hprefix : ((h.alloc v).release p).values (refs.set i none) = (h.values refs).set i none := by
      rw [hs.values_alloc, List.set_append_left _ _ (by simpa [values] using hlt), values_append] at hvalues
      exact (List.append_inj hvalues (by simp [values])).1
    have hset : refs.set i (some h.next) = (refs.set i none).set i (some h.next) := by rw [List.set_set]
    rw [hset, values_set, hprefix, List.set_set]
    exact congrArg _ hread

end Heap

end SensorBridge.Foundation.RefCount
