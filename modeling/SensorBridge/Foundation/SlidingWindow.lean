import Mathlib.Algebra.GroupWithZero.Nat
import Mathlib.Data.Fin.Basic
import Mathlib.Data.List.DropRight
import Mathlib.Data.List.OfFn
import Mathlib.Data.List.Rotate

/-!
# Sliding windows

A ring of slots with an index: the slot it points at is written next, and the index moves on to
the one behind it, back to the first from the last. Read from the index on (`oldestFirst`), a
write drops the first entry and appends the new one (`oldestFirst_set`).

So the ring holds a window of what has been written. It `Slides` over a list when, read so, it
is the end of the list with blanks before it; every write appends to the list
(`Slides.write`), and a change of all slots alike changes the list alike (`Slides.map`).
-/

namespace SensorBridge.Foundation.SlidingWindow

universe u v

variable {α : Type u} {β : Type v}

/-! ### The end of a list -/

theorem rtake_of_length_le {l : List α} {n : ℕ} (h : l.length ≤ n) : l.rtake n = l := by
  rw [List.rtake, Nat.sub_eq_zero_of_le h, List.drop_zero]

theorem map_rtake (f : α → β) (l : List α) (n : ℕ) : (l.rtake n).map f = (l.map f).rtake n := by
  rw [List.rtake, List.rtake, List.map_drop, List.length_map]

/-- The end of a list that is no shorter does not see what comes before. -/
theorem rtake_append_of_le (l : List α) {m : List α} {n : ℕ} (h : n ≤ m.length) :
    (l ++ m).rtake n = m.rtake n := by
  have hdrop : (l ++ m).length - n = l.length + (m.length - n) := by
    rw [List.length_append]
    omega
  rw [List.rtake, List.rtake, hdrop, List.drop_length_add_append]

/-- An item is appended to a list whose end is as long as it should be. -/
theorem rtake_concat {l : List α} {n : ℕ} (hpos : 0 < n) (h : n ≤ l.length) (x : α) :
    (l ++ [x]).rtake n = (l.rtake n).tail ++ [x] := by
  obtain ⟨m, rfl⟩ := Nat.exists_eq_succ_of_ne_zero hpos.ne'
  have htail : (l.rtake (m + 1)).tail = l.rtake m := by
    rw [List.rtake, List.rtake, List.tail_drop]
    congr 1
    omega
  rw [List.rtake_concat_succ, htail]

/-- Before the end of a shorter list come blanks. -/
theorem rtake_replicate_append (blank : α) (xs : List α) (n : ℕ) :
    (List.replicate n blank ++ xs).rtake n = List.replicate (n - xs.length) blank ++ xs.rtake n := by
  rcases Nat.lt_or_ge xs.length n with hlt | hle
  · have hdrop : n + xs.length - n = xs.length := by omega
    rw [rtake_of_length_le hlt.le, List.rtake, List.length_append, List.length_replicate, hdrop,
      List.drop_append_of_le_length (by rw [List.length_replicate]; exact hlt.le), List.drop_replicate]
  · rw [rtake_append_of_le _ hle, Nat.sub_eq_zero_of_le hle, List.replicate_zero, List.nil_append]

/-! ### The ring -/

/-- The slots from the index on. -/
def oldestFirst (slots : List α) (next : ℕ) : List α := slots.rotate next

theorem oldestFirst_perm (slots : List α) (next : ℕ) : (oldestFirst slots next).Perm slots :=
  List.rotate_perm slots next

/-- **A write** drops the oldest slot and appends the newest. -/
theorem oldestFirst_set {slots : List α} {next : ℕ} (h : next < slots.length) (x : α) :
    oldestFirst (slots.set next x) ((next + 1) % slots.length) = (oldestFirst slots next).tail ++ [x] := by
  have hdrop : (slots.set next x).drop (next + 1) = slots.drop (next + 1) :=
    List.drop_set_of_lt (Nat.lt_succ_self next)
  have htake : (slots.set next x).take (next + 1) = slots.take next ++ [x] := by
    have hlength : next < (slots.set next x).length := by rwa [List.length_set]
    rw [List.take_succ_eq_append_getElem hlength, List.getElem_set_self, List.take_set_of_le le_rfl]
  have hmod : oldestFirst (slots.set next x) ((next + 1) % slots.length) = (slots.set next x).rotate (next + 1) := by
    rw [oldestFirst, ← List.rotate_mod (slots.set next x) (next + 1), List.length_set]
  have hle : next + 1 ≤ (slots.set next x).length := by rwa [List.length_set]
  rw [hmod, List.rotate_eq_drop_append_take hle, hdrop, htake, oldestFirst,
    List.rotate_eq_drop_append_take h.le, List.drop_eq_getElem_cons h, List.cons_append, List.tail_cons,
    List.append_assoc]

/-- **A ring that slides** over a list: from the index on, the slots are the end of the list, with
blanks before it, and the index has gone round with the list. -/
structure Slides (blank : α) (slots : List α) (next : ℕ) (xs : List α) : Prop where
  next_eq : next = xs.length % slots.length
  window_eq : oldestFirst slots next = (List.replicate slots.length blank ++ xs).rtake slots.length

section
variable {blank : α} {slots : List α} {next : ℕ} {xs : List α}

/-- A blank ring slides over nothing. -/
theorem slides_nil (blank : α) (n : ℕ) : Slides blank (List.replicate n blank) 0 [] where
  next_eq := (Nat.zero_mod _).symm
  window_eq := by
    rw [oldestFirst, List.rotate_zero, List.append_nil, List.length_replicate,
      rtake_of_length_le (List.length_replicate ..).le]

theorem Slides.write (h : Slides blank slots next xs) (hpos : 0 < slots.length) (x : α) :
    Slides blank (slots.set next x) ((next + 1) % slots.length) (xs ++ [x]) := by
  have hnext : next < slots.length := h.next_eq ▸ Nat.mod_lt _ hpos
  refine ⟨?_, ?_⟩
  · rw [List.length_set, List.length_append, List.length_singleton, h.next_eq, Nat.mod_add_mod]
  · have hle : slots.length ≤ (List.replicate slots.length blank ++ xs).length := by
      rw [List.length_append, List.length_replicate]
      omega
    rw [oldestFirst_set hnext, h.window_eq, List.length_set, ← List.append_assoc,
      rtake_concat hpos hle]

/-- All slots are changed alike, and a blank stays one. -/
theorem Slides.map {f : α → β} (h : Slides blank slots next xs) :
    Slides (f blank) (slots.map f) next (xs.map f) := by
  refine ⟨?_, ?_⟩
  · rw [List.length_map, List.length_map, h.next_eq]
  · rw [oldestFirst, ← List.map_rotate, ← oldestFirst, h.window_eq, map_rtake, List.map_append,
      List.map_replicate, List.length_map]

theorem Slides.perm (h : Slides blank slots next xs) :
    slots.Perm ((List.replicate slots.length blank ++ xs).rtake slots.length) :=
  h.window_eq ▸ (oldestFirst_perm slots next).symm

/-- Once it is full, the slots are the end of the list. -/
theorem Slides.oldestFirst_of_le (h : Slides blank slots next xs) (hle : slots.length ≤ xs.length) :
    oldestFirst slots next = xs.rtake slots.length := by
  rw [h.window_eq, rtake_append_of_le _ hle]

/-- And the one that is written next is the oldest of these. -/
theorem Slides.getElem?_next (h : Slides blank slots next xs) (hpos : 0 < slots.length)
    (hle : slots.length ≤ xs.length) : slots[next]? = (xs.rtake slots.length).head? := by
  rw [← h.oldestFirst_of_le hle, oldestFirst, List.head?_rotate (h.next_eq ▸ Nat.mod_lt _ hpos)]

/-- When a property is kept from an entry to those after it, and no blank has it, the slot that is written
next has it only if all have. -/
theorem Slides.forall_of_next {p : α → Prop} (h : Slides blank slots next xs) (hblank : ¬ p blank)
    (hxs : xs.Pairwise fun x y => p x → p y) {x : α} (hx : slots[next]? = some x) (hp : p x) :
    ∀ y ∈ slots, p y := by
  obtain ⟨hnext, -⟩ := List.getElem?_eq_some_iff.1 hx
  obtain ⟨later, hlater⟩ := List.head?_eq_some_iff.1 ((List.head?_rotate hnext).trans hx)
  have hmono : (List.replicate slots.length blank ++ xs).Pairwise fun x y => p x → p y := by
    refine List.pairwise_append.2 ⟨List.pairwise_replicate.2 (.inr id), hxs, fun y hy _ _ hpy => ?_⟩
    exact absurd (List.eq_of_mem_replicate hy ▸ hpy) hblank
  have hwindow : (oldestFirst slots next).Pairwise fun x y => p x → p y := by
    rw [h.window_eq]
    exact hmono.sublist (List.drop_sublist _ _)
  intro y hy
  rw [← (oldestFirst_perm slots next).mem_iff] at hy
  rw [oldestFirst, hlater] at hy hwindow
  rcases List.mem_cons.1 hy with rfl | hy
  · exact hp
  · exact List.rel_of_pairwise_cons hwindow hy hp

/-- Until it is full, the list stands in the first slots. -/
theorem Slides.take_of_lt (h : Slides blank slots next xs) (hlt : xs.length < slots.length) :
    slots.take xs.length = xs := by
  have hnext : next = xs.length := by rw [h.next_eq, Nat.mod_eq_of_lt hlt]
  have hwindow := h.window_eq
  rw [oldestFirst, hnext, List.rotate_eq_drop_append_take hlt.le, rtake_replicate_append,
    rtake_of_length_le hlt.le] at hwindow
  exact (List.append_inj hwindow (by rw [List.length_drop, List.length_replicate])).2

/-- **The slots in use hold the window**, in some order. -/
theorem Slides.take_perm (h : Slides blank slots next xs) :
    (slots.take (min xs.length slots.length)).Perm (xs.rtake slots.length) := by
  rcases Nat.lt_or_ge xs.length slots.length with hlt | hle
  · rw [Nat.min_eq_left hlt.le, h.take_of_lt hlt, rtake_of_length_le hlt.le]
  · rw [Nat.min_eq_right hle, List.take_length, ← h.oldestFirst_of_le hle]
    exact (oldestFirst_perm slots next).symm

end

/-! ### Arrays -/

/-- An array, as a function of its index, is written at one. -/
theorem ofFn_update {n : ℕ} (f : Fin n → α) (i : Fin n) (x : α) :
    List.ofFn (Function.update f i x) = (List.ofFn f).set i x := by
  refine List.ext_getElem (by simp) ?_
  intro j hj _
  rw [List.getElem_ofFn, List.getElem_set, List.getElem_ofFn]
  by_cases hij : i.val = j
  · subst hij
    rw [if_pos rfl, Function.update_self]
  · rw [if_neg hij, Function.update_of_ne fun hji => hij (congrArg Fin.val hji).symm]

theorem slides_ofFn {n : ℕ} [NeZero n] (blank : α) :
    Slides blank (List.ofFn fun _ : Fin n => blank) (0 : Fin n) [] := by
  rw [List.ofFn_const, Fin.val_zero]
  exact slides_nil blank n

/-- A write of an array whose index is one of its own. -/
theorem Slides.update {n : ℕ} [NeZero n] {blank : α} {f : Fin n → α} {i : Fin n} {xs : List α}
    (h : Slides blank (List.ofFn f) i xs) (x : α) :
    Slides blank (List.ofFn (Function.update f i x)) (i + 1 : Fin n) (xs ++ [x]) := by
  have hwrite := h.write (by simpa using Nat.pos_of_neZero n) x
  have hnext : ((i + 1 : Fin n) : ℕ) = (i + 1) % n := by
    rw [Fin.val_add, Fin.val_one', Nat.add_mod_mod]
  rw [List.length_ofFn, ← ofFn_update, ← hnext] at hwrite
  exact hwrite

/-- An array of which the first `n` entries count is written at an index. -/
theorem map_range_update (f : ℕ → α) (n i : ℕ) (x : α) :
    (List.range n).map (Function.update f i x) = ((List.range n).map f).set i x := by
  refine List.ext_getElem (by simp) ?_
  intro j hj _
  rw [List.getElem_map, List.getElem_range, List.getElem_set, List.getElem_map, List.getElem_range]
  by_cases hij : i = j
  · subst hij
    rw [if_pos rfl, Function.update_self]
  · rw [if_neg hij, Function.update_of_ne (Ne.symm hij)]

end SensorBridge.Foundation.SlidingWindow
