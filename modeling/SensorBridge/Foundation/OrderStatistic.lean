import Mathlib.Algebra.Ring.Nat
import Mathlib.Data.List.GetD
import Mathlib.Data.List.Sort

/-!
# Order statistics

The smallest, second smallest and so on of a list: `kth l k` is at position `k` of the sorted
list, counted from zero. At most `k` values are less than it, and more than `k` are no greater
(`countP_lt_kth`, `lt_countP_le_kth`). `sum_countP_eq` counts a list class by class, as a histogram
does.
-/

namespace SensorBridge.Foundation.OrderStatistic

universe u v

variable {α : Type u} {β : Type v}

section
variable [LinearOrder α] {l : List α} {k : ℕ}

/-- The value at position `k` of the sorted list; a default beyond its end. -/
def kth [Inhabited α] (l : List α) (k : ℕ) : α := (l.insertionSort (· ≤ ·)).getD k default

/-- At a position of a sorted list, at most as many values are less as come before it. -/
theorem countP_lt_le_of_pairwise (h : l.Pairwise (· ≤ ·)) (hk : k < l.length) :
    l.countP (fun x => decide (x < l[k])) ≤ k := by
  have hdrop : (l.drop k).countP (fun x => decide (x < l[k])) = 0 := by
    refine List.countP_eq_zero.2 fun x hx => ?_
    rw [List.drop_eq_getElem_cons hk] at hx
    rcases List.mem_cons.1 hx with rfl | hx
    · simp
    · have hle := (List.pairwise_cons.1 (List.drop_eq_getElem_cons hk ▸ h.drop)).1 x hx
      simpa using hle
  have htake : (l.take k).countP (fun x => decide (x < l[k])) ≤ k :=
    List.countP_le_length.trans (List.length_take_le k l)
  have hsplit : l.countP (fun x => decide (x < l[k])) =
      (l.take k ++ l.drop k).countP (fun x => decide (x < l[k])) := by rw [List.take_append_drop]
  rw [hsplit, List.countP_append, hdrop]
  exact htake

/-- And more values than come before it are no greater. -/
theorem lt_countP_le_of_pairwise (h : l.Pairwise (· ≤ ·)) (hk : k < l.length) :
    k < l.countP (fun x => decide (x ≤ l[k])) := by
  have htake : (l.take (k + 1)).countP (fun x => decide (x ≤ l[k])) = (l.take (k + 1)).length := by
    refine List.countP_eq_length.2 fun x hx => ?_
    rw [List.take_succ_eq_append_getElem hk] at hx
    rcases List.mem_append.1 hx with hx | hx
    · have hpairwise := h.take (i := k + 1)
      rw [List.take_succ_eq_append_getElem hk] at hpairwise
      exact decide_eq_true ((List.pairwise_append.1 hpairwise).2.2 x hx _ (List.mem_singleton_self _))
    · obtain rfl := List.mem_singleton.1 hx
      simp
  have hle := (List.take_sublist (k + 1) l).countP_le (p := fun x => decide (x ≤ l[k]))
  rw [htake, List.length_take] at hle
  omega

variable [Inhabited α]

/-- In a sorted permutation of the list it is where it should be. -/
theorem kth_eq_getD {sorted : List α} (hperm : sorted.Perm l) (hsorted : sorted.Pairwise (· ≤ ·)) (k : ℕ) :
    kth l k = sorted.getD k default := by
  have heq : sorted = l.insertionSort (· ≤ ·) :=
    (hperm.trans (List.perm_insertionSort (· ≤ ·) l).symm).eq_of_pairwise' hsorted
      (List.pairwise_insertionSort _ l)
  rw [kth, heq]

theorem kth_mem (hk : k < l.length) : kth l k ∈ l := by
  have hk' : k < (l.insertionSort (· ≤ ·)).length := by rwa [List.length_insertionSort]
  rw [kth, List.getD_eq_getElem _ _ hk']
  exact (List.perm_insertionSort (· ≤ ·) l).mem_iff.1 (List.getElem_mem hk')

/-- At a greater position is no smaller value. -/
theorem kth_mono {j : ℕ} (hkj : k ≤ j) (hj : j < l.length) : kth l k ≤ kth l j := by
  have hj' : j < (l.insertionSort (· ≤ ·)).length := by rwa [List.length_insertionSort]
  rw [kth, kth, List.getD_eq_getElem _ _ (hkj.trans_lt hj'), List.getD_eq_getElem _ _ hj']
  rcases hkj.eq_or_lt with rfl | hlt
  · exact le_rfl
  · exact List.pairwise_iff_getElem.1 (List.pairwise_insertionSort (· ≤ ·) l) k j (hlt.trans hj') hj' hlt

theorem countP_lt_kth (hk : k < l.length) : l.countP (fun x => decide (x < kth l k)) ≤ k := by
  have hk' : k < (l.insertionSort (· ≤ ·)).length := by rwa [List.length_insertionSort]
  rw [kth, List.getD_eq_getElem _ _ hk', ← (List.perm_insertionSort (· ≤ ·) l).countP_eq]
  exact countP_lt_le_of_pairwise (List.pairwise_insertionSort _ l) hk'

theorem lt_countP_le_kth (hk : k < l.length) : k < l.countP (fun x => decide (x ≤ kth l k)) := by
  have hk' : k < (l.insertionSort (· ≤ ·)).length := by rwa [List.length_insertionSort]
  rw [kth, List.getD_eq_getElem _ _ hk', ← (List.perm_insertionSort (· ≤ ·) l).countP_eq]
  exact lt_countP_le_of_pairwise (List.pairwise_insertionSort _ l) hk'

end

/-- A list counted class by class. -/
theorem sum_countP_eq [DecidableEq β] (f : α → β) (l : List α) {classes : List β} (h : classes.Nodup) :
    (classes.map fun b => l.countP fun x => decide (f x = b)).sum = l.countP fun x => decide (f x ∈ classes) := by
  induction classes with
  | nil => simp
  | cons b classes ih =>
    obtain ⟨hb, hclasses⟩ := List.nodup_cons.1 h
    rw [List.map_cons, List.sum_cons, ih hclasses]
    clear ih
    induction l with
    | nil => rfl
    | cons x l ih =>
      rw [List.countP_cons, List.countP_cons, List.countP_cons, ← ih]
      by_cases hx : f x = b
      · have hnot : f x ∉ classes := hx ▸ hb
        simp [hx, hb]
        omega
      · simp [hx]
        omega

/-! ### Lists whose entries are related -/

section
variable {R : α → β → Prop} {l : List α} {l' : List β} {k : ℕ}

theorem countP_le_of_forall₂ (h : List.Forall₂ R l l') {p : α → Bool} {q : β → Bool}
    (hpq : ∀ x y, R x y → q y = true → p x = true) : l'.countP q ≤ l.countP p := by
  induction h with
  | nil => exact le_rfl
  | @cons x y l l' hR _ ih =>
    rw [List.countP_cons, List.countP_cons]
    by_cases hq : q y = true
    · rw [if_pos hq, if_pos (hpq x y hR hq)]
      exact Nat.add_le_add_right ih 1
    · rw [if_neg hq]
      exact ih.trans (Nat.le_add_right _ _)

variable [LinearOrder α] [Inhabited α] [LinearOrder β] [Inhabited β] {g : β → α}

/-- An upper bound of one list, entry by entry, is one of its order statistics. -/
theorem kth_le_of_forall₂ (h : List.Forall₂ R l l') (hg : ∀ x y v, R x y → y ≤ v → x ≤ g v) (hk : k < l.length) :
    kth l k ≤ g (kth l' k) := by
  by_contra hlt
  have hmore : k < l'.countP (fun y => decide (y ≤ kth l' k)) := lt_countP_le_kth (h.length_eq ▸ hk)
  have hle : l'.countP (fun y => decide (y ≤ kth l' k)) ≤ l.countP (fun x => decide (x < kth l k)) := by
    refine countP_le_of_forall₂ h fun x y hR hy => ?_
    exact decide_eq_true ((hg x y _ hR (of_decide_eq_true hy)).trans_lt (not_le.1 hlt))
  exact absurd (hmore.trans_le (hle.trans (countP_lt_kth hk))) (lt_irrefl k)

/-- And a lower bound. -/
theorem le_kth_of_forall₂ (h : List.Forall₂ R l l') (hg : ∀ x y v, R x y → v ≤ y → g v ≤ x) (hk : k < l.length) :
    g (kth l' k) ≤ kth l k := by
  by_contra hlt
  have hmore : k < l.countP (fun x => decide (x ≤ kth l k)) := lt_countP_le_kth hk
  have hle : l.countP (fun x => decide (x ≤ kth l k)) ≤ l'.countP (fun y => decide (y < kth l' k)) := by
    refine countP_le_of_forall₂ (R := fun y x => R x y) h.flip fun y x hR hx => ?_
    refine decide_eq_true (lt_of_not_ge fun hy => ?_)
    exact absurd ((hg x y _ hR hy).trans (of_decide_eq_true hx)) hlt
  exact absurd (hmore.trans_le (hle.trans (countP_lt_kth (h.length_eq ▸ hk)))) (lt_irrefl k)

end

end SensorBridge.Foundation.OrderStatistic
