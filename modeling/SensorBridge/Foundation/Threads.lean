import Mathlib.Algebra.Ring.Nat
import Mathlib.Data.List.Basic

/-!
# Tables of threads

A list with one entry for each thread: a thread begins by being put at the end,
and moves by having its entry replaced. The lemmas say which entries a table has
after that, and what becomes of the number of entries of a kind. `AtMostOne` is
mutual exclusion: no two threads are of a kind at once.
-/

namespace SensorBridge.Foundation.Threads

universe u v

variable {β : Type u} {l : List β} {a b : β} {i j : ℕ}

/-- An entry after thread `i` has moved: thread `i`'s new one, or another thread's. -/
theorem of_getElem?_set (h : (l.set i a)[j]? = some b) :
    j = i ∧ b = a ∨ j ≠ i ∧ l[j]? = some b := by
  rw [List.getElem?_set] at h
  by_cases hij : i = j
  · subst hij
    rw [if_pos rfl] at h
    split at h
    · exact .inl ⟨rfl, (Option.some.inj h).symm⟩
    · cases h
  · rw [if_neg hij] at h
    exact .inr ⟨Ne.symm hij, h⟩

theorem getElem?_set_self (h : l[i]? = some b) : (l.set i a)[i]? = some a := by
  simp [(List.getElem?_eq_some_iff.mp h).1]

/-- What does not tell a thread's new entry from the old one sees no change. -/
theorem map_set_eq_self {γ : Type v} {f : β → γ} (h : l[i]? = some b) (hf : f a = f b) :
    (l.set i a).map f = l.map f := by
  obtain ⟨hi, rfl⟩ := List.getElem?_eq_some_iff.mp h
  have hmap : i < (l.map f).length := by rwa [List.length_map]
  rw [List.map_set, hf, ← List.getElem_map f (h := hmap), List.set_getElem_self]

/-- Another thread's entry stays when thread `i` moves. -/
theorem mem_set_of_mem (h : l[i]? = some b) {c : β} (hc : c ∈ l) : c = b ∨ c ∈ l.set i a := by
  obtain ⟨j, hj⟩ := List.mem_iff_getElem?.mp hc
  by_cases hij : i = j
  · subst hij
    exact .inl (Option.some.inj (hj.symm.trans h))
  · refine .inr (List.mem_of_getElem? (i := j) ?_)
    rwa [List.getElem?_set_ne hij]

/-- An entry after a thread has begun: the new one, or an old one. -/
theorem of_getElem?_concat (h : (l ++ [a])[j]? = some b) : j = l.length ∧ b = a ∨ l[j]? = some b := by
  rcases Nat.lt_trichotomy j l.length with hj | hj | hj
  · rw [List.getElem?_append_left hj] at h
    exact .inr h
  · subst hj
    rw [List.getElem?_concat_length] at h
    exact .inl ⟨rfl, (Option.some.inj h).symm⟩
  · rw [List.getElem?_eq_none (by simp; omega)] at h
    cases h

theorem getElem?_concat_of_some (h : l[j]? = some b) : (l ++ [a])[j]? = some b := by
  rw [List.getElem?_append_left (List.getElem?_eq_some_iff.mp h).1]
  exact h

/-- The last thread's entry, and what becomes of the table when that thread moves. -/
theorem exists_eq_concat (h : l[i]? = some b) (hi : i + 1 = l.length) :
    ∃ l', l = l' ++ [b] ∧ ∀ a, l.set i a = l' ++ [a] := by
  rcases List.eq_nil_or_concat' l with rfl | ⟨l', c, rfl⟩
  · cases hi
  · rw [List.length_append, List.length_singleton, Nat.add_right_cancel_iff] at hi
    subst hi
    rw [List.getElem?_concat_length] at h
    cases h
    exact ⟨l', rfl, fun a => by simp⟩

/-- How many entries are of a kind after thread `i` has moved. -/
theorem countP_set_eq (p : β → Bool) (h : l[i]? = some b) :
    (l.set i a).countP p + (if p b then 1 else 0) = l.countP p + (if p a then 1 else 0) := by
  obtain ⟨hi, rfl⟩ := List.getElem?_eq_some_iff.mp h
  rw [List.countP_set hi]
  have hpos : (if p l[i] then 1 else 0) ≤ l.countP p := by
    split_ifs with hp
    · exact List.countP_pos_iff.mpr ⟨l[i], List.getElem_mem hi, hp⟩
    · exact Nat.zero_le _
  omega

/-- When at most one entry is of a kind, two that are have the same place. -/
theorem eq_of_countP_le_one {p : β → Bool} {c : β} (h : l.countP p ≤ 1) (hi : l[i]? = some b) (hj : l[j]? = some c)
    (hb : p b = true) (hc : p c = true) : i = j := by
  induction l generalizing i j with
  | nil => simp at hi
  | cons d l ih =>
    have hnone : p d = true → ∀ e ∈ l, p e = false := by
      intro hd e he
      rw [List.countP_cons_of_pos hd] at h
      have hzero : l.countP p = 0 := by omega
      exact Bool.eq_false_iff.2 (List.countP_eq_zero.1 hzero e he)
    have hle : l.countP p ≤ 1 := by
      rw [List.countP_cons] at h
      omega
    cases i with
    | zero =>
      obtain rfl := Option.some.inj hi
      cases j with
      | zero => rfl
      | succ j =>
        rw [hnone hb c (List.mem_of_getElem? hj)] at hc
        cases hc
    | succ i =>
      cases j with
      | zero =>
        obtain rfl := Option.some.inj hj
        rw [hnone hc b (List.mem_of_getElem? hi)] at hb
        cases hb
      | succ j => rw [ih hle hi hj]

/-- What the entries amount to after thread `i` has moved. -/
theorem sum_map_set_eq (f : β → ℕ) (h : l[i]? = some b) :
    ((l.set i a).map f).sum + f b = (l.map f).sum + f a := by
  induction l generalizing i with
  | nil => simp at h
  | cons c l ih => cases i with
    | zero =>
      obtain rfl := Option.some.inj h
      rw [List.set_cons_zero, List.map_cons, List.map_cons, List.sum_cons, List.sum_cons]
      omega
    | succ i =>
      have hrest := ih (i := i) h
      rw [List.set_cons_succ, List.map_cons, List.map_cons, List.sum_cons, List.sum_cons]
      omega

/-! ### Mutual exclusion -/

/-- At most one thread is of a kind. -/
def AtMostOne (p : β → Bool) (l : List β) : Prop :=
  ∀ (i j : ℕ) (b c : β), l[i]? = some b → l[j]? = some c → p b = true → p c = true → i = j

section AtMostOne

variable {p : β → Bool}

theorem atMostOne_nil : AtMostOne p [] := by
  intro i j b c hi
  simp at hi

/-- A thread moves that was of the kind, or is not of the kind now. -/
theorem AtMostOne.set (h : AtMostOne p l) (hb : l[i]? = some b) (hp : p a = true → p b = true) :
    AtMostOne p (l.set i a) := by
  intro j k c d hj hk hc hd
  rcases of_getElem?_set hj with ⟨rfl, rfl⟩ | ⟨-, hj'⟩
  · rcases of_getElem?_set hk with ⟨rfl, -⟩ | ⟨-, hk'⟩
    · rfl
    · exact h j k b d hb hk' (hp hc) hd
  · rcases of_getElem?_set hk with ⟨rfl, rfl⟩ | ⟨-, hk'⟩
    · exact h j k c b hj' hb hc (hp hd)
    · exact h j k c d hj' hk' hc hd

/-- A thread moves when none is of the kind. -/
theorem atMostOne_set (h : ∀ b ∈ l, p b = false) : AtMostOne p (l.set i a) := by
  have hnone : ∀ j c, j ≠ i → (l.set i a)[j]? = some c → p c = true → False := by
    intro j c hji hj hc
    rcases of_getElem?_set hj with ⟨rfl, -⟩ | ⟨-, hj⟩
    · exact hji rfl
    · rw [h c (List.mem_of_getElem? hj)] at hc
      cases hc
  intro j k c d hj hk hc hd
  by_cases hji : j = i
  · by_cases hki : k = i
    · rw [hji, hki]
    · exact (hnone k d hki hk hd).elim
  · exact (hnone j c hji hj hc).elim

/-- A thread begins that is not of the kind. -/
theorem AtMostOne.concat (h : AtMostOne p l) (ha : p a = false) : AtMostOne p (l ++ [a]) := by
  intro j k c d hj hk hc hd
  rcases of_getElem?_concat hj with ⟨-, rfl⟩ | hj
  · rw [ha] at hc
    cases hc
  · rcases of_getElem?_concat hk with ⟨-, rfl⟩ | hk
    · rw [ha] at hd
      cases hd
    · exact h j k c d hj hk hc hd

/-- A thread begins when none is of the kind. -/
theorem atMostOne_concat (h : ∀ b ∈ l, p b = false) : AtMostOne p (l ++ [a]) := by
  intro j k c d hj hk hc hd
  rcases of_getElem?_concat hj with ⟨rfl, -⟩ | hj
  · rcases of_getElem?_concat hk with ⟨rfl, -⟩ | hk
    · rfl
    · rw [h d (List.mem_of_getElem? hk)] at hd
      cases hd
  · rw [h c (List.mem_of_getElem? hj)] at hc
    cases hc

/-- While a thread is of the kind, no other is. -/
theorem AtMostOne.eq_false (h : AtMostOne p l) (hb : l[i]? = some b) (hp : p b = true) {c : β}
    (hc : l[j]? = some c) (hji : j ≠ i) : p c = false := by
  cases hpc : p c with
  | false => rfl
  | true => exact absurd (h j i c b hc hb hpc hp) hji

end AtMostOne

end SensorBridge.Foundation.Threads
