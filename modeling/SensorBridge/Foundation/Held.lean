import SensorBridge.Foundation.Threads

/-!
# Calls in the hands of threads

A thread that uses an object makes calls of it, and the object keeps a table of its calls. When every call
that has not returned is in the hands of a thread, and no thread is in a call any more, all calls have
returned (`Held.all_done`). The lemmas say how a thread begins a call, goes on with it and leaves it.
-/

namespace SensorBridge.Foundation

open Threads

universe u v

variable {β : Type u} {τ : Type v} {done : β → Prop} {holder : τ → Option ℕ} {calls : List β} {threads : List τ}
  {t t' : τ} {c : β} {i k : ℕ}

theorem filterMap_cons {γ : Type u} (f : τ → Option γ) (t : τ) (threads : List τ) :
    (t :: threads).filterMap f = (f t).toList ++ threads.filterMap f := by
  cases h : f t <;> simp [h]

/-- What the entries have to show after thread `k` has moved. -/
theorem filterMap_set_perm {γ : Type u} {a : τ} (f : τ → Option γ) (hk : threads[k]? = some t) :
    ((f t).toList ++ (threads.set k a).filterMap f).Perm ((f a).toList ++ threads.filterMap f) := by
  induction threads generalizing k with
  | nil => simp at hk
  | cons t₀ threads ih =>
    cases k with
    | zero =>
      obtain rfl := Option.some.inj hk
      rw [List.set_cons_zero, filterMap_cons, filterMap_cons]
      exact List.perm_append_comm_assoc _ _ _
    | succ k =>
      rw [List.set_cons_succ, filterMap_cons, filterMap_cons]
      exact (List.perm_append_comm_assoc _ _ _).trans
        (((ih hk).append_left _).trans (List.perm_append_comm_assoc _ _ _))

/-- Every call that has not returned is in the hands of a thread. -/
def Held (done : β → Prop) (holder : τ → Option ℕ) (calls : List β) (threads : List τ) : Prop :=
  ∀ i c, calls[i]? = some c → done c ∨ ∃ t ∈ threads, holder t = some i

namespace Held

theorem nil (done : β → Prop) (holder : τ → Option ℕ) : Held done holder [] [] := by
  intro i c hi
  simp at hi

/-- A thread comes. -/
theorem concat (h : Held done holder calls threads) (t : τ) : Held done holder calls (threads ++ [t]) := by
  intro i c hi
  rcases h i c hi with hdone | ⟨t', ht', hholds⟩
  · exact .inl hdone
  · exact .inr ⟨t', List.mem_append_left _ ht', hholds⟩

/-- A thread goes on, from a call only when that has returned. -/
theorem set (h : Held done holder calls threads) (hk : threads[k]? = some t)
    (hleft : ∀ i c, holder t = some i → calls[i]? = some c → done c) : Held done holder calls (threads.set k t') := by
  intro i c hi
  rcases h i c hi with hdone | ⟨t'', ht'', hholds⟩
  · exact .inl hdone
  · rcases mem_set_of_mem (a := t') hk ht'' with rfl | hmem
    · exact .inl (hleft i c hholds hi)
    · exact .inr ⟨t'', hmem, hholds⟩

/-- A thread that is in no call begins one. -/
theorem begin (h : Held done holder calls threads) (hk : threads[k]? = some t) (hnone : holder t = none)
    (hholds : holder t' = some calls.length) (c : β) : Held done holder (calls ++ [c]) (threads.set k t') := by
  have hold : Held done holder calls (threads.set k t') := h.set hk fun i _ hi _ => by
    rw [hnone] at hi
    cases hi
  intro i c' hi
  rcases of_getElem?_concat hi with ⟨rfl, -⟩ | hi
  · exact .inr ⟨t', List.mem_of_getElem? (getElem?_set_self hk), hholds⟩
  · exact hold i c' hi

/-- A thread goes on in its call. -/
theorem move (h : Held done holder calls threads) (hk : threads[k]? = some t) (hholds : holder t = some i) (c : β) :
    Held done holder (calls.set i c) threads := by
  intro j c' hj
  rcases of_getElem?_set hj with ⟨rfl, -⟩ | ⟨-, hj⟩
  · exact .inr ⟨t, List.mem_of_getElem? hk, hholds⟩
  · exact h j c' hj

/-- No thread is in a call. -/
theorem all_done (h : Held done holder calls threads) (hnone : ∀ t ∈ threads, holder t = none) :
    ∀ c ∈ calls, done c := by
  intro c hc
  obtain ⟨i, hi⟩ := List.mem_iff_getElem?.1 hc
  rcases h i c hi with hdone | ⟨t, ht, hholds⟩
  · exact hdone
  · rw [hnone t ht] at hholds
    cases hholds

end Held

end SensorBridge.Foundation
