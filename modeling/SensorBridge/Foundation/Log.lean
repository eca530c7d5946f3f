import Mathlib.Data.List.Basic

/-!
# Logs

What a run has done, as a list of events to which each step adds at the end, and four
things to say of one. `Preceded p R l`: what comes before an event of the kind `p` is as `R`
says. `Since a p l obs`: the log ends with an event `a` and then `obs`, with no event of the
kind `p` in it. `Answered a p R l`: whenever an event of the kind `p` comes so after an `a`, it
is as `R` says of what came between. `Streak p n l`: the last `n` events are all of the kind
`p`. Each comes with what an added event makes of it.
-/

namespace SensorBridge.Foundation.Log

universe u

variable {ε : Type u} {l obs : List ε} {a e : ε} {p : ε → Bool} {R : List ε → ε → Prop}

/-- What comes before an event of the kind `p` is as `R` says. -/
def Preceded (p : ε → Prop) (R : List ε → ε → Prop) (l : List ε) : Prop :=
  ∀ l₁ e l₂, l = l₁ ++ e :: l₂ → p e → R l₁ e

section Preceded

variable {p : ε → Prop} {R : List ε → ε → Prop}

theorem preceded_nil : Preceded p R [] := by
  intro l₁ e l₂ h
  simp at h

theorem Preceded.concat (h : Preceded p R l) (he : p e → R l e) : Preceded p R (l ++ [e]) := by
  intro l₁ d l₂ hl hd
  rcases List.eq_nil_or_concat' l₂ with rfl | ⟨l₃, c, rfl⟩
  · obtain ⟨rfl, hde⟩ := List.append_inj' hl rfl
    obtain rfl := (List.cons.inj hde).1
    exact he hd
  · have hl' : l ++ [e] = (l₁ ++ d :: l₃) ++ [c] := by simpa using hl
    exact h l₁ d l₃ (List.append_inj' hl' rfl).1 hd

end Preceded

/-- The log ends with `a` and then `obs`, nothing of the kind `p`. -/
def Since (a : ε) (p : ε → Bool) (l obs : List ε) : Prop :=
  (∃ l₁, l = l₁ ++ a :: obs) ∧ ∀ e ∈ obs, p e = false

theorem not_since_nil : ¬ Since a p [] obs := by
  rintro ⟨⟨l₁, h⟩, -⟩
  simp at h

/-- What the log has since an `a`, after one more event: nothing, if that is the `a`, or the
event too. -/
theorem Since.of_concat (h : Since a p (l ++ [e]) obs) :
    obs = [] ∧ e = a ∨ ∃ obs', obs = obs' ++ [e] ∧ p e = false ∧ Since a p l obs' := by
  obtain ⟨⟨l₁, hl⟩, hobs⟩ := h
  rcases List.eq_nil_or_concat' obs with rfl | ⟨obs', d, rfl⟩
  · have := List.append_inj_right' hl rfl
    exact .inl ⟨rfl, (List.cons.inj this).1⟩
  · have hl' : l ++ [e] = (l₁ ++ a :: obs') ++ [d] := by simpa using hl
    obtain ⟨hinit, he⟩ := List.append_inj' hl' rfl
    obtain rfl := (List.cons.inj he).1
    refine .inr ⟨obs', rfl, hobs e (by simp), ⟨l₁, hinit⟩, ?_⟩
    intro d hd
    exact hobs d (by simp [hd])

/-- An event of the kind `p` ends what there was since an `a`. -/
theorem not_since_concat (he : p e = true) (hea : e ≠ a) : ¬ Since a p (l ++ [e]) obs := by
  intro h
  rcases h.of_concat with ⟨-, rfl⟩ | ⟨obs', -, hp, -⟩
  · exact hea rfl
  · rw [he] at hp
    cases hp

/-- The events of the kind `p` that come after an `a`, none of the kind between, are as `R`
says. -/
def Answered (a : ε) (p : ε → Bool) (R : List ε → ε → Prop) (l : List ε) : Prop :=
  ∀ l₁ l₂ e obs, l = l₁ ++ e :: l₂ → p e = true → Since a p l₁ obs → R obs e

theorem answered_nil : Answered a p R [] := by
  intro l₁ l₂ e obs h
  simp at h

theorem answered_iff : Answered a p R l ↔
    Preceded (fun e => p e = true) (fun l₁ e => ∀ obs, Since a p l₁ obs → R obs e) l := by
  constructor
  · intro h l₁ e l₂ hl he obs
    exact h l₁ l₂ e obs hl he
  · intro h l₁ l₂ e obs hl he
    exact h l₁ e l₂ hl he obs

theorem Answered.concat (h : Answered a p R l)
    (he : p e = true → ∀ obs, Since a p l obs → R obs e) : Answered a p R (l ++ [e]) :=
  answered_iff.mpr ((answered_iff.mp h).concat he)

/-! ### Streaks -/

/-- The last `n` events are of the kind `p`. -/
def Streak (p : ε → Prop) (n : ℕ) (l : List ε) : Prop :=
  ∃ l₁ run, l = l₁ ++ run ∧ run.length = n ∧ ∀ e ∈ run, p e

variable {p : ε → Prop} {m n : ℕ}

theorem streak_zero : Streak p 0 l := ⟨l, [], by simp, rfl, by simp⟩

theorem Streak.concat (h : Streak p n l) (he : p e) : Streak p (n + 1) (l ++ [e]) := by
  obtain ⟨l₁, run, rfl, rfl, hrun⟩ := h
  refine ⟨l₁, run ++ [e], by simp, by simp, ?_⟩
  intro d hd
  rcases List.mem_append.mp hd with hd | hd
  · exact hrun d hd
  · rw [List.mem_singleton.mp hd]
    exact he

theorem Streak.le (h : Streak p n l) (hmn : m ≤ n) : Streak p m l := by
  obtain ⟨l₁, run, rfl, rfl, hrun⟩ := h
  refine ⟨l₁ ++ run.take (run.length - m), run.drop (run.length - m), ?_, ?_, ?_⟩
  · rw [List.append_assoc, List.take_append_drop]
  · rw [List.length_drop]
    omega
  · intro e he
    exact hrun e (List.mem_of_mem_drop he)

theorem Streak.mono {q : ε → Prop} (h : Streak p n l) (hpq : ∀ e, p e → q e) : Streak q n l := by
  obtain ⟨l₁, run, rfl, rfl, hrun⟩ := h
  exact ⟨l₁, run, rfl, rfl, fun e he => hpq e (hrun e he)⟩

/-- The last event of a streak is of the kind. -/
theorem Streak.last (h : Streak p n l) (hn : 0 < n) : ∃ e ∈ l.getLast?, p e := by
  obtain ⟨l₁, run, rfl, rfl, hrun⟩ := h
  rcases List.eq_nil_or_concat' run with rfl | ⟨run', d, rfl⟩
  · cases hn
  · exact ⟨d, by simp [← List.append_assoc], hrun d (by simp)⟩

end SensorBridge.Foundation.Log
