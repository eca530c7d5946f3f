import Mathlib.Data.List.Basic

/-!
# Filtering transducers

A machine that reads items one at a time and answers each with an output or with
nothing. `emit` is what it answers to a list of items, the silences left out.
Feeding more items only adds to the end (`emit_append`, `emit_mono`), and two
transducers one behind the other emit what the second emits on what the first
emits (`emit_comp`). States are the `Same` when no items tell them apart.
-/

namespace SensorBridge.Foundation.Transducer

universe u v w

variable {σ τ : Type u} {ι : Type v} {μ ο : Type w}

/-- The state after a list of items. -/
def after (f : σ → ι → σ × Option ο) (s : σ) (xs : List ι) : σ := xs.foldl (fun s x => (f s x).1) s

/-- The outputs for a list of items, in order. -/
def emit (f : σ → ι → σ × Option ο) : σ → List ι → List ο
  | _, [] => []
  | s, x :: xs => (f s x).2.toList ++ emit f (f s x).1 xs

variable (f : σ → ι → σ × Option μ) (g : τ → μ → τ × Option ο)

@[simp] theorem emit_nil (s : σ) : emit f s [] = [] := rfl

theorem emit_cons (s : σ) (x : ι) (xs : List ι) :
    emit f s (x :: xs) = (f s x).2.toList ++ emit f (f s x).1 xs := rfl

theorem emit_append (s : σ) (xs ys : List ι) :
    emit f s (xs ++ ys) = emit f s xs ++ emit f (after f s xs) ys := by
  induction xs generalizing s with
  | nil => rfl
  | cons x xs ih => rw [List.cons_append, emit_cons, emit_cons, ih, List.append_assoc]; rfl

theorem emit_concat (s : σ) (xs : List ι) (x : ι) :
    emit f s (xs ++ [x]) = emit f s xs ++ (f (after f s xs) x).2.toList := by
  rw [emit_append, emit_cons, emit_nil, List.append_nil]

theorem after_concat (s : σ) (xs : List ι) (x : ι) :
    after f s (xs ++ [x]) = (f (after f s xs) x).1 := by
  rw [after, List.foldl_append]
  rfl

/-- An item is answered once at most. -/
theorem length_emit_le (s : σ) (xs : List ι) : (emit f s xs).length ≤ xs.length := by
  induction xs generalizing s with
  | nil => exact Nat.le_refl 0
  | cons x xs ih =>
    have hone : (f s x).2.toList.length ≤ 1 := by
      cases (f s x).2 with
      | none => exact Nat.zero_le 1
      | some _ => exact Nat.le_refl 1
    have hrest := ih (f s x).1
    rw [emit_cons, List.length_append, List.length_cons]
    omega

/-- More items, more outputs. -/
theorem emit_mono (s : σ) {xs ys : List ι} (h : xs <+: ys) : emit f s xs <+: emit f s ys := by
  obtain ⟨zs, rfl⟩ := h
  rw [emit_append]
  exact List.prefix_append _ _

/-- Two states that outputs cannot tell apart. -/
def Same (s t : σ) : Prop := ∀ xs, emit f s xs = emit f t xs

variable {f} in
/-- They answer an item alike. -/
theorem Same.output {s t : σ} (h : Same f s t) (x : ι) : (f s x).2.toList = (f t x).2.toList := by
  simpa only [emit_cons, emit_nil, List.append_nil] using h [x]

variable {f} in
/-- After an item they cannot be told apart either. -/
theorem Same.next {s t : σ} (h : Same f s t) (x : ι) : Same f (f s x).1 (f t x).1 := by
  intro xs
  have hcons := h (x :: xs)
  rw [emit_cons, emit_cons, h.output x] at hcons
  exact List.append_cancel_left hcons

/-- One transducer behind another. -/
def comp (p : σ × τ) (x : ι) : (σ × τ) × Option ο :=
  match f p.1 x with
  | (s, none) => ((s, p.2), none)
  | (s, some m) => ((s, (g p.2 m).1), (g p.2 m).2)

theorem emit_comp (s : σ) (t : τ) (xs : List ι) :
    emit (comp f g) (s, t) xs = emit g t (emit f s xs) := by
  induction xs generalizing s t with
  | nil => rfl
  | cons x xs ih =>
    rw [emit_cons, emit_cons]
    cases hx : f s x with
    | mk s' r => cases r with
      | none => simp [comp, hx, ih]
      | some m => simp [comp, hx, ih, emit_cons]

end SensorBridge.Foundation.Transducer
