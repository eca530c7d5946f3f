import SensorBridge.Foundation.Transducer

/-!
# Objects and their replies

An object keeps a state and answers every call. `replies` is what it answers to a list of
calls, one answer for each, unlike `Transducer.emit`, which leaves the silences out.

Two objects answer alike when a relation between their states is kept by every call and makes
the answers equal (`replies_eq`). The calls may be restricted to those an observer admits: it
has a state of its own, which every call moves on (`Admits`). States of one object are `Alike`
when no calls tell them apart, and that is itself such a relation; two transducers one behind
the other are alike when each of the two is (`alike_comp`).
-/

namespace SensorBridge.Foundation.Replies

universe u v w x

variable {σ τ : Type u} {ι : Type v} {ρ : Type w} {ω : Type x}

/-- What is answered to a list of calls, call by call. -/
def replies (f : σ → ι → σ × ρ) : σ → List ι → List ρ
  | _, [] => []
  | s, x :: xs => (f s x).2 :: replies f (f s x).1 xs

/-- The state after a list of calls. -/
def after (f : σ → ι → σ × ρ) (s : σ) (xs : List ι) : σ := xs.foldl (fun s x => (f s x).1) s

/-- Every call is one that the observer admits when it comes. -/
def Admits (next : ω → ι → ω) (ok : ω → ι → Prop) : ω → List ι → Prop
  | _, [] => True
  | o, x :: xs => ok o x ∧ Admits next ok (next o x) xs

instance decidableAdmits {next : ω → ι → ω} {ok : ω → ι → Prop} [∀ o x, Decidable (ok o x)] :
    (o : ω) → (xs : List ι) → Decidable (Admits next ok o xs)
  | _, [] => instDecidableTrue
  | o, x :: xs => @instDecidableAnd _ _ _ (decidableAdmits (next o x) xs)

/-- What a call keeps exactly when it is admitted holds after every beginning of the calls exactly
when all of them are. -/
theorem forall_take_iff_admits {next : ω → ι → ω} {ok : ω → ι → Prop} {P : ω → Prop}
    (h : ∀ o x, P o → (P (next o x) ↔ ok o x)) {o : ω} (ho : P o) (xs : List ι) :
    (∀ n, P ((xs.take n).foldl next o)) ↔ Admits next ok o xs := by
  induction xs generalizing o with
  | nil => exact ⟨fun _ => trivial, fun _ n => by rwa [List.take_nil]⟩
  | cons x xs ih =>
    constructor
    · intro hall
      have hok : ok o x := (h o x ho).1 (hall 1)
      exact ⟨hok, (ih ((h o x ho).2 hok)).1 fun n => hall (n + 1)⟩
    · rintro ⟨hok, hxs⟩ n
      cases n with
      | zero => exact ho
      | succ n => exact (ih ((h o x ho).2 hok)).2 hxs n

/-- What decides whether a call is admitted may be a part of the observer's state that moves on by
itself. -/
theorem admits_iff_admits {ω' : Type x} {next : ω → ι → ω} {next' : ω' → ι → ω'} (ok : ω' → ι → Prop)
    (part : ω → ω') (hnext : ∀ o x, part (next o x) = next' (part o) x) (o : ω) (xs : List ι) :
    Admits next (fun o x => ok (part o) x) o xs ↔ Admits next' ok (part o) xs := by
  induction xs generalizing o with
  | nil => exact Iff.rfl
  | cons x xs ih => rw [Admits, Admits, ih, hnext]

variable {f : σ → ι → σ × ρ} {g : τ → ι → τ × ρ}

@[simp] theorem replies_nil (s : σ) : replies f s [] = [] := rfl

@[simp] theorem replies_cons (s : σ) (x : ι) (xs : List ι) :
    replies f s (x :: xs) = (f s x).2 :: replies f (f s x).1 xs := rfl

@[simp] theorem after_nil (s : σ) : after f s [] = s := rfl

@[simp] theorem after_cons (s : σ) (x : ι) (xs : List ι) :
    after f s (x :: xs) = after f (f s x).1 xs := rfl

theorem after_concat (s : σ) (xs : List ι) (x : ι) : after f s (xs ++ [x]) = (f (after f s xs) x).1 := by
  rw [after, List.foldl_append]
  rfl

@[simp] theorem length_replies (s : σ) (xs : List ι) : (replies f s xs).length = xs.length := by
  induction xs generalizing s with
  | nil => rfl
  | cons x xs ih => rw [replies_cons, List.length_cons, List.length_cons, ih]

theorem replies_concat (s : σ) (xs : List ι) (x : ι) :
    replies f s (xs ++ [x]) = replies f s xs ++ [(f (after f s xs) x).2] := by
  induction xs generalizing s with
  | nil => rfl
  | cons y xs ih => rw [List.cons_append, replies_cons, replies_cons, ih, after_cons, List.cons_append]

/-- What every call keeps holds after any calls. -/
theorem after_invariant {I : σ → Prop} (hstep : ∀ s x, I s → I (f s x).1) {s : σ} (h : I s)
    (xs : List ι) : I (after f s xs) := by
  induction xs generalizing s with
  | nil => exact h
  | cons x xs ih => exact ih (hstep s x h)

theorem admits_of_forall {next : ω → ι → ω} {ok : ω → ι → Prop} (h : ∀ o x, ok o x) (o : ω) (xs : List ι) :
    Admits next ok o xs := by
  induction xs generalizing o with
  | nil => trivial
  | cons x xs ih => exact ⟨h o x, ih (next o x)⟩

/-- **Two objects answer alike**: related states answer an admitted call alike and are related
after it. -/
theorem replies_eq {next : ω → ι → ω} {ok : ω → ι → Prop} (R : ω → σ → τ → Prop)
    (hR : ∀ o s t x, R o s t → ok o x → (f s x).2 = (g t x).2 ∧ R (next o x) (f s x).1 (g t x).1)
    {o : ω} {s : σ} {t : τ} (h : R o s t) {xs : List ι} (hxs : Admits next ok o xs) :
    replies f s xs = replies g t xs := by
  induction xs generalizing o s t with
  | nil => rfl
  | cons x xs ih =>
    obtain ⟨hok, hxs⟩ := hxs
    obtain ⟨houtput, hnext⟩ := hR o s t x h hok
    rw [replies_cons, replies_cons, houtput, ih hnext hxs]

/-! ### States that no calls tell apart -/

/-- The two states answer any calls alike. -/
def Alike (f : σ → ι → σ × ρ) (s t : σ) : Prop := ∀ xs, replies f s xs = replies f t xs

theorem Alike.output {s t : σ} (h : Alike f s t) (x : ι) : (f s x).2 = (f t x).2 := by
  have hone := h [x]
  rw [replies_cons, replies_cons] at hone
  exact (List.cons.inj hone).1

theorem Alike.next {s t : σ} (h : Alike f s t) (x : ι) : Alike f (f s x).1 (f t x).1 := by
  intro xs
  exact (List.cons.inj (h (x :: xs))).2

/-- States related by a relation that calls keep, and that makes answers equal, are alike. -/
theorem alike_of_bisimulation (R : σ → σ → Prop)
    (hR : ∀ s t x, R s t → (f s x).2 = (f t x).2 ∧ R (f s x).1 (f t x).1) {s t : σ} (h : R s t) :
    Alike f s t := by
  intro xs
  induction xs generalizing s t with
  | nil => rfl
  | cons x xs ih =>
    obtain ⟨houtput, hnext⟩ := hR s t x h
    rw [replies_cons, replies_cons, houtput, ih hnext]

/-- States that any call takes to the same state with the same answer are alike. -/
theorem alike_of_eq {s t : σ} (h : ∀ x, f s x = f t x) : Alike f s t := by
  intro xs
  cases xs with
  | nil => rfl
  | cons x xs => rw [replies_cons, replies_cons, h x]

end SensorBridge.Foundation.Replies

namespace SensorBridge.Foundation.Transducer

open Replies

universe u v w

variable {σ τ : Type u} {ι : Type v} {μ ο : Type w} {f : σ → ι → σ × Option μ} {g : τ → μ → τ × Option ο}

/-- What two transducers, one behind the other, are after a list of items. -/
theorem after_comp (s : σ) (t : τ) (xs : List ι) :
    Replies.after (comp f g) (s, t) xs = (Replies.after f s xs, Replies.after g t (emit f s xs)) := by
  induction xs generalizing s t with
  | nil => rfl
  | cons x xs ih =>
    rw [after_cons, after_cons, emit_cons]
    cases hx : f s x with
    | mk s' r => cases r with
      | none => simp [comp, hx, ih]
      | some m => simp [comp, hx, ih]

/-- Two transducers, one behind the other, from states that are alike. -/
theorem alike_comp {s s' : σ} {t t' : τ} (hs : Alike f s s') (ht : Alike g t t') :
    Alike (comp f g) (s, t) (s', t') := by
  refine alike_of_bisimulation (fun p q => Alike f p.1 q.1 ∧ Alike g p.2 q.2) ?_ ⟨hs, ht⟩
  intro p q x ⟨hs, ht⟩
  have houtput := hs.output x
  have hnext := hs.next x
  cases hp : f p.1 x with
  | mk s₁ r =>
    cases hq : f q.1 x with
    | mk s₂ r' =>
      rw [hp, hq] at houtput hnext
      obtain rfl : r = r' := houtput
      cases r with
      | none =>
        simp only [comp, hp, hq]
        exact ⟨trivial, hnext, ht⟩
      | some m =>
        simp only [comp, hp, hq]
        exact ⟨ht.output m, hnext, ht.next m⟩

end SensorBridge.Foundation.Transducer
