import SensorBridge.Stage.Related

/-!
# What a builder builds

`PipelineBuilder` and `StageExt` put `Map`, `Filter`, `FilterMap` and `Inspect` behind a stage, each of
them as the second half of a `Chain`, so that what is built is nested as deeply as the program is long.
Every closure has a state, which `reset` does not touch.

What is built answers as the stage does, with each answer sent through the closures in turn: they
see every value that the stage outputs once, in order, whether it comes from `process`, `tick` or `flush`,
as one `FilterMap` would (`build_fuses`).
-/

namespace SensorBridge.Pipeline

open Foundation.Replies Stage

universe u v

/-! ### Closures -/

/-- A closure that may be called mutably (`FnMut`). -/
structure FnMut (α : Type u) (β : Type v) where
  State : Type u
  init : State
  call : State → α → State × β

/-- A stage that the builder puts behind another. -/
inductive Combinator : Type u → Type u → Type (u + 1) where
  /-- `Map`. -/
  | map {α β : Type u} (f : FnMut α β) : Combinator α β
  /-- `Filter`. -/
  | filter {α : Type u} (predicate : FnMut α Bool) : Combinator α α
  /-- `FilterMap`. -/
  | filterMap {α β : Type u} (f : FnMut α (Option β)) : Combinator α β
  /-- `Inspect`. -/
  | inspect {α : Type u} (f : FnMut α Unit) : Combinator α α

variable {ι α β γ : Type u}

namespace Combinator

/-- `process` of the stage. -/
def process : Combinator α β → FnMut α (Option β)
  | map f => ⟨f.State, f.init, fun s x => ((f.call s x).1, some (f.call s x).2)⟩
  | filter predicate =>
    ⟨predicate.State, predicate.init, fun s x =>
      ((predicate.call s x).1, if (predicate.call s x).2 then some x else none)⟩
  | filterMap f => f
  | inspect f => ⟨f.State, f.init, fun s x => ((f.call s x).1, some x)⟩

/-- The stage. -/
def stage (c : Combinator α β) : Stage α β := Stage.filterMap c.process.init c.process.call

end Combinator

/-- What a fluent program puts behind a stage, first to last. -/
inductive Combinators (α : Type u) : Type u → Type (u + 1) where
  | nil : Combinators α α
  | snoc {β γ : Type u} (cs : Combinators α β) (c : Combinator β γ) : Combinators α γ

namespace Combinators

/-- What is built: `Chain::new(self.stage, …)` for each call. -/
def build (S : Stage ι α) : {β : Type u} → Combinators α β → Stage ι β
  | _, nil => S
  | _, snoc cs c => (build S cs).chain c.stage

/-- One closure behind another. -/
def andThen (f : FnMut α (Option β)) (g : FnMut β (Option γ)) : FnMut α (Option γ) where
  State := f.State × g.State
  init := (f.init, g.init)
  call := Foundation.Transducer.comp f.call g.call

/-- All closures as one. -/
def fused : {β : Type u} → Combinators α β → FnMut α (Option β)
  | _, nil => ⟨PUnit, ⟨⟩, fun s x => (s, some x)⟩
  | _, snoc cs c => andThen (fused cs) c.process

/-! ### What comes through -/

/-- A closure is called with every value, and the silences stay. -/
def feed (f : FnMut α (Option β)) : f.State → List (Option α) → List (Option β)
  | _, [] => []
  | s, none :: rs => none :: feed f s rs
  | s, some x :: rs => (f.call s x).2 :: feed f (f.call s x).1 rs

/-- A closure that passes on what it is called with. -/
theorem feed_nil (rs : List (Option α)) : feed (fused (nil : Combinators α α)) PUnit.unit rs = rs := by
  induction rs with
  | nil => rfl
  | cons r rs ih => cases r with
    | none => exact congrArg (none :: ·) ih
    | some x => exact congrArg (some x :: ·) ih

theorem feed_andThen (f : FnMut α (Option β)) (g : FnMut β (Option γ)) (s : f.State) (t : g.State)
    (rs : List (Option α)) : feed (andThen f g) (s, t) rs = feed g t (feed f s rs) := by
  induction rs generalizing s t with
  | nil => rfl
  | cons r rs ih => cases r with
    | none => exact congrArg (none :: ·) (ih s t)
    | some x =>
      simp only [feed, andThen, Foundation.Transducer.comp]
      rcases f.call s x with ⟨s', _ | y⟩
      · exact congrArg (none :: ·) (ih s' t)
      · exact congrArg ((g.call t y).2 :: ·) (ih s' (g.call t y).1)

/-- What a stage has output is sent through a closure behind it. -/
def through {σ : Type u} (f : FnMut α (Option β)) (t : f.State) : σ × Option α → (σ × f.State) × Option β
  | (s, none) => ((s, t), none)
  | (s, some x) => ((s, (f.call t x).1), (f.call t x).2)

/-- A combinator is asked for nothing but what it is fed. -/
theorem ask_filterMap {σ : Type u} (ask₁ : σ → σ × Option α) (f : FnMut α (Option β)) (s : σ) (t : f.State) :
    ask ask₁ f.call (fun t => (t, none)) (s, t) = through f t (ask₁ s) := by
  unfold ask
  rcases ask₁ s with ⟨s', _ | x⟩
  · rfl
  · rcases h : f.call t x with ⟨t', _ | y⟩ <;> simp [through, h]

/-- One call of a stage with a closure behind it. -/
theorem call_chain_filterMap (S : Stage ι α) (f : FnMut α (Option β)) (s : S.State) (t : f.State) (c : Call ι) :
    (S.chain (Stage.filterMap f.init f.call)).call (s, t) c = through f t (S.call s c) := by
  cases c with
  | process x =>
    simp only [Stage.call, Stage.chain, Stage.filterMap, Stage.ofProcess]
    rcases S.process s x with ⟨s', _ | y⟩
    · rfl
    · rfl
  | tick =>
    simp only [Stage.call]
    rw [tick_chain]
    exact ask_filterMap S.tick f s t
  | reset => rfl
  | flush =>
    simp only [Stage.call]
    rw [flush_chain]
    exact ask_filterMap S.flush f s t

theorem replies_chain_filterMap (S : Stage ι α) (f : FnMut α (Option β)) (s : S.State) (t : f.State)
    (calls : List (Call ι)) :
    replies (S.chain (Stage.filterMap f.init f.call)).call (s, t) calls = feed f t (replies S.call s calls) := by
  induction calls generalizing s t with
  | nil => rfl
  | cons c calls ih =>
    have hcall := call_chain_filterMap S f s t c
    simp only [replies]
    rw [hcall]
    rcases S.call s c with ⟨s', _ | x⟩
    · exact congrArg (none :: ·) (ih s' t)
    · exact congrArg ((f.call t x).2 :: ·) (ih s' (f.call t x).1)

theorem replies_build (S : Stage ι α) (cs : Combinators α β) (calls : List (Call ι)) :
    replies (cs.build S).call (cs.build S).init calls =
      feed cs.fused cs.fused.init (replies S.call S.init calls) := by
  induction cs with
  | nil => exact (feed_nil _).symm
  | snoc cs c ih =>
    change replies ((cs.build S).chain c.stage).call ((cs.build S).init, c.process.init) calls =
      feed (andThen cs.fused c.process) (cs.fused.init, c.process.init) _
    rw [feed_andThen, ← ih]
    exact replies_chain_filterMap (cs.build S) c.process _ _ calls

/-- **What is built answers as the stage does**, with every value that it outputs sent through the closures,
once and in order, whichever call it comes from; and so does the stage with one `FilterMap` behind it. -/
theorem build_fuses (S : Stage ι α) (cs : Combinators α β) (calls : List (Call ι)) :
    replies (cs.build S).call (cs.build S).init calls = feed cs.fused cs.fused.init (replies S.call S.init calls) ∧
      replies (cs.build S).call (cs.build S).init calls =
        replies (S.chain (Combinator.filterMap cs.fused).stage).call
          (S.chain (Combinator.filterMap cs.fused).stage).init calls := by
  have hfused : replies (S.chain (Combinator.filterMap cs.fused).stage).call
      (S.chain (Combinator.filterMap cs.fused).stage).init calls =
        feed cs.fused cs.fused.init (replies S.call S.init calls) :=
    replies_chain_filterMap S cs.fused _ _ calls
  exact ⟨replies_build S cs calls, (replies_build S cs calls).trans hfused.symm⟩

end Combinators

end SensorBridge.Pipeline
