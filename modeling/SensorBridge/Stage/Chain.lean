import SensorBridge.Stage.Traits
import SensorBridge.Foundation.Replies

/-!
# Calling a chain

A chain is a stage like any other, and can be chained again. On `process` and `reset` it does
not matter how three stages are nested. On `tick` and `flush` it can: a chain asks its first
stage, passes on what that has, and asks the second stage only when nothing came out. Nested
to the left, the middle stage has answered already when the last one swallows what it is
passed, and is not asked any more; nested to the right, it is (`not_forall_chain_assoc`). The
two agree as long as it would then have had nothing to add (`chain_assoc`).

For the same reason a chain that is flushed once can leave something behind. When the second
stage answers what the first one has let go of, it is not flushed itself
(`not_forall_lossless`). Nothing is lost exactly when it holds nothing then
(`lossless_iff`).
-/

namespace SensorBridge.Stage

open Foundation Foundation.Replies

universe u

variable {ι μ ν ο : Type u}

/-! ### Calls -/

/-- A call of one of the four methods. -/
inductive Call (ι : Type u) where
  | process (input : ι)
  | tick
  | reset
  | flush

/-- What a call does, and returns; `reset` returns nothing. -/
def call (S : Stage ι ο) (s : S.State) : Call ι → S.State × Option ο
  | .process input => S.process s input
  | .tick => S.tick s
  | .reset => (S.reset s, none)
  | .flush => S.flush s

/-! ### Nesting -/

/-- How a chain is asked, by `tick` or by `flush`: what the first stage has is passed on, and the
second stage is asked when nothing came out. -/
def ask {α β : Type u} (ask₁ : α → α × Option μ) (process₂ : β → μ → β × Option ο)
    (ask₂ : β → β × Option ο) (p : α × β) : (α × β) × Option ο :=
  match ask₁ p.1 with
  | (s, none) => ((s, (ask₂ p.2).1), (ask₂ p.2).2)
  | (s, some mid) =>
    match process₂ p.2 mid with
    | (t, some out) => ((s, t), some out)
    | (t, none) => ((s, (ask₂ t).1), (ask₂ t).2)

theorem tick_chain (S₁ : Stage ι μ) (S₂ : Stage μ ο) :
    (S₁.chain S₂).tick = ask S₁.tick S₂.process S₂.tick := by
  funext p
  obtain ⟨a, b⟩ := p
  simp only [chain, ask]
  cases S₁.tick a with
  | mk s r => cases r with
    | none => rfl
    | some mid => cases h₂ : S₂.process b mid with
      | mk t r => cases r <;> simp [h₂]

theorem flush_chain (S₁ : Stage ι μ) (S₂ : Stage μ ο) :
    (S₁.chain S₂).flush = ask S₁.flush S₂.process S₂.flush := by
  funext p
  obtain ⟨a, b⟩ := p
  simp only [chain, ask]
  cases S₁.flush a with
  | mk s r => cases r with
    | none => rfl
    | some mid => cases h₂ : S₂.process b mid with
      | mk t r => cases r <;> simp [h₂]

section Nesting

variable (S₁ : Stage ι μ) (S₂ : Stage μ ν) (S₃ : Stage ν ο)

/-- When the first stage, asked by `ask₁`, has something, the second answers that and the third
swallows the answer, the second, asked by `ask₂`, has no more to say and stays as it is. -/
def NoMore (ask₁ : S₁.State → S₁.State × Option μ) (ask₂ : S₂.State → S₂.State × Option ν)
    (p : (S₁.State × S₂.State) × S₃.State) : Prop :=
  ∀ m t y, (ask₁ p.1.1).2 = some m → S₂.process p.1.2 m = (t, some y) →
    (S₃.process p.2 y).2 = none → ask₂ t = (t, none)

/-- **What it takes of a call**: on a `tick` or a `flush`, the second stage has no more to say. -/
def Settled (p : (S₁.State × S₂.State) × S₃.State) : Call ι → Prop
  | .tick => NoMore S₁ S₂ S₃ S₁.tick S₂.tick p
  | .flush => NoMore S₁ S₂ S₃ S₁.flush S₂.flush p
  | _ => True

/-- Every call of a run meets `Settled`, when it comes. -/
def AllSettled (cs : List (Call ι)) : Prop :=
  Admits (fun p c => (((S₁.chain S₂).chain S₃).call p c).1) (Settled S₁ S₂ S₃)
    ((S₁.chain S₂).chain S₃).init cs

variable {S₁ S₂ S₃}

/-- The states of three stages, nested to the right. -/
def toRight (p : (S₁.State × S₂.State) × S₃.State) : S₁.State × (S₂.State × S₃.State) :=
  (p.1.1, (p.1.2, p.2))

theorem process_chain_assoc (p : (S₁.State × S₂.State) × S₃.State) (x : ι) :
    (S₁.chain (S₂.chain S₃)).process (toRight p) x =
      (toRight (((S₁.chain S₂).chain S₃).process p x).1, (((S₁.chain S₂).chain S₃).process p x).2) := by
  obtain ⟨⟨a, b⟩, c⟩ := p
  simp only [chain, toRight]
  cases S₁.process a x with
  | mk a' r => cases r with
    | none => rfl
    | some m =>
      cases h₂ : S₂.process b m with
      | mk b' r => cases r <;> simp [h₂]

theorem ask_assoc {ask₁ : S₁.State → S₁.State × Option μ} {ask₂ : S₂.State → S₂.State × Option ν}
    {ask₃ : S₃.State → S₃.State × Option ο} {p : (S₁.State × S₂.State) × S₃.State}
    (h : NoMore S₁ S₂ S₃ ask₁ ask₂ p) :
    ask ask₁ (S₂.chain S₃).process (ask ask₂ S₃.process ask₃) (toRight p) =
      (toRight (ask (ask ask₁ S₂.process ask₂) S₃.process ask₃ p).1,
        (ask (ask ask₁ S₂.process ask₂) S₃.process ask₃ p).2) := by
  obtain ⟨⟨a, b⟩, c⟩ := p
  simp only [ask, chain, toRight]
  cases h₁ : ask₁ a with
  | mk a' r => cases r with
    | none =>
      cases h₂ : ask₂ b with
      | mk b' r => cases r with
        | none => rfl
        | some y => cases h₃ : S₃.process c y with
          | mk c' r => cases r <;> simp [h₃]
    | some m => cases h₂ : S₂.process b m with
      | mk b' r => cases r with
        | none =>
          cases h₂' : ask₂ b' with
          | mk b'' r => cases r with
            | none => simp [h₂, h₂']
            | some y => cases h₃ : S₃.process c y with
              | mk c' r => cases r <;> simp [h₂, h₂', h₃]
        | some y => cases h₃ : S₃.process c y with
          | mk c' r => cases r with
            | some z => simp [h₂, h₃]
            | none =>
              -- the third stage has swallowed the answer of the second
              have hno : ask₂ b' = (b', none) := h m b' y (by rw [h₁]) h₂ (by rw [h₃])
              simp [h₂, h₃, hno]

/-- A settled call answers alike however the stages are nested, and leaves them alike. -/
theorem call_chain_assoc (p : (S₁.State × S₂.State) × S₃.State) {x : Call ι}
    (h : Settled S₁ S₂ S₃ p x) :
    (S₁.chain (S₂.chain S₃)).call (toRight p) x =
      (toRight (((S₁.chain S₂).chain S₃).call p x).1, (((S₁.chain S₂).chain S₃).call p x).2) := by
  cases x with
  | process x => exact process_chain_assoc p x
  | tick =>
    simp only [call, tick_chain]
    exact ask_assoc h
  | reset => rfl
  | flush =>
    simp only [call, flush_chain]
    exact ask_assoc h

end Nesting

/-- **Chaining is associative** while the middle stage has nothing to add to an answer that the
last one swallows: every call returns the same, whichever way the stages are nested. -/
theorem chain_assoc (S₁ : Stage ι μ) (S₂ : Stage μ ν) (S₃ : Stage ν ο) (cs : List (Call ι))
    (h : AllSettled S₁ S₂ S₃ cs) :
    replies ((S₁.chain S₂).chain S₃).call ((S₁.chain S₂).chain S₃).init cs =
      replies (S₁.chain (S₂.chain S₃)).call (S₁.chain (S₂.chain S₃)).init cs := by
  refine replies_eq (fun o p q => o = p ∧ q = toRight p) ?_ ⟨rfl, rfl⟩ h
  rintro p p q x ⟨rfl, rfl⟩ hsettled
  rw [call_chain_assoc p hsettled]
  exact ⟨rfl, rfl, rfl⟩

/-- A middle stage that keeps the default `tick` and `flush` never has anything to add. -/
theorem allSettled_of_default {S₁ : Stage ι μ} {S₂ : Stage μ ν} {S₃ : Stage ν ο}
    (htick : ∀ s, S₂.tick s = (s, none)) (hflush : ∀ s, S₂.flush s = (s, none)) (cs : List (Call ι)) :
    AllSettled S₁ S₂ S₃ cs := by
  refine admits_of_forall ?_ _ cs
  intro p x
  cases x with
  | tick => exact fun m t y _ _ _ => htick t
  | flush => exact fun m t y _ _ _ => hflush t
  | process | reset => trivial

/-- A stage that passes on what it gets, and has `n` whenever it is asked. -/
def beacon (n : ℕ) : Stage ℕ ℕ where
  State := Unit
  init := ()
  process s x := (s, some x)
  tick s := (s, some n)
  reset := id
  flush s := (s, some n)

/-- One call of each method. -/
def oneOfEach : List (Call ℕ) := [.process 3, .tick, .reset, .flush]

/-- Nothing is swallowed here. -/
theorem chain_assoc_beacon :
    replies (((beacon 1).chain (beacon 5)).chain (map (· + 1))).call
        (((beacon 1).chain (beacon 5)).chain (map (· + 1))).init oneOfEach =
      replies ((beacon 1).chain ((beacon 5).chain (map (· + 1)))).call
        ((beacon 1).chain ((beacon 5).chain (map (· + 1)))).init oneOfEach := by
  have hsettled : AllSettled (beacon 1) (beacon 5) (map (· + 1)) oneOfEach := by
    refine ⟨trivial, ?_, trivial, ?_, trivial⟩
    · intro m t y _ _ hnone
      cases hnone
    · intro m t y _ _ hnone
      cases hnone
  exact chain_assoc (beacon 1) (beacon 5) (map (· + 1)) oneOfEach hsettled

/-- The last stage lets no zero through. Nested to the left, the zero of the first stage is all
that comes out of the first two, and nothing comes out of the chain; nested to the right, the
second stage is asked as well. -/
theorem not_forall_chain_assoc : ¬ ∀ (S₁ S₂ S₃ : Stage ℕ ℕ) (cs : List (Call ℕ)),
    replies ((S₁.chain S₂).chain S₃).call ((S₁.chain S₂).chain S₃).init cs =
      replies (S₁.chain (S₂.chain S₃)).call (S₁.chain (S₂.chain S₃)).init cs := by
  intro h
  have hone := h (beacon 0) (beacon 5) (filter (· != 0)) [.tick]
  exact absurd (List.cons.inj hone).1 (by decide)

/-! ### Flushing -/

/-- A stage that may hold a value back: its flush emits that value and keeps nothing. -/
structure Holding (S : Stage ι ο) where
  /-- The value held back. -/
  held : S.State → Option ο
  flush_emits : ∀ s, (S.flush s).2 = held s
  flush_empties : ∀ s, held (S.flush s).1 = none

/-- A stage that also keeps a list of what it has been passed. -/
def recording (S : Stage ι ο) : Stage ι ο where
  State := S.State × List ι
  init := (S.init, [])
  process p x := (((S.process p.1 x).1, p.2 ++ [x]), (S.process p.1 x).2)
  tick p := (((S.tick p.1).1, p.2), (S.tick p.1).2)
  reset p := (S.reset p.1, p.2)
  flush p := (((S.flush p.1).1, p.2), (S.flush p.1).2)

section Flushing

variable {S₁ : Stage ι μ} {S₂ : Stage μ ο}

/-- What the second stage still has to output: on the value the first holds back, and then what it
holds back itself. -/
def pending (H₁ : S₁.Holding) (H₂ : S₂.Holding) (p : S₁.State × S₂.State) : List ο :=
  match H₁.held p.1 with
  | none => (H₂.held p.2).toList
  | some v => (S₂.process p.2 v).2.toList ++ (H₂.held (S₂.process p.2 v).1).toList

/-- **One flush loses nothing**: no stage holds anything back after it, what the first stage held
has been passed to the second, and what the second had to output has been returned. -/
structure Lossless (H₁ : S₁.Holding) (H₂ : S₂.Holding) (p : S₁.State × S₂.State) : Prop where
  first_empty : H₁.held ((S₁.chain S₂).flush p).1.1 = none
  second_empty : H₂.held ((S₁.chain S₂).flush p).1.2 = none
  passed : ∀ log, ((S₁.chain S₂.recording).flush (p.1, (p.2, log))).1.2.2 = log ++ (H₁.held p.1).toList
  returned : ((S₁.chain S₂).flush p).2.toList = pending H₁ H₂ p

/-- **When nothing is lost**: an answer of the second stage to what the first held back leaves
nothing in the second. -/
def Drained (H₁ : S₁.Holding) (H₂ : S₂.Holding) (p : S₁.State × S₂.State) : Prop :=
  ∀ v t out, H₁.held p.1 = some v → S₂.process p.2 v = (t, some out) → H₂.held t = none

theorem flush_recording (p : S₁.State × S₂.State) (log : List μ) :
    ((S₁.chain S₂.recording).flush (p.1, (p.2, log))).1.2.2 = log ++ (S₁.flush p.1).2.toList := by
  obtain ⟨a, b⟩ := p
  rw [flush_chain]
  simp only [ask, recording]
  cases S₁.flush a with
  | mk a' r => cases r with
    | none => simp
    | some v => cases h₂ : S₂.process b v with
      | mk b' r => cases r <;> simp [h₂]

theorem flush_of_none {a a' : S₁.State} (b : S₂.State) (h₁ : S₁.flush a = (a', none)) :
    (S₁.chain S₂).flush (a, b) = ((a', (S₂.flush b).1), (S₂.flush b).2) := by
  simp only [flush_chain, ask, h₁]
  rfl

theorem flush_of_answer {a a' : S₁.State} {b t : S₂.State} {v : μ} {out : ο} (h₁ : S₁.flush a = (a', some v))
    (h₂ : S₂.process b v = (t, some out)) : (S₁.chain S₂).flush (a, b) = ((a', t), some out) := by
  simp only [flush_chain, ask, h₁, h₂]
  rfl

theorem flush_of_silence {a a' : S₁.State} {b t : S₂.State} {v : μ} (h₁ : S₁.flush a = (a', some v))
    (h₂ : S₂.process b v = (t, none)) :
    (S₁.chain S₂).flush (a, b) = ((a', (S₂.flush t).1), (S₂.flush t).2) := by
  simp only [flush_chain, ask, h₁, h₂]
  rfl

/-- A flush that leaves the second stage empty, and returns what was pending, loses nothing. -/
theorem lossless_of_flush {H₁ : S₁.Holding} {H₂ : S₂.Holding} {a : S₁.State} {b t : S₂.State} {r : Option ο}
    (hflush : (S₁.chain S₂).flush (a, b) = (((S₁.flush a).1, t), r)) (hempty : H₂.held t = none)
    (hreturned : r.toList = pending H₁ H₂ (a, b)) : Lossless H₁ H₂ (a, b) where
  first_empty := by
    rw [hflush]
    exact H₁.flush_empties a
  second_empty := by
    rw [hflush]
    exact hempty
  passed log := by
    rw [flush_recording, H₁.flush_emits]
  returned := by
    rw [hflush]
    exact hreturned

/-- **Flushing a chain loses nothing exactly when the second stage is left with nothing by an
answer** to what the first stage held back. -/
theorem lossless_iff (H₁ : S₁.Holding) (H₂ : S₂.Holding) (p : S₁.State × S₂.State) :
    Lossless H₁ H₂ p ↔ Drained H₁ H₂ p := by
  obtain ⟨a, b⟩ := p
  have hflushed (r : Option μ) (hr : H₁.held a = r) : S₁.flush a = ((S₁.flush a).1, r) :=
    Prod.ext rfl ((H₁.flush_emits a).trans hr)
  constructor
  · -- an answer is returned at once, and the second stage is as the answer left it
    intro h v t out hv h₂
    have hsecond := h.second_empty
    rwa [flush_of_answer (hflushed _ hv) h₂] at hsecond
  · intro h
    cases hv : H₁.held a with
    | none =>
      refine lossless_of_flush (flush_of_none b (hflushed _ hv)) (H₂.flush_empties b) ?_
      rw [H₂.flush_emits, pending, hv]
    | some v =>
      cases h₂ : S₂.process b v with
      | mk t r => cases r with
        | some out =>
          have hleft : H₂.held t = none := h v t out hv h₂
          refine lossless_of_flush (flush_of_answer (hflushed _ hv) h₂) hleft ?_
          simp [pending, hv, h₂, hleft]
        | none =>
          refine lossless_of_flush (flush_of_silence (hflushed _ hv) h₂) (H₂.flush_empties t) ?_
          rw [H₂.flush_emits]
          simp [pending, hv, h₂]

end Flushing

/-- A stage that answers each item with the one before it. -/
def delay : Stage ℕ ℕ where
  State := Option ℕ
  init := none
  process held x := (some x, held)
  tick held := (held, none)
  reset _ := none
  flush held := (none, held)

/-- What it holds back is the last item. -/
def delayHolding : delay.Holding := ⟨id, fun _ => rfl, fun _ => rfl⟩

/-- Whether a call is one of those a worker makes before it flushes. -/
def Call.feeds : Call ι → Bool
  | .process _ | .tick => true
  | .reset | .flush => false

/-- Two of them behind each other, after two items: the second item comes out of the first delay
and stays in the second. -/
theorem not_forall_lossless : ¬ ∀ (S₁ S₂ : Stage ℕ ℕ) (H₁ : S₁.Holding) (H₂ : S₂.Holding)
    (cs : List (Call ℕ)), cs.all Call.feeds = true →
      Lossless H₁ H₂ (after (S₁.chain S₂).call (S₁.chain S₂).init cs) := by
  intro h
  have hone := (h delay delay delayHolding delayHolding [.process 1, .process 2] rfl).second_empty
  cases hone

end SensorBridge.Stage
