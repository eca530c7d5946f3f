import SensorBridge.Foundation.Transducer

/-!
# Stages

A `Stage` is a state machine with four methods: `process` an item, `tick` when
there is none, `reset`, and `flush` at shutdown. `&mut self` is a state that each
method takes and gives back.

`Chain` puts one stage behind another. Fed item by item it is the composition of
two transducers (`outputs_chain`), which is what a pipeline of threads is to be
compared with.
-/

namespace SensorBridge

open Foundation.Transducer

universe u

/-- A processing stage: the value handed to a worker, and its methods. -/
structure Stage (ι ο : Type u) where
  /-- The values `self` can have. -/
  State : Type u
  /-- The value the stage is constructed with. -/
  init : State
  /-- Process one input, optionally producing output. -/
  process : State → ι → State × Option ο
  /-- Called when no input is available. -/
  tick : State → State × Option ο
  /-- Reset to the initial state. -/
  reset : State → State
  /-- Called when the pipeline is shutting down. -/
  flush : State → State × Option ο

namespace Stage

variable {ι μ ο : Type u}

/-- The outputs of `process` on a list of inputs, from the initial state. -/
def outputs (S : Stage ι ο) (xs : List ι) : List ο := emit S.process S.init xs

/-- A stage that keeps the default methods: `tick` returns `None`, `flush` calls `tick`. -/
def ofProcess {σ : Type u} (init : σ) (process : σ → ι → σ × Option ο) (reset : σ → σ) :
    Stage ι ο where
  State := σ
  init := init
  process := process
  tick s := (s, none)
  reset := reset
  flush s := (s, none)

/-- `FilterMap`, whose closure may keep a state of its own; `reset` does not touch it. -/
def filterMap {σ : Type u} (init : σ) (f : σ → ι → σ × Option ο) : Stage ι ο := ofProcess init f id

/-- `Map`. -/
def map (f : ι → ο) : Stage ι ο := filterMap PUnit.unit fun s x => (s, some (f x))

/-- `Filter`. -/
def filter (predicate : ι → Bool) : Stage ι ι :=
  filterMap PUnit.unit fun s x => (s, if predicate x then some x else none)

/-- `Identity`. -/
def identity : Stage ι ι := map id

/-- `Chain<S1, S2>`: the output of the first stage goes to the second. -/
def chain (S₁ : Stage ι μ) (S₂ : Stage μ ο) : Stage ι ο where
  State := S₁.State × S₂.State
  init := (S₁.init, S₂.init)
  process p x :=
    -- self.first.process(input).and_then(|mid| self.second.process(mid))
    match S₁.process p.1 x with
    | (s, none) => ((s, p.2), none)
    | (s, some mid) => ((s, (S₂.process p.2 mid).1), (S₂.process p.2 mid).2)
  tick p :=
    match S₁.tick p.1 with
    | (s, none) => ((s, (S₂.tick p.2).1), (S₂.tick p.2).2)
    | (s, some mid) =>
      match S₂.process p.2 mid with
      | (t, some out) => ((s, t), some out)
      | (t, none) => ((s, (S₂.tick t).1), (S₂.tick t).2)
  reset p := (S₁.reset p.1, S₂.reset p.2)
  flush p :=
    match S₁.flush p.1 with
    | (s, none) => ((s, (S₂.flush p.2).1), (S₂.flush p.2).2)
    | (s, some mid) =>
      match S₂.process p.2 mid with
      | (t, some out) => ((s, t), some out)
      | (t, none) => ((s, (S₂.flush t).1), (S₂.flush t).2)

theorem process_chain (S₁ : Stage ι μ) (S₂ : Stage μ ο) :
    (chain S₁ S₂).process = comp S₁.process S₂.process := by
  funext p x
  simp only [chain, comp]
  split <;> simp_all

/-- **A chain is the composition of its stages**: it outputs what the second outputs on
what the first outputs. -/
theorem outputs_chain (S₁ : Stage ι μ) (S₂ : Stage μ ο) (xs : List ι) :
    (chain S₁ S₂).outputs xs = S₂.outputs (S₁.outputs xs) := by
  rw [outputs, process_chain]
  exact emit_comp S₁.process S₂.process S₁.init S₂.init xs

/-- More inputs, more outputs. -/
theorem outputs_mono (S : Stage ι ο) {xs ys : List ι} (h : xs <+: ys) :
    S.outputs xs <+: S.outputs ys := emit_mono S.process S.init h

end Stage

end SensorBridge
