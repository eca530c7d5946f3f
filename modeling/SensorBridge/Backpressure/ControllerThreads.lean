import SensorBridge.Foundation.Threads
import SensorBridge.Backpressure.Controller

/-!
# A controller updated by many threads

`update` loads the quality level, decides on it and on the counter, and stores the level next to
the one it has loaded; any number of threads may be between the load and the store. The level
stays between `Full` and `Minimal` whatever they do (`level_le_minimal`), since each stores a
level next to one that was there. It moves by one at each store exactly when no thread stores
on what it loaded too long ago (`movesByOne_iff_reachBy`): a thread that stalls before its store
can put the level back by three (`not_forall_movesByOne`).
-/

namespace SensorBridge.Backpressure

open Foundation AdaptiveController

universe u

variable {F : Type u}

namespace AdaptiveController.Side

/-- Whether there is a level next to this one on the side. -/
def canMove : Side → ℕ → Bool
  | .above, current => decide (current < QualityLevel.minimal.toU32)
  | .below, current => decide (QualityLevel.full.toU32 < current)

/-- The level next to this one on the side. -/
def next : Side → ℕ → ℕ
  | .above, current => current + 1
  | .below, current => current - 1

/-- The level is two further to the side. -/
def isTwoOn : Side → ℕ → ℕ → Bool
  | .above, current, level => decide (level = current + 2)
  | .below, current, level => decide (current = level + 2)

end AdaptiveController.Side

/-- Where a thread is in `update`: what it does next. -/
inductive UpdatePc (F : Type u) where
  /-- `quality_level.load()`. -/
  | loadLevel (utilization : F)
  /-- It has loaded `current`; what it does with the counter is next. -/
  | loaded (utilization : F) (current : ℕ)
  /-- The store of the level next to `current`. -/
  | storeLevel (side : Side) (current : ℕ)
  /-- `hysteresis_counter.store(0)`. -/
  | storeCounter
  /-- It has returned. -/
  | returned

/-- A controller being updated. -/
structure Updating (F : Type u) where
  controller : AdaptiveController F
  /-- The calls, in the order in which they began. -/
  calls : List (UpdatePc F)
  /-- The stores to the level: what was there, and what was stored. -/
  stores : List (ℕ × ℕ)

namespace Updating

/-- What can happen next. -/
inductive Act (F : Type u) where
  /-- A thread calls `update`. -/
  | call (utilization : F)
  /-- Call `i` takes its next step. -/
  | step (i : ℕ)

/-- `fetch_add` of the counter, and the test on what it was. -/
def addCounter (s : Updating F) (i : ℕ) (side : Side) (current : ℕ) : Updating F :=
  { s with
    controller.hysteresisCounter := (s.controller.hysteresisCounter + 1) % 2 ^ 32
    calls := s.calls.set i
      (if s.controller.hysteresisThreshold ≤ s.controller.hysteresisCounter ∧
          side.canMove current = true then
        .storeLevel side current
      else .returned) }

/-- The store of the level. -/
def storeLevel (s : Updating F) (i : ℕ) (side : Side) (current : ℕ) : Updating F :=
  { s with
    controller.qualityLevel := side.next current
    calls := s.calls.set i .storeCounter
    stores := s.stores ++ [(s.controller.qualityLevel, side.next current)] }

/-- The store of zero to the counter, the last step. -/
def storeCounter (s : Updating F) (i : ℕ) : Updating F :=
  { s with controller.hysteresisCounter := 0, calls := s.calls.set i .returned }

/-- **What it takes of a step**: the level is stored when it is the one that was loaded, or
two on. -/
def fresh (s : Updating F) : Act F → Bool
  | .call _ => true
  | .step i => match s.calls[i]? with
    | some (.storeLevel side current) =>
      decide (s.controller.qualityLevel = current) || side.isTwoOn current s.controller.qualityLevel
    | _ => true

variable [LT F] [DecidableLT F]

/-- One step. -/
def step (s : Updating F) : Act F → Option (Updating F)
  | .call u => some { s with calls := s.calls ++ [.loadLevel u] }
  | .step i => match s.calls[i]? with
    | some (.loadLevel u) => some { s with calls := s.calls.set i (.loaded u s.controller.qualityLevel) }
    | some (.loaded u current) => match side s.controller.highWaterMark s.controller.lowWaterMark u with
      | some d => some (s.addCounter i d current)
      | none => some (s.storeCounter i)
    | some (.storeLevel d current) => some (s.storeLevel i d current)
    | some .storeCounter => some (s.storeCounter i)
    | _ => none

/-- The machine, for a builder's configuration. -/
def machine (b : AdaptiveControllerBuilder F) : Machine (Updating F) (Act F) where
  init s := ∃ c, b.build = some c ∧ s = ⟨c, [], []⟩
  step := step

variable {b : AdaptiveControllerBuilder F} {s s' : Updating F} {a : Act F}

/-- **What a step can be.** -/
theorem step_cases (h : s.step a = some s') :
    (∃ u, a = .call u ∧ s' = { s with calls := s.calls ++ [.loadLevel u] }) ∨
    (∃ i u, a = .step i ∧ s.calls[i]? = some (.loadLevel u) ∧
      s' = { s with calls := s.calls.set i (.loaded u s.controller.qualityLevel) }) ∨
    (∃ i u current d, a = .step i ∧ s.calls[i]? = some (.loaded u current) ∧
      side s.controller.highWaterMark s.controller.lowWaterMark u = some d ∧ s' = s.addCounter i d current) ∨
    (∃ i d current, a = .step i ∧ s.calls[i]? = some (.storeLevel d current) ∧
      s' = s.storeLevel i d current) ∨
    ∃ i, a = .step i ∧ (s.calls[i]? = some .storeCounter ∨
      ∃ u current, s.calls[i]? = some (.loaded u current) ∧
        side s.controller.highWaterMark s.controller.lowWaterMark u = none) ∧ s' = s.storeCounter i := by
  cases a with
  | call u =>
    cases h
    exact .inl ⟨u, rfl, rfl⟩
  | step i =>
    simp only [step] at h
    split at h
    · cases h
      exact .inr (.inl ⟨i, _, rfl, ‹_›, rfl⟩)
    · split at h
      · cases h
        exact .inr (.inr (.inl ⟨i, _, _, _, rfl, ‹_›, ‹_›, rfl⟩))
      · cases h
        exact .inr (.inr (.inr (.inr ⟨i, rfl, .inr ⟨_, _, ‹_›, ‹_›⟩, rfl⟩)))
    · cases h
      exact .inr (.inr (.inr (.inl ⟨i, _, _, rfl, ‹_›, rfl⟩)))
    · cases h
      exact .inr (.inr (.inr (.inr ⟨i, rfl, .inl ‹_›, rfl⟩)))
    · cases h

/-! ### The level stays in range -/

theorem next_le {d : Side} {current : ℕ} (hmove : d.canMove current = true)
    (hle : current ≤ QualityLevel.minimal.toU32) : d.next current ≤ QualityLevel.minimal.toU32 := by
  cases d with
  | above => exact of_decide_eq_true hmove
  | below => exact (Nat.sub_le _ _).trans hle

/-- The level is in range, and so is what the calls have loaded. -/
structure Inv (s : Updating F) : Prop where
  level_le : s.controller.qualityLevel ≤ QualityLevel.minimal.toU32
  loaded_le : ∀ u current, .loaded u current ∈ s.calls → current ≤ QualityLevel.minimal.toU32
  store_le : ∀ d current, .storeLevel d current ∈ s.calls →
    d.canMove current = true ∧ current ≤ QualityLevel.minimal.toU32

omit [LT F] [DecidableLT F] in
/-- A call goes on to something that holds no level out of range. -/
theorem Inv.set (h : Inv s) {i : ℕ} {pc : UpdatePc F} {c : AdaptiveController F}
    (hlevel : c.qualityLevel ≤ QualityLevel.minimal.toU32)
    (hloaded : ∀ u current, pc = .loaded u current → current ≤ QualityLevel.minimal.toU32)
    (hstore : ∀ d current, pc = .storeLevel d current →
      d.canMove current = true ∧ current ≤ QualityLevel.minimal.toU32) (stores : List (ℕ × ℕ)) :
    Inv ⟨c, s.calls.set i pc, stores⟩ := by
  refine ⟨hlevel, ?_, ?_⟩
  · intro u current hmem
    rcases List.mem_or_eq_of_mem_set hmem with hmem | heq
    · exact h.loaded_le u current hmem
    · exact hloaded u current heq.symm
  · intro d current hmem
    rcases List.mem_or_eq_of_mem_set hmem with hmem | heq
    · exact h.store_le d current hmem
    · exact hstore d current heq.symm

theorem Inv.step (h : Inv s) (hs : s.step a = some s') : Inv s' := by
  rcases step_cases hs with ⟨u, -, rfl⟩ | ⟨i, u, -, hi, rfl⟩ | ⟨i, u, current, d, -, hi, -, rfl⟩ |
    ⟨i, d, current, -, hi, rfl⟩ | ⟨i, -, -, rfl⟩
  · refine ⟨h.level_le, ?_, ?_⟩
    · intro v current hmem
      exact h.loaded_le v current (by simpa using hmem)
    · intro d current hmem
      exact h.store_le d current (by simpa using hmem)
  · refine h.set h.level_le ?_ ?_ _
    · intro v current heq
      cases heq
      exact h.level_le
    · intro d current heq
      cases heq
  · have hle := h.loaded_le u current (List.mem_of_getElem? hi)
    refine h.set (c := (s.addCounter i d current).controller) h.level_le ?_ ?_ _
    · intro v current' heq
      split_ifs at heq
    · intro d' current' heq
      split_ifs at heq with hpast
      cases heq
      exact ⟨hpast.2, hle⟩
  · obtain ⟨hmove, hle⟩ := h.store_le d current (List.mem_of_getElem? hi)
    refine h.set (next_le hmove hle) ?_ ?_ _
    · intro v current' heq
      cases heq
    · intro d' current' heq
      cases heq
  · refine h.set (c := (s.storeCounter i).controller) h.level_le ?_ ?_ _
    · intro v current heq
      cases heq
    · intro d current heq
      cases heq

theorem inv_of_reach {C : Updating F → Act F → Prop} (h : (machine b).ReachBy C s) : Inv s := by
  refine h.invariant (I := Inv) ?_ ?_
  · intro s hs
    obtain ⟨c, hbuild, rfl⟩ := hs
    obtain ⟨-, hc⟩ := Option.ite_none_right_eq_some.mp hbuild
    obtain rfl := Option.some.inj hc
    exact ⟨Nat.zero_le _, by simp, by simp⟩
  · intro s a s' hs _ hstep
    exact hs.step hstep

/-- **The level stays between `Full` and `Minimal`**, whatever the threads do. -/
theorem level_le_minimal (h : (machine b).Reach s) :
    s.controller.qualityLevel ≤ QualityLevel.minimal.toU32 := (inv_of_reach h).level_le

/-! ### The level moves by one -/

/-- A store changes the level by one. -/
def ByOne (w : ℕ × ℕ) : Prop := w.2 = w.1 + 1 ∨ w.1 = w.2 + 1

/-- **The level is in range and has moved by one at each store.** -/
def MovesByOne (s : Updating F) : Prop :=
  s.controller.qualityLevel ≤ QualityLevel.minimal.toU32 ∧ ∀ w ∈ s.stores, ByOne w

theorem byOne_next_iff {d : Side} {current level : ℕ} (hmove : d.canMove current = true) :
    ByOne (level, d.next current) ↔ level = current ∨ d.isTwoOn current level = true := by
  cases d with
  | above =>
    simp only [ByOne, Side.next, Side.isTwoOn, decide_eq_true_eq]
    omega
  | below =>
    have hpos : 0 < current := of_decide_eq_true hmove
    simp only [ByOne, Side.next, Side.isTwoOn, decide_eq_true_eq]
    omega

/-- What a step does to the stores: one is added that moves the level by one exactly when the
step is fresh; any other step is fresh. -/
theorem stores_step (h : Inv s) (hs : s.step a = some s') :
    (s'.stores = s.stores ∧ s.fresh a = true) ∨
      ∃ w, s'.stores = s.stores ++ [w] ∧ (ByOne w ↔ s.fresh a = true) := by
  rcases step_cases hs with ⟨u, rfl, rfl⟩ | ⟨i, u, rfl, hi, rfl⟩ | ⟨i, u, current, d, rfl, hi, -, rfl⟩ |
    ⟨i, d, current, rfl, hi, rfl⟩ | ⟨i, rfl, hi | ⟨u, current, hi, -⟩, rfl⟩
  · exact .inl ⟨rfl, rfl⟩
  · exact .inl ⟨rfl, by simp [fresh, hi]⟩
  · exact .inl ⟨rfl, by simp [fresh, hi]⟩
  · obtain ⟨hmove, -⟩ := h.store_le d current (List.mem_of_getElem? hi)
    refine .inr ⟨_, rfl, ?_⟩
    rw [byOne_next_iff hmove]
    simp [fresh, hi]
  · exact .inl ⟨rfl, by simp [fresh, hi]⟩
  · exact .inl ⟨rfl, by simp [fresh, hi]⟩

/-- **The level has moved by one at each store exactly when every step was fresh.** -/
theorem movesByOne_iff_reachBy (b : AdaptiveControllerBuilder F) (s : Updating F)
    (h : (machine b).Reach s) :
    MovesByOne s ↔ (machine b).ReachBy (fun s a => s.fresh a = true) s := by
  have hstores : (∀ w ∈ s.stores, ByOne w) ↔ (machine b).ReachBy (fun s a => s.fresh a = true) s := by
    refine Machine.ReachBy.forall_log_iff stores ?_ ?_ h
    · rintro s ⟨c, -, rfl⟩
      rfl
    · intro s a s' hr hs
      exact stores_step (inv_of_reach hr) hs
  constructor
  · intro hmoves
    exact hstores.mp hmoves.2
  · intro hfresh
    exact ⟨level_le_minimal h, hstores.mpr hfresh⟩

/-- A builder with a threshold of 0. -/
def eager : AdaptiveControllerBuilder ℚ := AdaptiveControllerBuilder.new.withHysteresisThreshold 0

/-- Two updates, the second of which loads after the first has stored. -/
theorem movesByOne_iff_reachBy_eager :
    ∃ s, MovesByOne s ∧ (machine eager).Reach s ∧ s.stores = [(0, 1), (1, 2)] := by
  obtain ⟨s, hs, htest⟩ := Machine.exists_reachBy_of_runBy (M := machine eager)
    (C := fun s a => s.fresh a = true) ⟨_, if_pos (by decide +kernel), rfl⟩
    [.call 0.9, .call 0.9, .step 0, .step 0, .step 0, .step 1, .step 0, .step 1, .step 1, .step 1]
    (fun s => decide (s.stores = [(0, 1), (1, 2)])) (by decide +kernel)
  exact ⟨s, (movesByOne_iff_reachBy eager s hs.reach).mpr hs, hs.reach, of_decide_eq_true htest⟩

/-- A high update stalls before its store; four others raise the level to `Minimal`, and the
first puts it back to `High`. -/
theorem not_forall_movesByOne : ¬ ∀ (b : AdaptiveControllerBuilder ℚ) (s : Updating ℚ),
    (machine b).Reach s → MovesByOne s := by
  intro h
  obtain ⟨s, hs, htest⟩ := Machine.exists_reach_of_run (M := machine eager)
    ⟨_, if_pos (by decide +kernel), rfl⟩
    (List.flatten [.replicate 5 (.call 0.9), [.step 0, .step 0],
      [1, 2, 3, 4].flatMap (fun i => .replicate 4 (.step i)), [.step 0]])
    (fun s => decide (s.stores = [(0, 1), (1, 2), (2, 3), (3, 4), (4, 1)])) (by decide +kernel)
  have hlast := (h eager s hs).2 (4, 1) (by rw [of_decide_eq_true htest]; simp)
  simp [ByOne] at hlast

/-! ### One call -/

/-- The steps of a call that is on a side. -/
theorem run_side (s : Updating F) (u : F) {d : Side}
    (hside : side s.controller.highWaterMark s.controller.lowWaterMark u = some d) :
    ∃ as s', (machine b).run s as = some s' ∧ s'.controller =
      s.controller.countUpdate (d.canMove s.controller.qualityLevel) (d.next s.controller.qualityLevel) := by
  by_cases hpast : s.controller.hysteresisThreshold ≤ s.controller.hysteresisCounter ∧
      d.canMove s.controller.qualityLevel = true
  · refine ⟨.call u :: .replicate 4 (.step s.calls.length), ?_⟩
    simp [Machine.run, machine, Updating.step, hside, addCounter, storeLevel, storeCounter, countUpdate, hpast]
  · refine ⟨.call u :: .replicate 2 (.step s.calls.length), ?_⟩
    simp [Machine.run, machine, Updating.step, hside, addCounter, countUpdate, hpast]

/-- A call that no other thread interrupts is `AdaptiveController::update`. -/
theorem run_update (s : Updating F) (u : F) :
    ∃ as s', (machine b).run s as = some s' ∧ s'.controller = s.controller.update u := by
  by_cases hhigh : s.controller.highWaterMark < u
  · rw [update, if_pos hhigh]
    exact run_side s u (if_pos hhigh)
  · by_cases hlow : u < s.controller.lowWaterMark
    · rw [update, if_neg hhigh, if_pos hlow]
      refine run_side s u (d := .below) ?_
      rw [side, if_neg hhigh, if_pos hlow]
    · have hside : side s.controller.highWaterMark s.controller.lowWaterMark u = none := by
        rw [side, if_neg hhigh, if_neg hlow]
      refine ⟨.call u :: .replicate 2 (.step s.calls.length), ?_⟩
      simp [Machine.run, machine, Updating.step, hside, storeCounter, update, hhigh, hlow]

end Updating

end SensorBridge.Backpressure
