import SensorBridge.Foundation.Machine
import SensorBridge.Foundation.Log
import Mathlib.Algebra.Order.Ring.Unbundled.Rat
import Mathlib.Algebra.Ring.Nat

/-!
# The adaptive controller

An `AdaptiveController` moves a quality level up or down, one at a time, as the utilization it
is updated with is above a high or below a low water mark. A counter is to keep the level from
oscillating: it counts the updates on one side, and the level moves when it is past a threshold.

The level should move only after a run of updates on the side it moves to (`Hysteretic`). There
is only one counter for both sides, and an update on the other side does not reset it: it counts
what came before towards the move the other way. At `Full`, where it cannot fall, low updates
fill the counter, and the first high one raises the level (`not_forall_hysteretic`). It is
hysteretic when the sides are changed only with the counter at zero (`hysteretic_of_oneSided`).

The utilization is a float in the source. Here it is of any type with a `<`, of which nothing
is assumed: comparing with NaN is always false.
-/

namespace SensorBridge.Backpressure

open Foundation Log

universe u

/-! ### Quality levels -/

/-- Quality level for adaptive degradation. -/
inductive QualityLevel where
  | full
  | high
  | medium
  | low
  | minimal
  deriving DecidableEq

namespace QualityLevel

/-- The level's discriminant. -/
def toU32 : QualityLevel → ℕ
  | full => 0
  | high => 1
  | medium => 2
  | low => 3
  | minimal => 4

/-- `QualityLevel::sample_rate`. -/
def sampleRate : QualityLevel → ℕ
  | full => 1
  | high => 2
  | medium => 4
  | low => 8
  | minimal => 16

/-- `QualityLevel::from_u8`. -/
def fromU8 : ℕ → QualityLevel
  | 0 => full
  | 1 => high
  | 2 => medium
  | 3 => low
  | _ => minimal

theorem fromU8_toU32 (l : QualityLevel) : fromU8 l.toU32 = l := by cases l <;> rfl

theorem toU32_le (l : QualityLevel) : l.toU32 ≤ minimal.toU32 := by cases l <;> decide

end QualityLevel

/-! ### The controller -/

/-- Tracks statistics for backpressure decisions. -/
structure BackpressureStats where
  /-- Number of items accepted. -/
  accepted : ℕ
  /-- Number of items dropped. -/
  dropped : ℕ
  /-- Number of times blocked. -/
  blocked : ℕ
  /-- Number of times sampled out. -/
  sampledOut : ℕ
  deriving DecidableEq

namespace BackpressureStats

/-- `BackpressureStats::new`, and what `reset` makes of it. -/
def new : BackpressureStats := ⟨0, 0, 0, 0⟩

/-- `record_accepted`. -/
def recordAccepted (s : BackpressureStats) : BackpressureStats :=
  { s with accepted := (s.accepted + 1) % 2 ^ 64 }

/-- `record_sampled_out`. -/
def recordSampledOut (s : BackpressureStats) : BackpressureStats :=
  { s with sampledOut := (s.sampledOut + 1) % 2 ^ 64 }

end BackpressureStats

/-- An adaptive controller that adjusts quality based on load. -/
structure AdaptiveController (F : Type u) where
  /-- High water mark (utilization threshold to trigger degradation). -/
  highWaterMark : F
  /-- Low water mark (utilization threshold to restore quality). -/
  lowWaterMark : F
  /-- Current quality level. -/
  qualityLevel : ℕ
  /-- Sampler for current quality level. -/
  sampleCounter : ℕ
  /-- Hysteresis counter to prevent rapid oscillation. -/
  hysteresisCounter : ℕ
  /-- Hysteresis threshold. -/
  hysteresisThreshold : ℕ
  /-- Statistics. -/
  stats : BackpressureStats

/-- Builder for `AdaptiveController`. -/
structure AdaptiveControllerBuilder (F : Type u) where
  highWaterMark : F
  lowWaterMark : F
  hysteresisThreshold : ℕ

variable {F : Type u}

namespace AdaptiveControllerBuilder

variable [LT F] [DecidableLT F]

/-- `x.clamp(min, max)`. -/
def clamp (x min max : F) : F :=
  let y := if x < min then min else x
  if max < y then max else y

/-- `AdaptiveControllerBuilder::new`. -/
def new [OfScientific F] : AdaptiveControllerBuilder F := ⟨0.8, 0.5, 10⟩

/-- `.high_water_mark(mark)`. -/
def withHighWaterMark [OfScientific F] (b : AdaptiveControllerBuilder F) (mark : F) :
    AdaptiveControllerBuilder F := { b with highWaterMark := clamp mark 0.0 1.0 }

/-- `.low_water_mark(mark)`. -/
def withLowWaterMark [OfScientific F] (b : AdaptiveControllerBuilder F) (mark : F) :
    AdaptiveControllerBuilder F := { b with lowWaterMark := clamp mark 0.0 1.0 }

/-- `.hysteresis_threshold(threshold)`. -/
def withHysteresisThreshold (b : AdaptiveControllerBuilder F) (threshold : ℕ) :
    AdaptiveControllerBuilder F := { b with hysteresisThreshold := threshold }

/-- `AdaptiveControllerBuilder::build`; `none` when the assertion panics. -/
def build (b : AdaptiveControllerBuilder F) : Option (AdaptiveController F) :=
  if b.lowWaterMark < b.highWaterMark then
    some ⟨b.highWaterMark, b.lowWaterMark, QualityLevel.full.toU32, 0, 0, b.hysteresisThreshold, .new⟩
  else none

end AdaptiveControllerBuilder

namespace AdaptiveController

/-- `AdaptiveController::quality`. -/
def quality (c : AdaptiveController F) : QualityLevel := .fromU8 (c.qualityLevel % 2 ^ 8)

/-- An update on one side: the counter counts it; past the threshold the level is stored, if
it can move, and the counter starts again. -/
def countUpdate (c : AdaptiveController F) (canMove : Bool) (level : ℕ) : AdaptiveController F :=
  if c.hysteresisThreshold ≤ c.hysteresisCounter ∧ canMove = true then
    { c with qualityLevel := level, hysteresisCounter := 0 }
  else { c with hysteresisCounter := (c.hysteresisCounter + 1) % 2 ^ 32 }

/-- What `should_accept` does after the update. -/
def sample (c : AdaptiveController F) : Bool × AdaptiveController F :=
  if c.quality.sampleRate = 1 then (true, { c with stats := c.stats.recordAccepted })
  else
    let accepted := decide (c.sampleCounter % c.quality.sampleRate = 0)
    (accepted, { c with sampleCounter := (c.sampleCounter + 1) % 2 ^ 64
                        stats := if accepted then c.stats.recordAccepted else c.stats.recordSampledOut })

/-- `AdaptiveController::set_quality`. -/
def setQuality (c : AdaptiveController F) (level : QualityLevel) : AdaptiveController F :=
  { c with qualityLevel := level.toU32, hysteresisCounter := 0 }

/-- `AdaptiveController::reset`. -/
def reset (c : AdaptiveController F) : AdaptiveController F :=
  { c with qualityLevel := QualityLevel.full.toU32, sampleCounter := 0, hysteresisCounter := 0
           stats := .new }

/-- What `should_accept` does after the update leaves the level and the counter alone. -/
theorem sample_eq (c : AdaptiveController F) :
    c.sample.2.highWaterMark = c.highWaterMark ∧ c.sample.2.lowWaterMark = c.lowWaterMark ∧
      c.sample.2.hysteresisThreshold = c.hysteresisThreshold ∧
      c.sample.2.qualityLevel = c.qualityLevel ∧ c.sample.2.hysteresisCounter = c.hysteresisCounter := by
  unfold sample
  split_ifs <;> exact ⟨rfl, rfl, rfl, rfl, rfl⟩

theorem countUpdate_cases (c : AdaptiveController F) (canMove : Bool) (level : ℕ) :
    (c.hysteresisThreshold ≤ c.hysteresisCounter ∧ canMove = true ∧
      c.countUpdate canMove level = { c with qualityLevel := level, hysteresisCounter := 0 }) ∨
    c.countUpdate canMove level =
      { c with hysteresisCounter := (c.hysteresisCounter + 1) % 2 ^ 32 } := by
  unfold countUpdate
  split_ifs with h
  · exact .inl ⟨h.1, h.2, rfl⟩
  · exact .inr rfl

theorem config_countUpdate (c : AdaptiveController F) (canMove : Bool) (level : ℕ) :
    (c.countUpdate canMove level).highWaterMark = c.highWaterMark ∧
      (c.countUpdate canMove level).lowWaterMark = c.lowWaterMark ∧
      (c.countUpdate canMove level).hysteresisThreshold = c.hysteresisThreshold := by
  unfold countUpdate
  split_ifs <;> exact ⟨rfl, rfl, rfl⟩

/-- A call. -/
inductive Call (F : Type u) where
  | update (utilization : F)
  | shouldAccept (utilization : F)
  | setQuality (level : QualityLevel)
  | reset
  deriving DecidableEq

/-- What a call updates with, if it updates. -/
def Call.utilization : Call F → Option F
  | .update u | .shouldAccept u => some u
  | .setQuality _ | .reset => none

section Update

variable [LT F] [DecidableLT F]

/-- `AdaptiveController::update`. -/
def update (c : AdaptiveController F) (utilization : F) : AdaptiveController F :=
  if c.highWaterMark < utilization then
    c.countUpdate (decide (c.qualityLevel < QualityLevel.minimal.toU32)) (c.qualityLevel + 1)
  else if utilization < c.lowWaterMark then
    c.countUpdate (decide (QualityLevel.full.toU32 < c.qualityLevel)) (c.qualityLevel - 1)
  else { c with hysteresisCounter := 0 }

/-- `AdaptiveController::should_accept`. -/
def shouldAccept (c : AdaptiveController F) (utilization : F) : Bool × AdaptiveController F :=
  (c.update utilization).sample

/-- The controller after a call. -/
def apply (c : AdaptiveController F) : Call F → AdaptiveController F
  | .update u => c.update u
  | .shouldAccept u => (c.shouldAccept u).2
  | .setQuality level => c.setQuality level
  | .reset => c.reset

/-- The side of the water marks an update is on. -/
inductive Side where
  | above
  | below
  deriving DecidableEq

/-- The side a utilization is on. -/
def side (high low u : F) : Option Side :=
  if high < u then some .above else if u < low then some .below else none

/-- The side a call updates on, if it updates and is on one. -/
def Call.side (high low : F) (call : Call F) : Option Side :=
  call.utilization.bind (AdaptiveController.side high low)

/-- The level moves by one to a side. -/
def Side.Moves : Side → ℕ → ℕ → Prop
  | .above, before, after => after = before + 1
  | .below, before, after => before = after + 1

theorem side_cases (high low u : F) :
    (side high low u = some .above ∧ high < u) ∨ (side high low u = some .below ∧ u < low) ∨
      side high low u = none := by
  unfold side
  split_ifs with hhigh hlow
  · exact .inl ⟨rfl, hhigh⟩
  · exact .inr (.inl ⟨rfl, hlow⟩)
  · exact .inr (.inr rfl)

/-- An update past the threshold moves the level to its side; another update on a side is
counted, and one on no side resets the counter. -/
theorem update_cases (c : AdaptiveController F) (u : F) :
    (∃ d, side c.highWaterMark c.lowWaterMark u = some d ∧
      c.hysteresisThreshold ≤ c.hysteresisCounter ∧ d.Moves c.qualityLevel (c.update u).qualityLevel ∧
      (c.update u).hysteresisCounter = 0) ∨
    (∃ d, side c.highWaterMark c.lowWaterMark u = some d ∧ (c.update u).qualityLevel = c.qualityLevel ∧
      (c.update u).hysteresisCounter = (c.hysteresisCounter + 1) % 2 ^ 32) ∨
    (c.update u).qualityLevel = c.qualityLevel ∧ (c.update u).hysteresisCounter = 0 := by
  unfold update side
  split_ifs with hhigh hlow
  · rcases c.countUpdate_cases (decide (c.qualityLevel < QualityLevel.minimal.toU32)) (c.qualityLevel + 1)
      with ⟨hpast, -, heq⟩ | heq
    · rw [heq]
      exact .inl ⟨.above, rfl, hpast, rfl, rfl⟩
    · rw [heq]
      exact .inr (.inl ⟨.above, rfl, rfl, rfl⟩)
  · rcases c.countUpdate_cases (decide (QualityLevel.full.toU32 < c.qualityLevel)) (c.qualityLevel - 1)
      with ⟨hpast, hmove, heq⟩ | heq
    · have hpos : c.qualityLevel = c.qualityLevel - 1 + 1 :=
        (Nat.sub_add_cancel (of_decide_eq_true hmove)).symm
      rw [heq]
      exact .inl ⟨.below, rfl, hpast, hpos, rfl⟩
    · rw [heq]
      exact .inr (.inl ⟨.below, rfl, rfl, rfl⟩)
  · exact .inr (.inr ⟨rfl, rfl⟩)

theorem config_update (c : AdaptiveController F) (u : F) :
    (c.update u).highWaterMark = c.highWaterMark ∧ (c.update u).lowWaterMark = c.lowWaterMark ∧
      (c.update u).hysteresisThreshold = c.hysteresisThreshold := by
  unfold update
  split_ifs
  · exact c.config_countUpdate _ _
  · exact c.config_countUpdate _ _
  · exact ⟨rfl, rfl, rfl⟩

/-- **What a call can do** to the level and to the counter. -/
theorem apply_cases (c : AdaptiveController F) (call : Call F) :
    (∃ d, call.side c.highWaterMark c.lowWaterMark = some d ∧
      c.hysteresisThreshold ≤ c.hysteresisCounter ∧ d.Moves c.qualityLevel (c.apply call).qualityLevel ∧
      (c.apply call).hysteresisCounter = 0) ∨
    (∃ d, call.side c.highWaterMark c.lowWaterMark = some d ∧
      (c.apply call).qualityLevel = c.qualityLevel ∧
      (c.apply call).hysteresisCounter = (c.hysteresisCounter + 1) % 2 ^ 32) ∨
    (call.utilization = none ∨ (c.apply call).qualityLevel = c.qualityLevel) ∧
      (c.apply call).hysteresisCounter = 0 := by
  cases call with
  | update u =>
    rcases c.update_cases u with h | h | ⟨hlevel, hcounter⟩
    · exact .inl h
    · exact .inr (.inl h)
    · exact .inr (.inr ⟨.inr hlevel, hcounter⟩)
  | shouldAccept u =>
    obtain ⟨-, -, -, hlevel', hcounter'⟩ := sample_eq (c.update u)
    simp only [apply, shouldAccept, hlevel', hcounter']
    rcases c.update_cases u with h | h | ⟨hlevel, hcounter⟩
    · exact .inl h
    · exact .inr (.inl h)
    · exact .inr (.inr ⟨.inr hlevel, hcounter⟩)
  | setQuality level => exact .inr (.inr ⟨.inl rfl, rfl⟩)
  | reset => exact .inr (.inr ⟨.inl rfl, rfl⟩)

/-- No call changes the configuration. -/
theorem config_apply (c : AdaptiveController F) (call : Call F) :
    (c.apply call).highWaterMark = c.highWaterMark ∧ (c.apply call).lowWaterMark = c.lowWaterMark ∧
      (c.apply call).hysteresisThreshold = c.hysteresisThreshold := by
  cases call with
  | update u => exact c.config_update u
  | shouldAccept u =>
    obtain ⟨hhigh, hlow, hthreshold, -⟩ := sample_eq (c.update u)
    obtain ⟨hhigh', hlow', hthreshold'⟩ := c.config_update u
    exact ⟨hhigh.trans hhigh', hlow.trans hlow', hthreshold.trans hthreshold'⟩
  | setQuality level => exact ⟨rfl, rfl, rfl⟩
  | reset => exact ⟨rfl, rfl, rfl⟩

end Update

end AdaptiveController

/-! ### A controller in use -/

/-- A call that was made, with the level before and after. -/
structure Controlled.Entry (F : Type u) where
  call : AdaptiveController.Call F
  before : ℕ
  after : ℕ
  deriving DecidableEq

/-- A controller in use by one thread. -/
structure Controlled (F : Type u) where
  controller : AdaptiveController F
  /-- The calls made so far. -/
  log : List (Controlled.Entry F)

namespace Controlled

open AdaptiveController

/-- An update that moved the level to a side. -/
def Entry.Moved (d : Side) (e : Entry F) : Prop :=
  e.call.utilization ≠ none ∧ d.Moves e.before e.after

/-- An update with a utilization above the high mark, or below the low mark. -/
def Entry.Beyond [LT F] (b : AdaptiveControllerBuilder F) : Side → Entry F → Prop
  | .above, e => ∃ u, e.call.utilization = some u ∧ b.highWaterMark < u
  | .below, e => ∃ u, e.call.utilization = some u ∧ u < b.lowWaterMark

/-- **Hysteresis**: an update that moves the level is beyond the mark on that side, and so were
the updates right before it, as many as the threshold, none of which moved the level. -/
def Hysteretic [LT F] (b : AdaptiveControllerBuilder F) (s : Controlled F) : Prop :=
  ∀ d, Preceded (Entry.Moved d)
    (fun l e => e.Beyond b d ∧
      Streak (fun e => e.Beyond b d ∧ e.after = e.before) b.hysteresisThreshold l) s.log

variable [LT F] [DecidableLT F]

/-- A call is made. -/
def step (s : Controlled F) (call : Call F) : Controlled F :=
  ⟨s.controller.apply call,
    s.log ++ [⟨call, s.controller.qualityLevel, (s.controller.apply call).qualityLevel⟩]⟩

/-- The machine, for a builder's configuration. -/
def machine (b : AdaptiveControllerBuilder F) : Machine (Controlled F) (Call F) where
  init s := ∃ c, b.build = some c ∧ s = ⟨c, []⟩
  step s call := some (s.step call)

/-- The side of the last call. -/
def lastSide (s : Controlled F) : Option Side :=
  s.log.getLast?.bind fun e => e.call.side s.controller.highWaterMark s.controller.lowWaterMark

/-- **What it takes of a call**: it does not update on one side right after an update on the
other, or the counter is zero. -/
def oneSided (s : Controlled F) (call : Call F) : Bool :=
  decide (s.controller.hysteresisCounter = 0) ||
    match call.side s.controller.highWaterMark s.controller.lowWaterMark, s.lastSide with
    | some .above, some .below | some .below, some .above => false
    | _, _ => true

variable {b : AdaptiveControllerBuilder F} {s s' : Controlled F} {call : Call F}

/-- An update on a side that left the level as it was. -/
def Entry.Steady (b : AdaptiveControllerBuilder F) (d : Side) (e : Entry F) : Prop :=
  e.call.side b.highWaterMark b.lowWaterMark = some d ∧ e.after = e.before

/-- What holds when the sides are changed only with the counter at zero: the counter counts
updates on one side. -/
structure Inv (b : AdaptiveControllerBuilder F) (s : Controlled F) : Prop where
  highWaterMark_eq : s.controller.highWaterMark = b.highWaterMark
  lowWaterMark_eq : s.controller.lowWaterMark = b.lowWaterMark
  threshold_eq : s.controller.hysteresisThreshold = b.hysteresisThreshold
  streak : ∃ d, Streak (Entry.Steady b d) s.controller.hysteresisCounter s.log
  hysteretic : Hysteretic b s

theorem beyond_of_side {e : Entry F} {d : Side} (h : e.call.side b.highWaterMark b.lowWaterMark = some d) :
    e.Beyond b d := by
  obtain ⟨u, hu, hside⟩ := Option.bind_eq_some_iff.mp h
  rcases side_cases b.highWaterMark b.lowWaterMark u with ⟨heq, hbeyond⟩ | ⟨heq, hbeyond⟩ | heq
  · obtain rfl := Option.some.inj (heq.symm.trans hside)
    exact ⟨u, hu, hbeyond⟩
  · obtain rfl := Option.some.inj (heq.symm.trans hside)
    exact ⟨u, hu, hbeyond⟩
  · rw [heq] at hside
    cases hside

theorem Moves.unique {d d' : Side} {m n : ℕ} (h : d.Moves m n) (h' : d'.Moves m n) : d = d' := by
  cases d <;> cases d' <;> simp only [Side.Moves] at h h' <;> first | rfl | omega

theorem not_moves_self {d : Side} {n : ℕ} : ¬ d.Moves n n := by
  cases d <;> simp [Side.Moves]

/-- What is counted is on the side of the call. -/
theorem Inv.streak_of_side (h : Inv b s) (hc : s.oneSided call = true) {d : Side}
    (hside : call.side b.highWaterMark b.lowWaterMark = some d) :
    Streak (Entry.Steady b d) s.controller.hysteresisCounter s.log := by
  by_cases hzero : s.controller.hysteresisCounter = 0
  · rw [hzero]
    exact streak_zero
  · obtain ⟨d', hstreak⟩ := h.streak
    obtain ⟨e, he, hsteady, -⟩ := hstreak.last (Nat.pos_of_ne_zero hzero)
    have hlast : s.lastSide = some d' := by
      rw [lastSide, h.highWaterMark_eq, h.lowWaterMark_eq, he]
      exact hsteady
    rw [oneSided, h.highWaterMark_eq, h.lowWaterMark_eq, hside, hlast, decide_eq_false hzero] at hc
    cases d <;> cases d'
    · exact hstreak
    · cases hc
    · cases hc
    · exact hstreak

theorem Inv.step (h : Inv b s) (hc : s.oneSided call = true) : Inv b (s.step call) := by
  obtain ⟨hhigh, hlow, hthreshold⟩ := s.controller.config_apply call
  have hcases := s.controller.apply_cases call
  rw [h.highWaterMark_eq, h.lowWaterMark_eq, h.threshold_eq] at hcases
  refine ⟨hhigh.trans h.highWaterMark_eq, hlow.trans h.lowWaterMark_eq, hthreshold.trans h.threshold_eq,
    ?_, ?_⟩
  · rcases hcases with ⟨d, -, -, -, hcounter⟩ | ⟨d, hside, hlevel, hcounter⟩ | ⟨-, hcounter⟩
    · refine ⟨d, ?_⟩
      rw [Controlled.step, hcounter]
      exact streak_zero
    · refine ⟨d, ?_⟩
      rw [Controlled.step, hcounter]
      exact ((h.streak_of_side hc hside).concat ⟨hside, hlevel⟩).le (Nat.mod_le _ _)
    · refine ⟨.above, ?_⟩
      rw [Controlled.step, hcounter]
      exact streak_zero
  · intro d
    refine (h.hysteretic d).concat ?_
    intro hmoved
    obtain ⟨hupdate, hmoves⟩ := hmoved
    rcases hcases with ⟨d', hside, hpast, hmoves', -⟩ | ⟨d', -, hlevel, -⟩ | ⟨hnone | hlevel, -⟩
    · obtain rfl := Moves.unique hmoves hmoves'
      refine ⟨beyond_of_side hside, ((h.streak_of_side hc hside).le hpast).mono ?_⟩
      intro e he
      exact ⟨beyond_of_side he.1, he.2⟩
    · rw [hlevel] at hmoves
      exact absurd hmoves not_moves_self
    · exact absurd hnone hupdate
    · rw [hlevel] at hmoves
      exact absurd hmoves not_moves_self

/-- **The controller is hysteretic** when the sides are changed only with the counter at
zero. -/
theorem hysteretic_of_oneSided (b : AdaptiveControllerBuilder F) (s : Controlled F)
    (h : (machine b).ReachBy (fun s call => s.oneSided call = true) s) : Hysteretic b s := by
  have hinv : Inv b s := by
    refine h.invariant ?_ ?_
    · intro s hs
      obtain ⟨c, hbuild, rfl⟩ := hs
      obtain ⟨-, hc⟩ := Option.ite_none_right_eq_some.mp hbuild
      obtain rfl := Option.some.inj hc
      exact ⟨rfl, rfl, rfl, ⟨.above, streak_zero⟩, fun d => preceded_nil⟩
    · intro s call s' hs hc hstep
      obtain rfl := Option.some.inj hstep
      exact hs.step hc
  exact hinv.hysteretic

/-- A builder with a threshold of 2. -/
def quick : AdaptiveControllerBuilder ℚ := AdaptiveControllerBuilder.new.withHysteresisThreshold 2

/-- Three high updates raise the level, and after one in between three low ones lower it. -/
theorem hysteretic_of_oneSided_quick :
    ∃ s, (machine quick).ReachBy (fun s call => s.oneSided call = true) s ∧
      s.log.map Entry.after = [0, 0, 1, 1, 1, 1, 0] ∧ Hysteretic quick s := by
  obtain ⟨s, hs, htest⟩ := Machine.exists_reachBy_of_runBy (M := machine quick)
    (C := fun s call => s.oneSided call = true) ⟨_, if_pos (by decide +kernel), rfl⟩
    [.update 0.9, .update 0.9, .shouldAccept 0.9, .update 0.6, .update 0.3, .update 0.3, .update 0.3]
    (fun s => decide (s.log.map Entry.after = [0, 0, 1, 1, 1, 1, 0])) (by decide +kernel)
  exact ⟨s, hs, of_decide_eq_true htest, hysteretic_of_oneSided quick s hs⟩

/-- By default: ten low updates at `Full`, and the first high update raises the level. -/
theorem not_forall_hysteretic : ¬ ∀ (b : AdaptiveControllerBuilder ℚ) (s : Controlled ℚ),
    (machine b).Reach s → Hysteretic b s := by
  intro h
  obtain ⟨s, hs, htest⟩ := Machine.exists_reach_of_run (M := machine (AdaptiveControllerBuilder.new (F := ℚ)))
    ⟨_, if_pos (by decide +kernel), rfl⟩ (.replicate 10 (.update 0.3) ++ [.update 0.9])
    (fun s => decide (s.log = .replicate 10 ⟨.update 0.3, 0, 0⟩ ++ [⟨.update 0.9, 0, 1⟩]))
    (by decide +kernel)
  have hmoved : Entry.Moved .above (⟨.update 0.9, 0, 1⟩ : Entry ℚ) := ⟨by decide, rfl⟩
  obtain ⟨-, hstreak⟩ := h _ s hs .above _ _ [] (of_decide_eq_true htest) hmoved
  obtain ⟨e, he, ⟨u, hu, hbeyond⟩, -⟩ := hstreak.last (by decide)
  obtain rfl : (⟨.update 0.3, 0, 0⟩ : Entry ℚ) = e := Option.some.inj he
  obtain rfl : (0.3 : ℚ) = u := Option.some.inj hu
  revert hbeyond
  decide +kernel

end Controlled

end SensorBridge.Backpressure
