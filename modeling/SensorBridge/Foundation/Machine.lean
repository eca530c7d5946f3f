import Mathlib.Logic.Relation
import Mathlib.Tactic.SplitIfs

/-!
# Machines and their runs

A concurrent program is given as a machine: the states it may start in and, for
each action a scheduler may choose, the state that action leads to when it is
enabled. An action names the thread that moves (and what the environment hands
it), so that a run is a list of actions and every interleaving is a run.

`ReachBy C` are the states of the runs all of whose steps meet a condition `C` on
the state before the step and the action taken; `Reach` is the case of no
condition. The rules are the usual ones: an invariant holds of every state
reached (`ReachBy.invariant`), a list of actions that executes ends in a state
reached (`reachBy_of_run`), and a property of steps taken after some point is
proved by induction on `Steps`.
-/

namespace SensorBridge.Foundation

universe u v w x

/-- A machine: where it may start, and the state each enabled action leads to. -/
structure Machine (σ : Type u) (α : Type v) where
  /-- The states a run may start in. -/
  init : σ → Prop
  /-- What an action does; `none` when the action is not enabled. -/
  step : σ → α → Option σ

namespace Machine

variable {σ : Type u} {α : Type v} {M : Machine σ α} {C D : σ → α → Prop}

/-- The states of the runs all of whose steps meet `C`. -/
inductive ReachBy (M : Machine σ α) (C : σ → α → Prop) : σ → Prop where
  /-- A run of no steps. -/
  | start {s : σ} : M.init s → ReachBy M C s
  /-- One more step, which meets `C`. -/
  | next {s s' : σ} {a : α} : ReachBy M C s → C s a → M.step s a = some s' → ReachBy M C s'

/-- The states of all runs. -/
abbrev Reach (M : Machine σ α) : σ → Prop := ReachBy M fun _ _ => True

theorem ReachBy.mono (hCD : ∀ s a, C s a → D s a) {s : σ} (h : ReachBy M C s) : ReachBy M D s := by
  induction h with
  | start hi => exact .start hi
  | next _ hc hs ih => exact .next ih (hCD _ _ hc) hs

theorem ReachBy.reach {s : σ} (h : ReachBy M C s) : M.Reach s := h.mono fun _ _ _ => trivial

/-- What holds at the start and is kept by every step that meets `C` holds of every
state reached. -/
theorem ReachBy.invariant {I : σ → Prop} (hinit : ∀ s, M.init s → I s)
    (hstep : ∀ s a s', I s → C s a → M.step s a = some s' → I s') {s : σ} (h : ReachBy M C s) : I s := by
  induction h with
  | start hi => exact hinit _ hi
  | next _ hc hs ih => exact hstep _ _ _ ih hc hs

/-- **A log in which all is well**: when a step that logs something logs what is well exactly if it
meets `C`, and a step that logs nothing meets it, all that was logged is well exactly if every
step met `C`. -/
theorem ReachBy.forall_log_iff {β : Type w} (log : σ → List β) {ok : β → Prop} (hinit : ∀ s, M.init s → log s = [])
    (hstep : ∀ s a s', M.Reach s → M.step s a = some s' →
      (log s' = log s ∧ C s a) ∨ ∃ w, log s' = log s ++ [w] ∧ (ok w ↔ C s a))
    {s : σ} (h : M.Reach s) : (∀ w ∈ log s, ok w) ↔ ReachBy M C s := by
  constructor
  · intro hall
    induction h with
    | start hi => exact .start hi
    | next hr _ hs ih =>
      rcases hstep _ _ _ hr hs with ⟨hlog, hc⟩ | ⟨w, hlog, hiff⟩
      · exact .next (ih (hlog ▸ hall)) hc hs
      · rw [hlog] at hall
        have hw := hall w (List.mem_append_right _ (List.mem_singleton_self w))
        exact .next (ih fun v hv => hall v (List.mem_append_left _ hv)) (hiff.1 hw) hs
  · intro hby
    induction hby with
    | start hi =>
      rw [hinit _ hi]
      exact fun w hw => absurd hw List.not_mem_nil
    | next hr hc hs ih =>
      rcases hstep _ _ _ hr.reach hs with ⟨hlog, -⟩ | ⟨w, hlog, hiff⟩
      · rw [hlog]
        exact ih hr.reach
      · rw [hlog]
        intro v hv
        rcases List.mem_append.1 hv with hv | hv
        · exact ih hr.reach v hv
        · rw [List.mem_singleton.1 hv]
          exact hiff.2 hc

/-- **Simulation**: when every step of `M` that meets `C` is seen through `f` as no step, or as a
step of `N` that meets `E`, the states `M` reaches are seen as states `N` reaches. -/
theorem ReachBy.simulate {τ : Type w} {β : Type x} {N : Machine τ β} {E : τ → β → Prop} (f : σ → τ)
    (hinit : ∀ s, M.init s → N.init (f s))
    (hstep : ∀ s a s', ReachBy M C s → C s a → M.step s a = some s' →
      f s' = f s ∨ ∃ b, E (f s) b ∧ N.step (f s) b = some (f s'))
    {s : σ} (h : ReachBy M C s) : ReachBy N E (f s) := by
  induction h with
  | start hi => exact .start (hinit _ hi)
  | next hr hc hs ih =>
    rcases hstep _ _ _ hr hc hs with heq | ⟨b, hb, hn⟩
    · rw [heq]
      exact ih
    · exact .next ih hb hn

/-- The steps from one state to a later one, each of them meeting `C`. -/
def StepsBy (M : Machine σ α) (C : σ → α → Prop) : σ → σ → Prop :=
  Relation.ReflTransGen fun s s' => ∃ a, C s a ∧ M.step s a = some s'

/-- The steps from one state to a later one. -/
abbrev Steps (M : Machine σ α) : σ → σ → Prop := StepsBy M fun _ _ => True

/-- What one step that meets `C` keeps, a later state has too. -/
theorem StepsBy.keeps {P : σ → Prop} (hstep : ∀ s a s', P s → C s a → M.step s a = some s' → P s')
    {s s' : σ} (hs : StepsBy M C s s') (h : P s) : P s' := by
  induction hs with
  | refl => exact h
  | tail _ hst ih => obtain ⟨a, hc, ha⟩ := hst; exact hstep _ _ _ ih hc ha

/-! ### Running -/

/-- Take the actions of a list in order. -/
def run (M : Machine σ α) : σ → List α → Option σ
  | s, [] => some s
  | s, a :: as => (M.step s a).bind fun s' => M.run s' as

/-- Take the actions of a list in order, as long as each meets `C`. -/
def runBy (M : Machine σ α) (C : σ → α → Prop) [∀ s a, Decidable (C s a)] : σ → List α → Option σ
  | s, [] => some s
  | s, a :: as => if C s a then (M.step s a).bind fun s' => M.runBy C s' as else none

theorem run_append (s : σ) (as bs : List α) : M.run s (as ++ bs) = (M.run s as).bind fun s' => M.run s' bs := by
  induction as generalizing s with
  | nil => rfl
  | cons a as ih =>
    rw [List.cons_append, run, run, Option.bind_assoc]
    congr 1
    funext s'
    exact ih s'

theorem reach_of_run {s s' : σ} {as : List α} (h : M.Reach s) (hr : M.run s as = some s') :
    M.Reach s' := by
  induction as generalizing s with
  | nil => cases hr; exact h
  | cons a as ih =>
    obtain ⟨u, hu, hr⟩ := Option.bind_eq_some_iff.mp hr
    exact ih (.next h trivial hu) hr

theorem reachBy_of_runBy [∀ s a, Decidable (C s a)] {s s' : σ} {as : List α} (h : ReachBy M C s)
    (hr : M.runBy C s as = some s') : ReachBy M C s' := by
  induction as generalizing s with
  | nil => cases hr; exact h
  | cons a as ih =>
    rw [runBy] at hr
    split_ifs at hr with hc
    obtain ⟨u, hu, hr⟩ := Option.bind_eq_some_iff.mp hr
    exact ih (.next h hc hu) hr

theorem steps_of_run {s s' : σ} {as : List α} (hr : M.run s as = some s') : M.Steps s s' := by
  induction as generalizing s with
  | nil => cases hr; exact .refl
  | cons a as ih =>
    obtain ⟨u, hu, hr⟩ := Option.bind_eq_some_iff.mp hr
    exact .head ⟨a, trivial, hu⟩ (ih hr)

/-- A run that ends in a state passing a test reaches such a state. -/
theorem exists_reach_of_run {s : σ} (hs : M.init s) (as : List α) (p : σ → Bool)
    (h : (M.run s as).any p = true) : ∃ s', M.Reach s' ∧ p s' = true := by
  obtain ⟨s', hr, hp⟩ := (Option.any_eq_true _ _).mp h
  exact ⟨s', reach_of_run (.start hs) hr, hp⟩

/-- A run whose steps meet `C` and that ends in a state passing a test reaches such a
state by steps that meet `C`. -/
theorem exists_reachBy_of_runBy [∀ s a, Decidable (C s a)] {s : σ} (hs : M.init s) (as : List α)
    (p : σ → Bool) (h : (M.runBy C s as).any p = true) : ∃ s', ReachBy M C s' ∧ p s' = true := by
  obtain ⟨s', hr, hp⟩ := (Option.any_eq_true _ _).mp h
  exact ⟨s', reachBy_of_runBy (.start hs) hr, hp⟩

/-- A run, and another from where it ends. -/
theorem exists_steps_of_run {s : σ} (hs : M.init s) (as bs : List α) (p : σ → σ → Bool)
    (h : ((M.run s as).any fun t => (M.run t bs).any (p t)) = true) :
    ∃ t t', M.Reach t ∧ M.Steps t t' ∧ p t t' = true := by
  obtain ⟨t, hr, h⟩ := (Option.any_eq_true _ _).mp h
  obtain ⟨t', hr', hp⟩ := (Option.any_eq_true _ _).mp h
  exact ⟨t, t', reach_of_run (.start hs) hr, steps_of_run hr', hp⟩

end Machine

end SensorBridge.Foundation
