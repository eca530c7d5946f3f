import Mathlib.Data.Nat.Notation

/-!
# Loops that try again

A loop makes one attempt after another until one succeeds, or until it finds before an attempt that it is
time to give up. It need not end, so it is run with fuel; what it ends with does not depend on that. It
ends at the first attempt that is not put off (`exists_loop_iff`), and does not end when all are
(`forall_loop_iff`).
-/

namespace SensorBridge.Foundation

universe u

/-- How a loop ends: after so many failures, and in this state. -/
inductive Ended (σ : Type u) where
  | succeeded (failures : ℕ) (s : σ)
  | gaveUp (failures : ℕ) (s : σ)
  deriving DecidableEq

namespace Retry

variable {σ : Type u} (giveUp : ℕ → Bool) (attempt : ℕ → σ → Bool × σ) (s : σ)

/-- The loop, from attempt `k` on. -/
def loop : ℕ → ℕ → σ → Option (Ended σ)
  | 0, _, _ => none
  | fuel + 1, k, s =>
    if giveUp k then some (.gaveUp k s)
    else match attempt k s with
      | (true, s') => some (.succeeded k s')
      | (false, s') => loop fuel (k + 1) s'

/-- The state before attempt `k`, when there is one. -/
def before : ℕ → σ
  | 0 => s
  | k + 1 => (attempt k (before k)).2

/-- Attempt `k` fails. -/
def Fails (k : ℕ) : Prop := (attempt k (before attempt s k)).1 = false

/-- The loop ends at attempt `k`: there it gives up, or there the attempt succeeds. -/
inductive EndsAt (k : ℕ) : Ended σ → Prop where
  | succeeded : giveUp k = false → ¬ Fails attempt s k → EndsAt k (.succeeded k (before attempt s (k + 1)))
  | gaveUp : giveUp k = true → EndsAt k (.gaveUp k (before attempt s k))

variable {giveUp attempt s} {k fuel : ℕ} {e : Ended σ}

/-- An attempt that fails is followed by the next. -/
theorem loop_succ (hgiveUp : giveUp k = false) (hfails : Fails attempt s k) :
    loop giveUp attempt (fuel + 1) k (before attempt s k) =
      loop giveUp attempt fuel (k + 1) (before attempt s (k + 1)) := by
  have hpair : attempt k (before attempt s k) = (false, before attempt s (k + 1)) := Prod.ext hfails rfl
  rw [loop, hgiveUp, if_neg Bool.false_ne_true, hpair]

theorem loop_of_endsAt (h : EndsAt giveUp attempt s k e) :
    loop giveUp attempt (fuel + 1) k (before attempt s k) = some e := by
  cases h with
  | succeeded hgiveUp hfails =>
    have hpair : attempt k (before attempt s k) = (true, before attempt s (k + 1)) :=
      Prod.ext (eq_true_of_ne_false hfails) rfl
    rw [loop, hgiveUp, if_neg Bool.false_ne_true, hpair]
  | gaveUp hgiveUp => rw [loop, if_pos hgiveUp]

variable (giveUp attempt s) in
/-- Where an attempt is not the last, it fails. -/
theorem endsAt_or (k : ℕ) : (∃ e, EndsAt giveUp attempt s k e) ∨ giveUp k = false ∧ Fails attempt s k := by
  cases hgiveUp : giveUp k with
  | true => exact .inl ⟨_, .gaveUp hgiveUp⟩
  | false =>
    by_cases hfails : Fails attempt s k
    · exact .inr ⟨rfl, hfails⟩
    · exact .inl ⟨_, .succeeded hgiveUp hfails⟩

theorem exists_of_loop (h : loop giveUp attempt fuel k (before attempt s k) = some e) :
    ∃ j, k ≤ j ∧ (∀ i, k ≤ i → i < j → giveUp i = false ∧ Fails attempt s i) ∧ EndsAt giveUp attempt s j e := by
  induction fuel generalizing k with
  | zero => cases h
  | succ fuel ih =>
    rcases endsAt_or giveUp attempt s k with ⟨e', he'⟩ | ⟨hgiveUp, hfails⟩
    · rw [loop_of_endsAt he'] at h
      cases h
      exact ⟨k, Nat.le_refl k, fun i hle hlt => absurd hlt (Nat.not_lt_of_le hle), he'⟩
    · rw [loop_succ hgiveUp hfails] at h
      obtain ⟨j, hle, hall, hends⟩ := ih h
      refine ⟨j, Nat.le_of_succ_le hle, fun i hki hij => ?_, hends⟩
      rcases Nat.eq_or_lt_of_le hki with rfl | hlt
      · exact ⟨hgiveUp, hfails⟩
      · exact hall i hlt hij

/-- After so many failures. -/
theorem loop_add {n : ℕ} (h : ∀ i < n, giveUp i = false ∧ Fails attempt s i) :
    loop giveUp attempt (n + fuel) 0 s = loop giveUp attempt fuel n (before attempt s n) := by
  induction n generalizing fuel with
  | zero =>
    rw [Nat.zero_add]
    rfl
  | succ n ih =>
    obtain ⟨hgiveUp, hfails⟩ := h n (Nat.lt_succ_self n)
    rw [Nat.succ_add, ← Nat.add_succ, ih fun i hi => h i (Nat.lt_succ_of_lt hi), loop_succ hgiveUp hfails]

/-- **Where a loop ends**: at the first attempt that is not put off. -/
theorem exists_loop_iff : (∃ fuel, loop giveUp attempt fuel 0 s = some e) ↔
    ∃ k, (∀ i < k, giveUp i = false ∧ Fails attempt s i) ∧ EndsAt giveUp attempt s k e := by
  constructor
  · rintro ⟨fuel, h⟩
    obtain ⟨k, -, hall, hends⟩ := exists_of_loop (k := 0) h
    exact ⟨k, fun i hi => hall i (Nat.zero_le i) hi, hends⟩
  · rintro ⟨k, hall, hends⟩
    exact ⟨k + 1, (loop_add hall).trans (loop_of_endsAt hends)⟩

/-- **When a loop does not end.** -/
theorem forall_loop_iff : (∀ fuel, loop giveUp attempt fuel 0 s = none) ↔
    ∀ k, giveUp k = false ∧ Fails attempt s k := by
  constructor
  · intro h k
    induction k using Nat.strongRecOn with
    | ind k ih =>
      rcases endsAt_or giveUp attempt s k with ⟨e, he⟩ | hgoes
      · have hnone := h (k + 1)
        rw [loop_add ih, loop_of_endsAt he] at hnone
        cases hnone
      · exact hgoes
  · intro h fuel
    have hadd : loop giveUp attempt (fuel + 0) 0 s = none := loop_add fun i _ => h i
    rwa [Nat.add_zero] at hadd

end Retry

end SensorBridge.Foundation
