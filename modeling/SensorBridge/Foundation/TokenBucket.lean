import SensorBridge.Foundation.Machine
import Mathlib.Algebra.Order.Field.Basic
import Mathlib.Algebra.BigOperators.Group.List.Basic
import Mathlib.Data.List.Basic
import Mathlib.Tactic.Linarith

/-!
# Token buckets

What a token bucket is meant to do: it fills at no more than a given rate, holds no more than
its capacity, and what is taken comes out of it. Time and tokens are in an ordered field, and
how much a move really fills is left open.

`grantedIn a b` is what a log of times and amounts says was taken from `a` to `b`, both
included. Of every bucket, in every window of time, it is at most the capacity and what the
window is worth (`bounded_of_reach`): a limiter that is a bucket keeps to that.
-/

namespace SensorBridge.Foundation

universe u v

/-! ### What was taken in a window -/

section GrantedIn

variable {τ : Type u} {α : Type v} [LinearOrder τ] [AddMonoid α] {l : List (τ × α)} {a b t : τ} {n : α}

/-- What a log of times and amounts says was taken from `a` to `b`. -/
def grantedIn (a b : τ) (l : List (τ × α)) : α :=
  ((l.filter fun g => decide (a ≤ g.1 ∧ g.1 ≤ b)).map Prod.snd).sum

@[simp] theorem grantedIn_nil : grantedIn a b ([] : List (τ × α)) = 0 := rfl

theorem grantedIn_append (l' : List (τ × α)) :
    grantedIn a b (l ++ l') = grantedIn a b l + grantedIn a b l' := by
  rw [grantedIn, List.filter_append, List.map_append, List.sum_append]
  rfl

theorem grantedIn_cons :
    grantedIn a b ((t, n) :: l) = (if a ≤ t ∧ t ≤ b then n else 0) + grantedIn a b l := by
  by_cases h : a ≤ t ∧ t ≤ b <;> simp [grantedIn, h]

/-- Nothing has been taken in a window that begins after the last time. -/
theorem grantedIn_eq_zero (h : ∀ g ∈ l, g.1 < a) : grantedIn a b l = 0 := by
  rw [grantedIn, List.filter_eq_nil_iff.mpr]
  · rfl
  · intro g hg
    simp [not_le.mpr (h g hg)]

/-- A window may as well end at the last time. -/
theorem grantedIn_of_le {b' : τ} (hb : ∀ g ∈ l, g.1 ≤ b) (hb' : ∀ g ∈ l, g.1 ≤ b') :
    grantedIn a b l = grantedIn a b' l := by
  unfold grantedIn
  congr 2
  refine List.filter_congr fun g hg => ?_
  simp [hb g hg, hb' g hg]

end GrantedIn

/-! ### The bucket -/

/-- A bucket of tokens, with what has been taken from it. -/
structure TokenBucket (K : Type u) where
  /-- The time. -/
  now : K
  /-- The tokens in it. -/
  level : K
  /-- What was taken, and when. -/
  granted : List (K × K)

namespace TokenBucket

variable {K : Type u}

/-- A move: the bucket is filled up to some time, and something is taken, or nothing. -/
structure Move (K : Type u) where
  /-- The time of the move. -/
  now : K
  /-- What is taken. -/
  taken : Option K
  /-- What is left. -/
  level : K

variable [Field K] [LinearOrder K] [IsStrictOrderedRing K] {capacity rate : K}

/-- A move the bucket can make: later, and with no more tokens than there were and the time
is worth, up to the capacity. -/
structure Allowed (capacity rate : K) (s : TokenBucket K) (m : Move K) : Prop where
  now_le : s.now ≤ m.now
  level_nonneg : 0 ≤ m.level
  taken_nonneg : 0 ≤ m.taken.getD 0
  le_capacity : m.level + m.taken.getD 0 ≤ capacity
  le_filled : m.level + m.taken.getD 0 ≤ s.level + rate * (m.now - s.now)

/-- The bucket after a move. -/
def apply (s : TokenBucket K) (m : Move K) : TokenBucket K :=
  ⟨m.now, m.level, s.granted ++ (m.taken.map fun n => (m.now, n)).toList⟩

open scoped Classical in
/-- The machine. -/
noncomputable def machine (capacity rate : K) : Machine (TokenBucket K) (Move K) where
  init s := 0 ≤ s.level ∧ s.level ≤ capacity ∧ s.granted = []
  step s m := if Allowed capacity rate s m then some (s.apply m) else none

omit [IsStrictOrderedRing K] in
theorem step_of_allowed {s : TokenBucket K} {m : Move K} (hm : Allowed capacity rate s m) :
    (machine capacity rate).step s m = some (s.apply m) := if_pos hm

/-- In every window of time, no more is taken than the capacity and what the window is
worth. -/
def Bounded (capacity rate : K) (s : TokenBucket K) : Prop :=
  ∀ a b, a ≤ b → grantedIn a b s.granted ≤ capacity + rate * (b - a)

/-- What holds of a bucket: in a window that ends now, what is left counts too. -/
structure Inv (capacity rate : K) (s : TokenBucket K) : Prop where
  level_nonneg : 0 ≤ s.level
  level_le : s.level ≤ capacity
  granted_le : ∀ g ∈ s.granted, g.1 ≤ s.now
  window : ∀ a ≤ s.now, grantedIn a s.now s.granted + s.level ≤ capacity + rate * (s.now - a)
  bounded : Bounded capacity rate s

variable {s : TokenBucket K} {m : Move K}

omit [Field K] [IsStrictOrderedRing K] in
theorem granted_apply_le (h : ∀ g ∈ s.granted, g.1 ≤ s.now) (hnow : s.now ≤ m.now) :
    ∀ g ∈ (s.apply m).granted, g.1 ≤ m.now := by
  intro g hg
  rcases List.mem_append.mp hg with hg | hg
  · exact (h g hg).trans hnow
  · obtain ⟨n, -, rfl⟩ := Option.map_eq_some_iff.mp (Option.mem_toList.mp hg)
    exact le_rfl

omit [IsStrictOrderedRing K] in
/-- What a move adds to a window. -/
theorem grantedIn_apply (a b : K) :
    grantedIn a b (s.apply m).granted =
      grantedIn a b s.granted + if a ≤ m.now ∧ m.now ≤ b then m.taken.getD 0 else 0 := by
  show grantedIn a b (s.granted ++ _) = _
  rw [grantedIn_append]
  cases m.taken with
  | none => simp
  | some n => simp [grantedIn_cons]

/-- The windows that end now, after a move. -/
theorem Inv.window_apply (h : Inv capacity rate s) (hrate : 0 ≤ rate) (hm : Allowed capacity rate s m)
    {a : K} (ha : a ≤ m.now) :
    grantedIn a m.now (s.apply m).granted + m.level ≤ capacity + rate * (m.now - a) := by
  have hcap := hm.le_capacity
  have hfill := hm.le_filled
  rw [grantedIn_apply, if_pos ⟨ha, le_rfl⟩]
  rcases le_or_gt a s.now with has | has
  · have hold : grantedIn a m.now s.granted = grantedIn a s.now s.granted :=
      grantedIn_of_le (fun g hg => (h.granted_le g hg).trans hm.now_le) h.granted_le
    have hwindow := h.window a has
    rw [hold]
    linarith
  · have hold : grantedIn a m.now s.granted = 0 :=
      grantedIn_eq_zero fun g hg => (h.granted_le g hg).trans_lt has
    have hworth : 0 ≤ rate * (m.now - a) := mul_nonneg hrate (sub_nonneg.mpr ha)
    rw [hold]
    linarith

theorem Inv.apply (h : Inv capacity rate s) (hrate : 0 ≤ rate) (hm : Allowed capacity rate s m) :
    Inv capacity rate (s.apply m) := by
  have hle := granted_apply_le h.granted_le hm.now_le
  have hlevel : m.level ≤ capacity := (le_add_of_nonneg_right hm.taken_nonneg).trans hm.le_capacity
  refine ⟨hm.level_nonneg, hlevel, hle, fun a => h.window_apply hrate hm, ?_⟩
  · intro a b hab
    rcases lt_or_ge b m.now with hb | hb
    · rw [grantedIn_apply, if_neg fun hc => (hb.trans_le hc.2).false, add_zero]
      exact h.bounded a b hab
    · rcases le_or_gt a m.now with ha | ha
      · have hold : grantedIn a b (s.apply m).granted = grantedIn a m.now (s.apply m).granted :=
          grantedIn_of_le (fun g hg => (hle g hg).trans hb) hle
        have hwindow := h.window_apply hrate hm ha
        have hworth : rate * (m.now - a) ≤ rate * (b - a) :=
          mul_le_mul_of_nonneg_left (sub_le_sub_right hb a) hrate
        rw [hold]
        linarith [hm.level_nonneg]
      · rw [grantedIn_eq_zero fun g hg => (hle g hg).trans_lt ha]
        have hcap : 0 ≤ capacity := h.level_nonneg.trans h.level_le
        exact add_nonneg hcap (mul_nonneg hrate (sub_nonneg.mpr hab))

/-- **The window bound.** -/
theorem bounded_of_reach (hrate : 0 ≤ rate) (h : (machine capacity rate).Reach s) :
    Bounded capacity rate s := by
  have hinv : Inv capacity rate s := by
    refine h.invariant ?_ ?_
    · intro s hs
      obtain ⟨hnonneg, hle, hnil⟩ := hs
      have hcap : 0 ≤ capacity := hnonneg.trans hle
      refine ⟨hnonneg, hle, by simp [hnil], ?_, ?_⟩
      · intro a ha
        have hworth : 0 ≤ rate * (s.now - a) := mul_nonneg hrate (sub_nonneg.mpr ha)
        rw [hnil, grantedIn_nil]
        linarith
      · intro a b hab
        rw [hnil, grantedIn_nil]
        exact add_nonneg hcap (mul_nonneg hrate (sub_nonneg.mpr hab))
    · intro s m s' hs _ hstep
      obtain ⟨hm, rfl⟩ := Option.ite_none_right_eq_some.mp hstep |>.imp_right Option.some.inj
      exact hs.apply hrate hm
  exact hinv.bounded

end TokenBucket

end SensorBridge.Foundation
