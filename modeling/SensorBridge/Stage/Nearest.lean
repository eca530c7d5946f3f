import SensorBridge.Stage.Retention

/-!
# The closest reading

`find_closest` goes through the slots and keeps a reading that is within the tolerance and strictly
closer than the best so far, which is taken to be `u64::MAX` off before there is one. What it
has kept is closest among the readings it has passed (`scanned_slots`), so what it returns is
the closest of all.

A reading that is itself `u64::MAX` off is not strictly closer than none. It is missed when it
should be found: with the tolerance `u64::MAX`, when no reading is closer
(`findsNearest_iff`).
-/

namespace SensorBridge.Stage

open Foundation Timestamp

universe u

variable {α β : Type u} {capacity : ℕ} {targetNs toleranceNs : ℕ}

theorem absDiff_le {a b : ℕ} (ha : a < 2 ^ 64) (hb : b < 2 ^ 64) : absDiff a b ≤ 2 ^ 64 - 1 := by
  unfold absDiff
  omega

namespace TimestampBuffer

theorem mem_stored {b : TimestampBuffer β capacity} {item : Timestamped β} :
    item ∈ b.stored ↔ some item ∈ b.slots := List.reduceOption_mem_iff

theorem findClosest_eq (b : TimestampBuffer β capacity) :
    b.findClosest targetNs toleranceNs = (b.slots.foldl (consider targetNs toleranceNs) (none, 2 ^ 64 - 1)).1 := by
  rw [findClosest, slots, List.ofFn_eq_map, List.foldl_map]

/-- **What the loop keeps** of the slots it has passed: the best reading is the closest of them and
within the tolerance; while there is none, no reading was both within the tolerance and less than
`u64::MAX` off. -/
def Scanned (targetNs toleranceNs : ℕ) (passed : List (Option (Timestamped β)))
    (best : Option (Timestamped β) × ℕ) : Prop :=
  match best.1 with
  | none => best.2 = 2 ^ 64 - 1 ∧ ∀ item, some item ∈ passed →
      absDiff targetNs item.timestampNs ≤ toleranceNs → 2 ^ 64 - 1 ≤ absDiff targetNs item.timestampNs
  | some item => some item ∈ passed ∧ best.2 = absDiff targetNs item.timestampNs ∧ best.2 ≤ toleranceNs ∧
      best.2 < 2 ^ 64 - 1 ∧ ∀ other, some other ∈ passed → best.2 ≤ absDiff targetNs other.timestampNs

theorem mem_concat_some {passed : List (Option (Timestamped β))} {item other : Timestamped β} :
    some other ∈ passed ++ [some item] ↔ some other ∈ passed ∨ other = item := by
  rw [List.mem_append, List.mem_singleton, Option.some.injEq]

/-- The next slot is passed. -/
theorem Scanned.consider {passed : List (Option (Timestamped β))} {best : Option (Timestamped β) × ℕ}
    (h : Scanned targetNs toleranceNs passed best) (slot : Option (Timestamped β)) :
    Scanned targetNs toleranceNs (passed ++ [slot]) (consider targetNs toleranceNs best slot) := by
  obtain ⟨best, diff⟩ := best
  cases slot with
  | none =>
    cases best with
    | none => simpa [Scanned, TimestampBuffer.consider] using h
    | some item => simpa [Scanned, TimestampBuffer.consider] using h
  | some item =>
    simp only [TimestampBuffer.consider]
    split_ifs with hcloser
    · -- it is within the tolerance and closer than what was kept, and so than all that were passed
      obtain ⟨hle, hlt⟩ := hcloser
      have hall : absDiff targetNs item.timestampNs < 2 ^ 64 - 1 ∧
          ∀ other, some other ∈ passed → absDiff targetNs item.timestampNs ≤ absDiff targetNs other.timestampNs := by
        cases best with
        | none =>
          obtain ⟨hdiff, hnone⟩ := h
          refine ⟨hdiff ▸ hlt, fun other hother => ?_⟩
          have hfar := hnone other hother
          simp only at hdiff
          omega
        | some kept =>
          obtain ⟨-, -, -, hmax, hbest⟩ := h
          refine ⟨hlt.trans hmax, fun other hother => hlt.le.trans (hbest other hother)⟩
      refine ⟨by simp, rfl, hle, hall.1, fun other hother => ?_⟩
      rcases mem_concat_some.1 hother with hother | rfl
      · exact hall.2 other hother
      · exact le_rfl
    · cases best with
      | none =>
        obtain ⟨hdiff, hnone⟩ := h
        simp only at hdiff
        refine ⟨hdiff, fun other hother hle => ?_⟩
        rcases mem_concat_some.1 hother with hother | rfl
        · exact hnone other hother hle
        · simp only [hle, true_and] at hcloser
          omega
      | some kept =>
        obtain ⟨hmem, hdiff, hle, hmax, hbest⟩ := h
        simp only at hdiff hle hmax hbest
        refine ⟨List.mem_append_left _ hmem, hdiff, hle, hmax, fun other hother => ?_⟩
        rcases mem_concat_some.1 hother with hother | rfl
        · exact hbest other hother
        · simp only
          omega

/-- The loop passes all slots. -/
theorem scanned_slots (targetNs toleranceNs : ℕ) (slots : List (Option (Timestamped β))) :
    Scanned targetNs toleranceNs slots
      (slots.foldl (TimestampBuffer.consider targetNs toleranceNs) (none, 2 ^ 64 - 1)) := by
  induction slots using List.reverseRecOn with
  | nil => exact ⟨rfl, fun _ h => absurd h List.not_mem_nil⟩
  | append_singleton slots slot ih =>
    rw [List.foldl_append]
    exact ih.consider slot

/-- What is returned is the closest of all, and less than `u64::MAX` off. -/
theorem findClosest_some {b : TimestampBuffer β capacity} {item : Timestamped β}
    (h : b.findClosest targetNs toleranceNs = some item) :
    item ∈ b.stored ∧ absDiff targetNs item.timestampNs ≤ toleranceNs ∧
      absDiff targetNs item.timestampNs < 2 ^ 64 - 1 ∧
      ∀ other ∈ b.stored, absDiff targetNs item.timestampNs ≤ absDiff targetNs other.timestampNs := by
  have hscanned := scanned_slots targetNs toleranceNs b.slots
  rw [findClosest_eq] at h
  rw [Scanned, h] at hscanned
  obtain ⟨hmem, hdiff, hle, hmax, hbest⟩ := hscanned
  rw [hdiff] at hle hmax hbest
  exact ⟨mem_stored.2 hmem, hle, hmax, fun other hother => hbest other (mem_stored.1 hother)⟩

theorem findClosest_none {b : TimestampBuffer β capacity} (h : b.findClosest targetNs toleranceNs = none)
    {item : Timestamped β} (hitem : item ∈ b.stored) (hle : absDiff targetNs item.timestampNs ≤ toleranceNs) :
    2 ^ 64 - 1 ≤ absDiff targetNs item.timestampNs := by
  have hscanned := scanned_slots targetNs toleranceNs b.slots
  rw [findClosest_eq] at h
  rw [Scanned, h] at hscanned
  exact hscanned.2 item (mem_stored.1 hitem) hle

end TimestampBuffer

/-! ### Matching -/

open TimestampBuffer

/-- **The closest reading is found**: one is returned exactly when one is within the tolerance, and
it is then a reading within the tolerance such that none is closer; and so a primary reading is
matched with one within the tolerance such that none is strictly closer. -/
structure FindsNearest (α : Type u) (b : TimestampBuffer β capacity) (targetNs toleranceNs : ℕ) : Prop where
  isSome_iff : (b.findClosest targetNs toleranceNs).isSome = true ↔
    ∃ item ∈ b.stored, absDiff targetNs item.timestampNs ≤ toleranceNs
  nearest : ∀ item, b.findClosest targetNs toleranceNs = some item →
    item ∈ b.stored ∧ absDiff targetNs item.timestampNs ≤ toleranceNs ∧
      ∀ other ∈ b.stored, absDiff targetNs item.timestampNs ≤ absDiff targetNs other.timestampNs
  matched : ∀ (unmatchedCount : ℕ) (primary : Timestamped α) (pair : SyncedPair α β),
    primary.timestampNs = targetNs →
      (TimestampSync.matchPrimary ⟨b, toleranceNs, unmatchedCount⟩ primary).2 = some pair →
        pair.timeDiffNs ≤ toleranceNs ∧
          ∀ other ∈ b.stored, ¬ absDiff primary.timestampNs other.timestampNs < pair.timeDiffNs

/-- **When a reading within the tolerance is missed**: with the tolerance `u64::MAX`, when there are
readings and all are `u64::MAX` off. -/
def Missed (b : TimestampBuffer β capacity) (targetNs toleranceNs : ℕ) : Prop :=
  toleranceNs = 2 ^ 64 - 1 ∧ b.stored ≠ [] ∧ ∀ item ∈ b.stored, absDiff targetNs item.timestampNs = 2 ^ 64 - 1

/-- A pair is made of the primary reading and the one that was found. -/
theorem matchPrimary_eq_some {s : TimestampSync β capacity} {primary : Timestamped α} {pair : SyncedPair α β}
    (h : (s.matchPrimary primary).2 = some pair) :
    ∃ item, s.secondaryBuffer.findClosest primary.timestampNs s.toleranceNs = some item ∧
      pair = .new primary item := by
  unfold TimestampSync.matchPrimary TimestampSync.matchWith at h
  split at h
  next item hitem => exact ⟨item, hitem, (Option.some.inj h).symm⟩
  next => cases h

/-- **The closest reading is found exactly when none is missed**, with times and tolerances of
64 bits. -/
theorem findsNearest_iff (b : TimestampBuffer β capacity) (htarget : targetNs < 2 ^ 64)
    (htolerance : toleranceNs < 2 ^ 64) (hstored : ∀ item ∈ b.stored, item.timestampNs < 2 ^ 64) :
    FindsNearest α b targetNs toleranceNs ↔ ¬ Missed b targetNs toleranceNs := by
  constructor
  · rintro h ⟨rfl, hne, hfar⟩
    obtain ⟨item, hitem⟩ := List.exists_mem_of_ne_nil _ hne
    have hfound := h.isSome_iff.2 ⟨item, hitem, (hfar item hitem).le⟩
    obtain ⟨found, hfound⟩ := Option.isSome_iff_exists.1 hfound
    obtain ⟨hmem, -, hlt, -⟩ := findClosest_some hfound
    exact absurd (hfar found hmem) hlt.ne
  · intro hmissed
    refine ⟨⟨?_, ?_⟩, ?_, ?_⟩
    · intro hfound
      obtain ⟨found, hfound⟩ := Option.isSome_iff_exists.1 hfound
      obtain ⟨hmem, hle, -⟩ := findClosest_some hfound
      exact ⟨found, hmem, hle⟩
    · rintro ⟨item, hitem, hle⟩
      by_contra hnone
      have hnone : b.findClosest targetNs toleranceNs = none := by simpa using hnone
      have hfar := findClosest_none hnone hitem hle
      have htolerance : toleranceNs = 2 ^ 64 - 1 := by omega
      refine hmissed ⟨htolerance, List.ne_nil_of_mem hitem, fun other hother => ?_⟩
      have hother_le := absDiff_le htarget (hstored other hother)
      exact le_antisymm hother_le (findClosest_none hnone hother (htolerance ▸ hother_le))
    · intro item hitem
      obtain ⟨hmem, hle, -, hbest⟩ := findClosest_some hitem
      exact ⟨hmem, hle, hbest⟩
    · rintro unmatchedCount primary pair rfl hpair
      obtain ⟨item, hitem, rfl⟩ := matchPrimary_eq_some hpair
      obtain ⟨-, hle, -, hbest⟩ := findClosest_some hitem
      exact ⟨hle, fun other hother => not_lt.2 (hbest other hother)⟩

/-- A buffer that holds one reading of the last nanosecond. -/
def atTheEnd : TimestampBuffer ℕ 1 := run [.push ⟨2 ^ 64 - 1, 0, 0⟩]

/-- Asked for the first nanosecond with a tolerance of one less, nothing is to be found. -/
theorem findsNearest_atTheEnd :
    FindsNearest ℕ atTheEnd 0 (2 ^ 64 - 2) ↔ ¬ Missed atTheEnd 0 (2 ^ 64 - 2) :=
  findsNearest_iff atTheEnd (by decide) (by decide) (by decide)

/-- With the tolerance `u64::MAX`, it is missed. -/
theorem not_forall_findsNearest : ¬ ∀ (b : TimestampBuffer ℕ 1) (targetNs toleranceNs : ℕ), targetNs < 2 ^ 64 →
    toleranceNs < 2 ^ 64 → (∀ item ∈ b.stored, item.timestampNs < 2 ^ 64) →
      FindsNearest ℕ b targetNs toleranceNs := by
  intro h
  have hone := (h atTheEnd 0 (2 ^ 64 - 1) (by decide) (by decide) (by decide)).isSome_iff
  exact absurd hone (by decide)

end SensorBridge.Stage
