import SensorBridge.Stage.Nearest

/-!
# Two sensors in order of time

A `TimestampSync` that is fed the readings of both sensors in order of time answers as one should think:
with the closest of the last readings of the secondary sensor, as many as there are slots, if one is
within the tolerance (`Synced.match`). What it prunes is a beginning of what it was fed, and is out of
tolerance for all that comes. So a push never overwrites a reading while another slot is empty, and
the count is right throughout.
-/

namespace SensorBridge.Stage

open Foundation Foundation.SlidingWindow Timestamp TimestampBuffer

universe u

variable {α β : Type u} {capacity toleranceNs : ℕ}

theorem length_stored (b : TimestampBuffer β capacity) : b.stored.length = b.occupied := by
  rw [stored, List.reduceOption_length_eq, ← List.countP_eq_length_filter, occupied]

/-- An answer of `match_primary`. -/
structure Answer (α β : Type u) where
  primary : Timestamped α
  /-- The readings of the secondary sensor that had been fed. -/
  fed : List (Timestamped β)
  pair : Option (SyncedPair α β)

/-- **The right answer**: the closest of the last readings that had been fed, if one is within the
tolerance. -/
def Answer.Right (capacity toleranceNs : ℕ) (answer : Answer α β) : Prop :=
  match answer.pair with
  | none => ∀ t ∈ answer.fed.rtake capacity, toleranceNs < absDiff answer.primary.timestampNs t.timestampNs
  | some pair => ∃ t ∈ answer.fed.rtake capacity, pair = .new answer.primary t ∧
      absDiff answer.primary.timestampNs t.timestampNs ≤ toleranceNs ∧
      ∀ other ∈ answer.fed.rtake capacity,
        absDiff answer.primary.timestampNs t.timestampNs ≤ absDiff answer.primary.timestampNs other.timestampNs

/-- What the last match has pruned is older than this. -/
def cutoff (toleranceNs : ℕ) (answers : List (Answer α β)) : ℕ :=
  answers.foldl (fun c a => if a.pair.isSome then a.primary.timestampNs - toleranceNs else c) 0

/-- A reading that was fed, as far as it is still there. -/
def kept (c : ℕ) (t : Timestamped β) : Option (Timestamped β) := prune c (some t)

theorem kept_eq (c : ℕ) (t : Timestamped β) : kept c t = if t.timestampNs < c then none else some t := by
  simp only [kept, prune, isBefore, decide_eq_true_eq]

theorem cutoff_concat (answers : List (Answer α β)) (a : Answer α β) :
    cutoff toleranceNs (answers ++ [a]) =
      if a.pair.isSome then a.primary.timestampNs - toleranceNs else cutoff toleranceNs answers := by
  rw [cutoff, List.foldl_append]
  rfl

/-- Primaries that do not go back do not take the cutoff back. -/
theorem cutoff_le {answers : List (Answer α β)} {nowNs : ℕ} (h : ∀ a ∈ answers, a.primary.timestampNs ≤ nowNs) :
    cutoff toleranceNs answers ≤ nowNs - toleranceNs := by
  induction answers using List.reverseRecOn with
  | nil => exact Nat.zero_le _
  | append_singleton answers a ih =>
    rw [cutoff_concat]
    split_ifs
    · exact Nat.sub_le_sub_right (h a (by simp)) _
    · exact ih fun b hb => h b (List.mem_append_left _ hb)

/-- The synchronizer when it has been fed these readings of the secondary sensor and has given these answers. -/
structure Synced (toleranceNs : ℕ) (fed : List (Timestamped β)) (sync : TimestampSync β capacity)
    (answers : List (Answer α β)) : Prop where
  toleranceNs_eq : sync.toleranceNs = toleranceNs
  /-- The readings were fed in order of time. -/
  sorted : (fed.map Timestamped.timestampNs).Pairwise (· ≤ ·)
  /-- The ring slides over them, without those that are older than the cutoff. -/
  slides : Slides none sync.secondaryBuffer.slots sync.secondaryBuffer.writeIdx
    (fed.map (kept (cutoff toleranceNs answers)))
  counts : sync.secondaryBuffer.Counts
  /-- What comes is not older than the cutoff. -/
  cutoff_le : cutoff toleranceNs answers = 0 ∨ ∃ t ∈ fed, cutoff toleranceNs answers ≤ t.timestampNs
  right : ∀ a ∈ answers, a.Right capacity toleranceNs
  unmatchedCount_eq : sync.unmatchedCount = answers.countP fun a => a.pair.isNone

variable {fed : List (Timestamped β)} {sync : TimestampSync β capacity} {answers : List (Answer α β)}

theorem synced_new [NeZero capacity] :
    Synced toleranceNs [] (.new toleranceNs : TimestampSync β capacity) ([] : List (Answer α β)) :=
  ⟨rfl, List.Pairwise.nil, slides_ofFn none, counts_new, .inl rfl, fun _ h => absurd h List.not_mem_nil, rfl⟩

/-- **What is stored** is what is not older than the cutoff, of the last readings. -/
theorem Synced.stored_perm (h : Synced toleranceNs fed sync answers) : sync.secondaryBuffer.stored.Perm
    ((fed.rtake capacity).filter fun t => decide (cutoff toleranceNs answers ≤ t.timestampNs)) := by
  have hslots := h.slides.perm
  rw [length_slots, rtake_replicate_append] at hslots
  have hstored := hslots.filterMap id
  refine hstored.trans (.of_eq ?_)
  rw [List.filterMap_append, List.filterMap_replicate_of_none rfl, List.nil_append, ← map_rtake, List.filterMap_map]
  generalize fed.rtake capacity = recent
  induction recent with
  | nil => rfl
  | cons t recent ih =>
    rw [List.filterMap_cons, List.filter_cons, ih]
    simp only [Function.comp_apply, id, kept_eq, decide_eq_true_eq]
    by_cases hlt : t.timestampNs < cutoff toleranceNs answers
    · simp [hlt]
    · simp [hlt]

theorem Synced.mem_stored (h : Synced toleranceNs fed sync answers) {t : Timestamped β} :
    t ∈ sync.secondaryBuffer.stored ↔ t ∈ fed.rtake capacity ∧ cutoff toleranceNs answers ≤ t.timestampNs := by
  rw [h.stored_perm.mem_iff, List.mem_filter, decide_eq_true_eq]

/-! ### A reading of the secondary sensor -/

/-- A reading that is still there was fed before others that are. -/
theorem kept_mono {c : ℕ} (h : (fed.map Timestamped.timestampNs).Pairwise (· ≤ ·)) :
    (fed.map (kept c)).Pairwise fun x y => x.isSome = true → y.isSome = true := by
  rw [List.pairwise_map]
  refine (List.pairwise_map.1 h).imp fun {x y} hle => ?_
  rw [kept_eq, kept_eq]
  split_ifs <;> simp
  omega

/-- The slot that a push overwrites is occupied only when all are: what is in the others was fed later. -/
theorem Synced.fits [NeZero capacity] (h : Synced toleranceNs fed sync answers) (t : Timestamped β) :
    sync.secondaryBuffer.Fits (.push t) := by
  intro hsome
  have hslot : sync.secondaryBuffer.slots[(sync.secondaryBuffer.writeIdx : ℕ)]? =
      some (sync.secondaryBuffer.buffer sync.secondaryBuffer.writeIdx) := by
    simp [slots]
  have hall := h.slides.forall_of_next (p := fun slot => slot.isSome = true) (by simp) (kept_mono h.sorted) hslot hsome
  rw [occupied, List.countP_eq_length.2 hall, length_slots]

/-- **A reading of the secondary sensor is fed.** -/
theorem Synced.push [NeZero capacity] (h : Synced toleranceNs fed sync answers) {t : Timestamped β}
    (hle : ∀ x ∈ fed, x.timestampNs ≤ t.timestampNs) :
    Synced toleranceNs (fed ++ [t]) (sync.pushSecondary t) answers := by
  have hcutoff : cutoff toleranceNs answers ≤ t.timestampNs := by
    rcases h.cutoff_le with hzero | ⟨x, hx, hcut⟩
    · rw [hzero]
      exact Nat.zero_le _
    · exact hcut.trans (hle x hx)
  refine ⟨h.toleranceNs_eq, ?_, ?_, (counts_apply_iff h.counts (.push t)).2 (h.fits t), ?_, h.right,
    h.unmatchedCount_eq⟩
  · rw [List.map_append]
    refine List.pairwise_append.2 ⟨h.sorted, List.pairwise_singleton _ _, ?_⟩
    simpa using hle
  · have hslides := h.slides.update (some t)
    rw [List.map_append, List.map_singleton, kept_eq, if_neg (not_lt.2 hcutoff)]
    exact hslides
  · exact .inr ⟨t, by simp, hcutoff⟩

/-! ### A reading of the primary sensor -/

theorem matchPrimary_none {primary : Timestamped α}
    (h : sync.secondaryBuffer.findClosest primary.timestampNs sync.toleranceNs = none) :
    sync.matchPrimary primary = ({ sync with unmatchedCount := sync.unmatchedCount + 1 }, none) := by
  rw [TimestampSync.matchPrimary, TimestampSync.matchWith, h]

theorem matchPrimary_some {primary : Timestamped α} {t : Timestamped β}
    (h : sync.secondaryBuffer.findClosest primary.timestampNs sync.toleranceNs = some t) :
    sync.matchPrimary primary =
      ({ sync with secondaryBuffer := sync.secondaryBuffer.pruneBefore (primary.timestampNs - sync.toleranceNs) },
        some (.new primary t)) := by
  rw [TimestampSync.matchPrimary, TimestampSync.matchWith, h]

/-- What has been pruned is out of tolerance for a primary that comes now. -/
theorem absDiff_of_lt {x nowNs : ℕ} (h : x < nowNs - toleranceNs) : toleranceNs < absDiff nowNs x := by
  unfold absDiff
  omega

/-- **The answer is right.** -/
theorem Synced.right_match (h : Synced toleranceNs fed sync answers) (htolerance : toleranceNs < 2 ^ 64 - 1)
    {primary : Timestamped α} (hle : ∀ a ∈ answers, a.primary.timestampNs ≤ primary.timestampNs) :
    (⟨primary, fed, (sync.matchPrimary primary).2⟩ : Answer α β).Right capacity toleranceNs := by
  have hcut : cutoff toleranceNs answers ≤ primary.timestampNs - toleranceNs := Stage.cutoff_le hle
  have hpruned : ∀ t ∈ fed.rtake capacity, t ∉ sync.secondaryBuffer.stored →
      toleranceNs < absDiff primary.timestampNs t.timestampNs := by
    intro t ht hnot
    rw [h.mem_stored, not_and, not_le] at hnot
    exact absDiff_of_lt ((hnot ht).trans_le hcut)
  cases hfound : sync.secondaryBuffer.findClosest primary.timestampNs sync.toleranceNs with
  | none =>
    rw [matchPrimary_none hfound]
    intro t ht
    by_cases hstored : t ∈ sync.secondaryBuffer.stored
    · by_contra hnear
      rw [← h.toleranceNs_eq] at hnear htolerance
      have hfar := (findClosest_none hfound hstored (not_lt.1 hnear)).trans (not_lt.1 hnear)
      omega
    · exact hpruned t ht hstored
  | some t =>
    rw [matchPrimary_some hfound]
    obtain ⟨hstored, hnear, -, hbest⟩ := findClosest_some hfound
    rw [h.toleranceNs_eq] at hnear
    refine ⟨t, (h.mem_stored.1 hstored).1, rfl, hnear, fun other hother => ?_⟩
    by_cases hkept : other ∈ sync.secondaryBuffer.stored
    · exact hbest other hkept
    · exact hnear.trans (hpruned other hother hkept).le

/-- What is pruned for a match is pruned of what was fed. -/
theorem prune_comp_kept {c c' : ℕ} (h : c ≤ c') : prune c' ∘ kept c = (kept c' : Timestamped β → _) := by
  funext x
  simp only [Function.comp_apply, kept_eq]
  split_ifs <;> simp [prune, isBefore] <;> omega

/-- **A reading of the primary sensor is answered.** -/
theorem Synced.match [NeZero capacity] (h : Synced toleranceNs fed sync answers)
    (htolerance : toleranceNs < 2 ^ 64 - 1) {primary : Timestamped α}
    (hle : ∀ a ∈ answers, a.primary.timestampNs ≤ primary.timestampNs) :
    Synced toleranceNs fed (sync.matchPrimary primary).1
      (answers ++ [⟨primary, fed, (sync.matchPrimary primary).2⟩]) := by
  have hright : ∀ a ∈ answers ++ [⟨primary, fed, (sync.matchPrimary primary).2⟩], a.Right capacity toleranceNs := by
    intro a ha
    rcases List.mem_append.1 ha with ha | ha
    · exact h.right a ha
    · rw [List.mem_singleton.1 ha]
      exact h.right_match htolerance hle
  have hcountP : ∀ a : Answer α β, (answers ++ [a]).countP (fun a => a.pair.isNone) =
      sync.unmatchedCount + if a.pair.isNone then 1 else 0 := by
    intro a
    rw [List.countP_append, List.countP_singleton, h.unmatchedCount_eq]
  cases hfound : sync.secondaryBuffer.findClosest primary.timestampNs sync.toleranceNs with
  | none =>
    rw [matchPrimary_none hfound] at hright ⊢
    refine ⟨h.toleranceNs_eq, h.sorted, ?_, h.counts, ?_, hright,
      (hcountP ⟨primary, fed, none⟩).symm⟩
    · rw [cutoff_concat]
      exact h.slides
    · rw [cutoff_concat]
      exact h.cutoff_le
  | some t =>
    rw [matchPrimary_some hfound] at hright ⊢
    obtain ⟨hstored, hnear, -⟩ := findClosest_some hfound
    have hcutoff : cutoff toleranceNs (answers ++ [⟨primary, fed, some (.new primary t)⟩]) =
        primary.timestampNs - toleranceNs := cutoff_concat _ _
    refine ⟨h.toleranceNs_eq, h.sorted, ?_, (counts_apply_iff h.counts (.pruneBefore _)).2 trivial, ?_, hright,
      (hcountP ⟨primary, fed, some (.new primary t)⟩).symm⟩
    · have hslides := h.slides.map (f := prune (primary.timestampNs - toleranceNs))
      rw [← slots_pruneBefore, List.map_map, prune_comp_kept (Stage.cutoff_le hle)] at hslides
      rw [hcutoff, h.toleranceNs_eq]
      exact hslides
    · -- the reading that was found is not older
      rw [hcutoff]
      refine .inr ⟨t, List.mem_of_mem_drop (h.mem_stored.1 hstored).1, ?_⟩
      by_contra hlt
      rw [h.toleranceNs_eq] at hnear
      exact absurd hnear (not_le.2 (absDiff_of_lt (not_le.1 hlt)))

end SensorBridge.Stage
