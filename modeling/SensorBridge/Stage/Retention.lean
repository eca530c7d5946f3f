import SensorBridge.Stage.Fusion
import SensorBridge.Foundation.SlidingWindow
import Mathlib.Data.List.ReduceOption

/-!
# What a timestamp buffer retains

Readings are pushed into the ring, removed from it wherever they stand, and all cleared. What is
stored after any of these (`stored_perm_retained`) is what has been pushed since the last clear,
is among as many pushes since then as there are slots, and is not older than any time that
was pruned since it was pushed.

The count does not always say how many that are. A push adds one to it while it is less
than the number of slots, also when it overwrites a reading; and when a slot elsewhere
has been pruned it can do that. It is right exactly as long as a push overwrites a reading only
in a full buffer (`forall_counts_iff`).
-/

namespace SensorBridge.Stage

open Foundation Foundation.Replies Foundation.SlidingWindow Timestamp

universe u

variable {β : Type u} {capacity : ℕ}

/-- A call that changes the buffer. -/
inductive BufferOp (β : Type u) where
  | push (value : Timestamped β)
  | pruneBefore (timestampNs : ℕ)
  | clear

namespace BufferOp

/-- Whether a call is a push. -/
def isPush : BufferOp β → Bool
  | .push _ => true
  | .pruneBefore _ | .clear => false

/-- Whether a call after a reading was pushed removes it. -/
def removes (item : Timestamped β) : BufferOp β → Bool
  | .push _ => false
  | .pruneBefore timestampNs => decide (item.timestampNs < timestampNs)
  | .clear => true

end BufferOp

namespace TimestampBuffer

/-! ### What is stored -/

/-- The slots. -/
def slots (b : TimestampBuffer β capacity) : List (Option (Timestamped β)) := List.ofFn b.buffer

/-- The readings that are stored, in the order of the slots. -/
def stored (b : TimestampBuffer β capacity) : List (Timestamped β) := b.slots.reduceOption

/-- How many slots are occupied. -/
def occupied (b : TimestampBuffer β capacity) : ℕ := b.slots.countP Option.isSome

section
variable [NeZero capacity]

/-- What a call makes of the buffer. -/
def apply (b : TimestampBuffer β capacity) : BufferOp β → TimestampBuffer β capacity
  | .push value => b.push value
  | .pruneBefore timestampNs => b.pruneBefore timestampNs
  | .clear => b.clear

/-- The buffer after any calls, from a new one. -/
def run (ops : List (BufferOp β)) : TimestampBuffer β capacity := ops.foldl apply new

end

/-- A reading with the calls after its push: none removes it, and fewer pushes than there are slots
have come. -/
def Kept (capacity : ℕ) (value : Timestamped β) (later : List (BufferOp β)) : Prop :=
  (∀ op ∈ later, op.removes value = false) ∧ later.countP BufferOp.isPush < capacity

instance (capacity : ℕ) (value : Timestamped β) (later : List (BufferOp β)) : Decidable (Kept capacity value later) :=
  inferInstanceAs (Decidable (_ ∧ _))

/-- **What should be stored**: the readings that have been pushed and are still to be kept. -/
def retained (capacity : ℕ) : List (BufferOp β) → List (Timestamped β)
  | [] => []
  | .push value :: later =>
    if Kept capacity value later then value :: retained capacity later else retained capacity later
  | _ :: later => retained capacity later

/-- What becomes of a slot that is pruned. -/
def prune (timestampNs : ℕ) (slot : Option (Timestamped β)) : Option (Timestamped β) :=
  if isBefore timestampNs slot then none else slot

theorem slots_pruneBefore (b : TimestampBuffer β capacity) (timestampNs : ℕ) :
    (b.pruneBefore timestampNs).slots = b.slots.map (prune timestampNs) := by
  rw [slots, slots, List.map_ofFn]
  rfl

theorem length_slots (b : TimestampBuffer β capacity) : b.slots.length = capacity := List.length_ofFn

/-! ### The pushes since the last clear -/

/-- The pushes since the last clear, when a call comes: a push that is pruned leaves a blank. -/
def record (history : List (Option (Timestamped β))) : BufferOp β → List (Option (Timestamped β))
  | .push value => history ++ [some value]
  | .pruneBefore timestampNs => history.map (prune timestampNs)
  | .clear => []

/-- The pushes since the last clear. -/
def history (ops : List (BufferOp β)) : List (Option (Timestamped β)) := ops.foldl record []

theorem history_concat (ops : List (BufferOp β)) (op : BufferOp β) :
    history (ops ++ [op]) = record (history ops) op := by
  rw [history, List.foldl_append]
  rfl

theorem kept_push {c : ℕ} {value : Timestamped β} {later : List (BufferOp β)} (x : Timestamped β) :
    Kept (c + 1) value (later ++ [.push x]) ↔ Kept c value later := by
  simp [Kept, BufferOp.removes, BufferOp.isPush, List.countP_append, or_imp, forall_and]

theorem kept_pruneBefore {c : ℕ} {value : Timestamped β} {later : List (BufferOp β)} (timestampNs : ℕ) :
    Kept c value (later ++ [.pruneBefore timestampNs]) ↔ timestampNs ≤ value.timestampNs ∧ Kept c value later := by
  simp [Kept, BufferOp.removes, BufferOp.isPush, List.countP_append, or_imp, forall_and]
  tauto

theorem not_kept_clear {c : ℕ} {value : Timestamped β} {later : List (BufferOp β)} :
    ¬ Kept c value (later ++ [.clear]) := by
  intro h
  exact absurd (h.1 .clear (by simp)) (by simp [BufferOp.removes])

/-- One push more, and one slot more to keep it. -/
theorem retained_push (c : ℕ) (ops : List (BufferOp β)) (x : Timestamped β) :
    retained (c + 1) (ops ++ [.push x]) = retained c ops ++ [x] := by
  induction ops with
  | nil => simp [retained, Kept]
  | cons op ops ih =>
    cases op with
    | push value =>
      simp only [List.cons_append, retained, kept_push, ih]
      split <;> rfl
    | pruneBefore | clear => exact ih

theorem retained_zero (ops : List (BufferOp β)) : retained 0 ops = [] := by
  induction ops with
  | nil => rfl
  | cons op ops ih =>
    cases op with
    | push value => rw [retained, if_neg fun h => absurd h.2 (Nat.not_lt_zero _), ih]
    | pruneBefore | clear => exact ih

theorem retained_pruneBefore (c : ℕ) (ops : List (BufferOp β)) (timestampNs : ℕ) :
    retained c (ops ++ [.pruneBefore timestampNs]) =
      (retained c ops).filter fun item => decide (timestampNs ≤ item.timestampNs) := by
  induction ops with
  | nil => rfl
  | cons op ops ih =>
    cases op with
    | push value =>
      simp only [List.cons_append, retained, kept_pruneBefore, ih]
      by_cases hle : timestampNs ≤ value.timestampNs
      · by_cases hkept : Kept c value ops
        · simp [hle, hkept]
        · simp [hkept]
      · by_cases hkept : Kept c value ops
        · simp [hle, hkept]
        · simp [hkept]
    | pruneBefore | clear => exact ih

theorem retained_clear (c : ℕ) (ops : List (BufferOp β)) : retained c (ops ++ [.clear]) = [] := by
  induction ops with
  | nil => rfl
  | cons op ops ih =>
    cases op with
    | push value => rw [List.cons_append, retained, if_neg not_kept_clear, ih]
    | pruneBefore | clear => exact ih

/-- Pruned slots hold the readings that are not older. -/
theorem reduceOption_map_prune (timestampNs : ℕ) (slots : List (Option (Timestamped β))) :
    (slots.map (prune timestampNs)).reduceOption =
      slots.reduceOption.filter fun item => decide (timestampNs ≤ item.timestampNs) := by
  induction slots with
  | nil => rfl
  | cons slot slots ih =>
    cases slot with
    | none => simpa [prune, isBefore] using ih
    | some item =>
      by_cases hlt : item.timestampNs < timestampNs
      · simpa [prune, isBefore, hlt, Nat.not_le.2 hlt] using ih
      · simpa [prune, isBefore, hlt, Nat.not_lt.1 hlt] using ih

/-- **The readings to be kept are those of the last pushes**, pruned as they are. -/
theorem retained_eq_history (c : ℕ) (ops : List (BufferOp β)) :
    retained c ops = ((history ops).rtake c).reduceOption := by
  induction ops using List.reverseRecOn generalizing c with
  | nil => rw [history, List.foldl_nil, List.rtake_nil]; rfl
  | append_singleton ops op ih =>
    rw [history_concat]
    cases op with
    | push value =>
      cases c with
      | zero => rw [retained_zero, List.rtake_zero]; rfl
      | succ c =>
        rw [retained_push, ih, record, List.rtake_concat_succ, List.reduceOption_append]
        rfl
    | pruneBefore timestampNs =>
      rw [retained_pruneBefore, ih, record, ← map_rtake, reduceOption_map_prune]
    | clear => rw [retained_clear, record, List.rtake_nil]; rfl

section
variable [NeZero capacity]

/-- **The ring slides over the pushes** since the last clear. -/
theorem slides_run (ops : List (BufferOp β)) :
    Slides none (run ops : TimestampBuffer β capacity).slots (run ops : TimestampBuffer β capacity).writeIdx
      (history ops) := by
  induction ops using List.reverseRecOn with
  | nil => exact slides_ofFn none
  | append_singleton ops op ih =>
    rw [history_concat, run, List.foldl_append, ← run]
    cases op with
    | push value => exact ih.update (some value)
    | pruneBefore timestampNs =>
      have hmap := ih.map (f := prune timestampNs)
      rw [← slots_pruneBefore] at hmap
      exact hmap
    | clear => exact slides_ofFn none

/-- **The buffer retains exactly the recent readings that were not pruned**, each once: those pushed
since the last clear, among the last `capacity` pushes since then, and not older than any time
pruned since they were pushed. -/
theorem stored_perm_retained (ops : List (BufferOp β)) :
    (run ops : TimestampBuffer β capacity).stored.Perm (retained capacity ops) := by
  have hslides : Slides none (run ops : TimestampBuffer β capacity).slots _ (history ops) := slides_run ops
  have hslots := hslides.perm
  rw [length_slots, rtake_replicate_append] at hslots
  have hstored := hslots.filterMap id
  rw [retained_eq_history]
  refine hstored.trans (.of_eq ?_)
  rw [List.filterMap_append, List.filterMap_replicate_of_none rfl, List.nil_append]
  rfl

/-- A push that is pruned, one that is overwritten, and what is left of four. -/
def retention : List (BufferOp ℕ) :=
  [.push ⟨7, 0, 0⟩, .clear, .push ⟨10, 1, 1⟩, .push ⟨5, 2, 2⟩, .push ⟨20, 3, 3⟩, .pruneBefore 8, .push ⟨4, 4, 4⟩]

theorem stored_perm_retained_retention :
    (run retention : TimestampBuffer ℕ 3).stored.Perm (retained 3 retention) := stored_perm_retained retention

/-! ### Its length -/

/-- `len` says how many slots are occupied, and `is_empty` whether none is. -/
def Counts (b : TimestampBuffer β capacity) : Prop :=
  b.len = b.occupied ∧ (b.isEmpty = true ↔ ∀ i, b.buffer i = none)

/-- **When a call keeps the count right**: a push overwrites a reading only if every slot holds
one. -/
def Fits (b : TimestampBuffer β capacity) : BufferOp β → Prop
  | .push _ => (b.buffer b.writeIdx).isSome = true → b.occupied = capacity
  | .pruneBefore _ | .clear => True

instance (b : TimestampBuffer β capacity) : (op : BufferOp β) → Decidable (b.Fits op)
  | .push _ => inferInstanceAs (Decidable (_ → _))
  | .pruneBefore _ | .clear => instDecidableTrue

omit [NeZero capacity] in
theorem occupied_eq_zero_iff (b : TimestampBuffer β capacity) : b.occupied = 0 ↔ ∀ i, b.buffer i = none := by
  simp [occupied, slots, List.countP_eq_zero]

omit [NeZero capacity] in
/-- A right count says by itself whether the buffer is empty. -/
theorem counts_iff (b : TimestampBuffer β capacity) : b.Counts ↔ b.count = b.occupied := by
  constructor
  · exact fun h => h.1
  · intro h
    refine ⟨h, ?_⟩
    rw [isEmpty, beq_iff_eq, h, occupied_eq_zero_iff]

omit [NeZero capacity] in
theorem occupied_le (b : TimestampBuffer β capacity) : b.occupied ≤ capacity :=
  List.countP_le_length.trans b.length_slots.le

theorem slots_push (b : TimestampBuffer β capacity) (value : Timestamped β) :
    (b.push value).slots = b.slots.set b.writeIdx (some value) := ofFn_update b.buffer b.writeIdx (some value)

/-- A push occupies a slot more, unless it overwrites a reading. -/
theorem occupied_push (b : TimestampBuffer β capacity) (value : Timestamped β) :
    (b.push value).occupied = if (b.buffer b.writeIdx).isSome then b.occupied else b.occupied + 1 := by
  have hidx : (b.writeIdx : ℕ) < b.slots.length := by rw [length_slots]; exact b.writeIdx.isLt
  have hslot : b.slots[(b.writeIdx : ℕ)] = b.buffer b.writeIdx := by simp [slots]
  have hpos : (b.buffer b.writeIdx).isSome = true → 0 < b.occupied := by
    intro hsome
    exact List.countP_pos_iff.2 ⟨_, hslot ▸ List.getElem_mem hidx, hsome⟩
  rw [occupied, slots_push, List.countP_set hidx, hslot, ← occupied, Option.isSome_some, if_pos rfl]
  split_ifs with hsome
  · have hle := hpos hsome
    omega
  · omega

omit [NeZero capacity] in
/-- A prune empties the slots it counts. -/
theorem occupied_pruneBefore (b : TimestampBuffer β capacity) (timestampNs : ℕ) :
    (b.pruneBefore timestampNs).occupied + b.slots.countP (isBefore timestampNs) = b.occupied := by
  rw [occupied, slots_pruneBefore, occupied]
  generalize b.slots = slots
  induction slots with
  | nil => rfl
  | cons slot slots ih =>
    cases slot with
    | none => simpa [prune, isBefore] using ih
    | some item =>
      by_cases hlt : item.timestampNs < timestampNs
      · simp [prune, isBefore, hlt] at ih ⊢
        omega
      · simp [prune, isBefore, hlt] at ih ⊢
        omega

/-- **A call keeps a right count exactly when it fits.** -/
theorem counts_apply_iff {b : TimestampBuffer β capacity} (h : b.Counts) (op : BufferOp β) :
    (b.apply op).Counts ↔ b.Fits op := by
  rw [counts_iff] at h ⊢
  have hle := b.occupied_le
  cases op with
  | push value =>
    change (if b.count < capacity then b.count + 1 else b.count) = (b.push value).occupied ↔ _
    rw [occupied_push, h, Fits]
    split_ifs with hlt hsome hsome
    · simp [hsome]
      omega
    · simp [hsome]
    · simp [hsome]
      omega
    · -- an empty slot is not in a full buffer
      have hfull : b.occupied = capacity := by omega
      have hnext := (b.push value).occupied_le
      rw [occupied_push, if_neg hsome] at hnext
      omega
  | pruneBefore timestampNs =>
    have hpruned := b.occupied_pruneBefore timestampNs
    have hcount : (List.finRange capacity).countP (fun i => isBefore timestampNs (b.buffer i)) =
        b.slots.countP (isBefore timestampNs) := by
      rw [slots, List.ofFn_eq_map, List.countP_map]
      rfl
    refine iff_of_true ?_ trivial
    change b.count - (List.finRange capacity).countP (fun i => isBefore timestampNs (b.buffer i)) = _
    rw [hcount, apply]
    omega
  | clear =>
    refine iff_of_true ?_ trivial
    exact ((occupied_eq_zero_iff (b.apply .clear)).2 fun _ => rfl).symm

theorem counts_new : (new : TimestampBuffer β capacity).Counts := by
  rw [counts_iff]
  exact ((occupied_eq_zero_iff new).2 fun _ => rfl).symm

/-- **The count is right after every call exactly when** every push that overwrites a reading finds
all slots occupied. -/
theorem forall_counts_iff (ops : List (BufferOp β)) :
    (∀ n, (run (ops.take n) : TimestampBuffer β capacity).Counts) ↔
      Admits apply Fits (new : TimestampBuffer β capacity) ops := by
  refine forall_take_iff_admits (P := Counts) ?_ counts_new ops
  intro b op h
  exact counts_apply_iff h op

/-- The slot that was written first still holds its reading when the second one has been pruned. -/
def overwriting : List (BufferOp ℕ) := [.push ⟨10, 0, 0⟩, .push ⟨5, 1, 1⟩, .pruneBefore 6, .push ⟨20, 2, 2⟩]

/-- Pushed in order of time, what a prune empties is overwritten first. -/
def inOrder : List (BufferOp ℕ) := [.push ⟨5, 0, 0⟩, .push ⟨10, 1, 1⟩, .pruneBefore 6, .push ⟨20, 2, 2⟩]

theorem forall_counts_iff_inOrder :
    (∀ n, (run (inOrder.take n) : TimestampBuffer ℕ 2).Counts) ↔
      Admits apply Fits (new : TimestampBuffer ℕ 2) inOrder := forall_counts_iff inOrder

/-- One reading is left of `overwriting`, and two are counted. -/
theorem not_forall_counts : ¬ ∀ (capacity : ℕ) (_ : NeZero capacity) (ops : List (BufferOp ℕ)),
    (run ops : TimestampBuffer ℕ capacity).Counts := by
  intro h
  have hone := (h 2 ⟨by decide⟩ overwriting).1
  exact absurd hone (by decide)

end

end TimestampBuffer

end SensorBridge.Stage
