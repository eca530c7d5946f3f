import SensorBridge.Stage.Chain
import SensorBridge.Timestamp.Clock
import Mathlib.Data.List.FinRange

/-!
# Matching two sensors by time

A `TimestampSync` keeps the last readings of a secondary sensor in a ring, and answers a reading
of the primary sensor with the one closest to it, if there is one within the tolerance. When it
has found one it prunes the ring: a reading older than the primary's time less the tolerance is
removed, wherever it stands.

Pruning is there to save work and should not show. The primary's times do not go back, so what
is pruned is out of tolerance for all that comes (`findClosest_eq`), and the slots stay in step
with those of a ring that is never pruned: every slot holds the same, or has lost what is out
of tolerance (`Pruned`). So every result is the same (`replies_unpruned`).
-/

namespace SensorBridge.Stage

open Foundation Foundation.Replies Timestamp

universe u

variable {α β : Type u} {capacity : ℕ}

/-- `u64::abs_diff`. -/
def absDiff (a b : ℕ) : ℕ := (a - b) + (b - a)

/-! ### The buffer -/

/-- A ring of timestamped readings. -/
structure TimestampBuffer (β : Type u) (capacity : ℕ) where
  buffer : Fin capacity → Option (Timestamped β)
  /-- The slot that is written next. -/
  writeIdx : Fin capacity
  /-- How many readings there are. -/
  count : ℕ

namespace TimestampBuffer

/-- An empty buffer. -/
def new [NeZero capacity] : TimestampBuffer β capacity := ⟨fun _ => none, 0, 0⟩

/-- `push`. -/
def push [NeZero capacity] (b : TimestampBuffer β capacity) (value : Timestamped β) :
    TimestampBuffer β capacity where
  buffer := Function.update b.buffer b.writeIdx (some value)
  writeIdx := b.writeIdx + 1
  count := if b.count < capacity then b.count + 1 else b.count

/-- What the loop of `find_closest` makes of a slot: the best reading so far, and how far off it
is. -/
def consider (targetNs toleranceNs : ℕ) (best : Option (Timestamped β) × ℕ) :
    Option (Timestamped β) → Option (Timestamped β) × ℕ
  | none => best
  | some item =>
    if absDiff targetNs item.timestampNs ≤ toleranceNs ∧ absDiff targetNs item.timestampNs < best.2 then
      (some item, absDiff targetNs item.timestampNs)
    else best

/-- `find_closest`: the first of the closest readings, in the order of the slots. -/
def findClosest (b : TimestampBuffer β capacity) (targetNs toleranceNs : ℕ) : Option (Timestamped β) :=
  ((List.finRange capacity).foldl (fun best i => consider targetNs toleranceNs best (b.buffer i))
    (none, 2 ^ 64 - 1)).1

/-- Whether a slot holds a reading older than the given time. -/
def isBefore (timestampNs : ℕ) : Option (Timestamped β) → Bool
  | none => false
  | some item => decide (item.timestampNs < timestampNs)

/-- `prune_before`. The count goes down with every reading that is removed, and stops at zero. -/
def pruneBefore (b : TimestampBuffer β capacity) (timestampNs : ℕ) : TimestampBuffer β capacity where
  buffer i := if isBefore timestampNs (b.buffer i) then none else b.buffer i
  writeIdx := b.writeIdx
  count := b.count - (List.finRange capacity).countP fun i => isBefore timestampNs (b.buffer i)

/-- `len`. -/
def len (b : TimestampBuffer β capacity) : ℕ := b.count

/-- `is_empty`. -/
def isEmpty (b : TimestampBuffer β capacity) : Bool := b.count == 0

/-- `clear`. -/
def clear [NeZero capacity] (_ : TimestampBuffer β capacity) : TimestampBuffer β capacity :=
  ⟨fun _ => none, 0, 0⟩

end TimestampBuffer

/-! ### The stage -/

/-- A reading of the primary sensor with the one it is matched with. -/
structure SyncedPair (α β : Type u) where
  primary : Timestamped α
  secondary : Timestamped β
  /-- How far off the second is. -/
  timeDiffNs : ℕ

/-- `SyncedPair::new`. -/
def SyncedPair.new (primary : Timestamped α) (secondary : Timestamped β) : SyncedPair α β :=
  ⟨primary, secondary, absDiff primary.timestampNs secondary.timestampNs⟩

/-- What the stage is fed. -/
inductive SyncInput (α β : Type u) where
  /-- A reading of the primary sensor, which is matched. -/
  | primary (data : Timestamped α)
  /-- A reading of the secondary sensor, which is kept. -/
  | secondary (data : Timestamped β)

/-- The state of the stage. -/
structure TimestampSync (β : Type u) (capacity : ℕ) where
  secondaryBuffer : TimestampBuffer β capacity
  toleranceNs : ℕ
  /-- How many primary readings had no match. -/
  unmatchedCount : ℕ

namespace TimestampSync

/-- `TimestampSync::new`. -/
def new [NeZero capacity] (toleranceNs : ℕ) : TimestampSync β capacity := ⟨.new, toleranceNs, 0⟩

/-- `push_secondary`. -/
def pushSecondary [NeZero capacity] (s : TimestampSync β capacity) (data : Timestamped β) : TimestampSync β capacity :=
  { s with secondaryBuffer := s.secondaryBuffer.push data }

/-- `buffer_len`. -/
def bufferLen (s : TimestampSync β capacity) : ℕ := s.secondaryBuffer.len

/-- `match_primary`, with what becomes of the buffer after a match. -/
def matchWith (prune : TimestampBuffer β capacity → ℕ → TimestampBuffer β capacity)
    (s : TimestampSync β capacity) (primary : Timestamped α) :
    TimestampSync β capacity × Option (SyncedPair α β) :=
  match s.secondaryBuffer.findClosest primary.timestampNs s.toleranceNs with
  | some secondary =>
    ({ s with secondaryBuffer := prune s.secondaryBuffer (primary.timestampNs - s.toleranceNs) },
      some (.new primary secondary))
  | none => ({ s with unmatchedCount := s.unmatchedCount + 1 }, none)

/-- `match_primary`. -/
def matchPrimary (s : TimestampSync β capacity) (primary : Timestamped α) :
    TimestampSync β capacity × Option (SyncedPair α β) :=
  s.matchWith TimestampBuffer.pruneBefore primary

/-- `match_primary` without the call of `prune_before`. -/
def matchUnpruned (s : TimestampSync β capacity) (primary : Timestamped α) :
    TimestampSync β capacity × Option (SyncedPair α β) :=
  s.matchWith (fun b _ => b) primary

/-- `process`, with a way to match. -/
def processWith [NeZero capacity] (matchPrimary : TimestampSync β capacity → Timestamped α →
    TimestampSync β capacity × Option (SyncedPair α β)) (s : TimestampSync β capacity) :
    SyncInput α β → TimestampSync β capacity × Option (SyncedPair α β)
  | .primary data => matchPrimary s data
  | .secondary data => (s.pushSecondary data, none)

/-- `reset`. -/
def reset [NeZero capacity] (s : TimestampSync β capacity) : TimestampSync β capacity :=
  { s with secondaryBuffer := s.secondaryBuffer.clear, unmatchedCount := 0 }

variable (α β capacity) [NeZero capacity]

/-- The stage. -/
def stage (toleranceNs : ℕ) : Stage (SyncInput α β) (SyncedPair α β) :=
  .ofProcess (new toleranceNs : TimestampSync β capacity) (processWith matchPrimary) reset

/-- The stage that never prunes its buffer. -/
def unpruned (toleranceNs : ℕ) : Stage (SyncInput α β) (SyncedPair α β) :=
  .ofProcess (new toleranceNs : TimestampSync β capacity) (processWith matchUnpruned) reset

end TimestampSync

/-! ### What is pruned is out of tolerance -/

/-- The time of the last primary reading since the last reset. -/
def lastPrimary (lastNs : ℕ) : Call (SyncInput α β) → ℕ
  | .process (.primary data) => data.timestampNs
  | .reset => 0
  | _ => lastNs

/-- A primary reading is no older than the last one. -/
def InOrder (lastNs : ℕ) : Call (SyncInput α β) → Prop
  | .process (.primary data) => lastNs ≤ data.timestampNs
  | _ => True

instance (lastNs : ℕ) : (x : Call (SyncInput α β)) → Decidable (InOrder lastNs x)
  | .process (.primary data) => inferInstanceAs (Decidable (lastNs ≤ data.timestampNs))
  | .process (.secondary _) | .tick | .reset | .flush => instDecidableTrue

/-- A slot that may have been pruned, beside the one that has not: they hold the same, or the
reading that has gone is out of tolerance from now on. -/
def Pruned (lastNs toleranceNs : ℕ) (slot slot' : Option (Timestamped β)) : Prop :=
  slot = slot' ∨ slot = none ∧ ∃ item, slot' = some item ∧ item.timestampNs < lastNs - toleranceNs

/-- The two buffers, slot by slot. -/
structure InStep (lastNs toleranceNs : ℕ) (b b' : TimestampBuffer β capacity) : Prop where
  pruned : ∀ i, Pruned lastNs toleranceNs (b.buffer i) (b'.buffer i)
  writeIdx_eq : b.writeIdx = b'.writeIdx

section

variable {lastNs nowNs toleranceNs : ℕ} {slot slot' : Option (Timestamped β)}
  {b b' : TimestampBuffer β capacity}

theorem Pruned.mono (h : Pruned lastNs toleranceNs slot slot') (hle : lastNs ≤ nowNs) :
    Pruned nowNs toleranceNs slot slot' := by
  rcases h with heq | ⟨hnone, item, hitem, hlt⟩
  · exact .inl heq
  · exact .inr ⟨hnone, item, hitem, by omega⟩

/-- A reading that is out of tolerance is not considered. -/
theorem consider_of_lt {item : Timestamped β} (h : item.timestampNs < nowNs - toleranceNs)
    (best : Option (Timestamped β) × ℕ) :
    TimestampBuffer.consider nowNs toleranceNs best (some item) = best := by
  have hfar : ¬ absDiff nowNs item.timestampNs ≤ toleranceNs := by
    unfold absDiff
    omega
  simp only [TimestampBuffer.consider, hfar, false_and, if_false]

theorem Pruned.consider_eq (h : Pruned nowNs toleranceNs slot slot')
    (best : Option (Timestamped β) × ℕ) :
    TimestampBuffer.consider nowNs toleranceNs best slot =
      TimestampBuffer.consider nowNs toleranceNs best slot' := by
  rcases h with rfl | ⟨rfl, item, rfl, hlt⟩
  · rfl
  · rw [consider_of_lt hlt]
    rfl

/-- **The closest reading is the same**, with what was pruned or without. -/
theorem InStep.findClosest_eq (h : InStep nowNs toleranceNs b b') :
    b.findClosest nowNs toleranceNs = b'.findClosest nowNs toleranceNs := by
  have hfold : ∀ (is : List (Fin capacity)) best,
      is.foldl (fun best i => TimestampBuffer.consider nowNs toleranceNs best (b.buffer i)) best =
        is.foldl (fun best i => TimestampBuffer.consider nowNs toleranceNs best (b'.buffer i)) best := by
    intro is
    induction is with
    | nil => exact fun best => rfl
    | cons i is ih =>
      intro best
      rw [List.foldl_cons, List.foldl_cons, (h.pruned i).consider_eq, ih]
  rw [TimestampBuffer.findClosest, TimestampBuffer.findClosest, hfold]

theorem InStep.mono (h : InStep lastNs toleranceNs b b') (hle : lastNs ≤ nowNs) :
    InStep nowNs toleranceNs b b' := ⟨fun i => (h.pruned i).mono hle, h.writeIdx_eq⟩

theorem InStep.prune (h : InStep nowNs toleranceNs b b') :
    InStep nowNs toleranceNs (b.pruneBefore (nowNs - toleranceNs)) b' := by
  refine ⟨?_, h.writeIdx_eq⟩
  intro i
  simp only [TimestampBuffer.pruneBefore]
  split_ifs with hbefore
  · rcases h.pruned i with heq | ⟨-, hgone⟩
    · cases hslot : b.buffer i with
      | none => exact .inl (by rw [← heq, hslot])
      | some item =>
        rw [hslot] at heq hbefore
        exact .inr ⟨rfl, item, heq.symm, of_decide_eq_true hbefore⟩
    · exact .inr ⟨rfl, hgone⟩
  · exact h.pruned i

/-- The two stages, with the same tolerance. -/
structure SyncInStep (lastNs : ℕ) (s s' : TimestampSync β capacity) : Prop where
  tolerance_eq : s.toleranceNs = s'.toleranceNs
  buffers : InStep lastNs s'.toleranceNs s.secondaryBuffer s'.secondaryBuffer

/-- A primary reading is matched alike. -/
theorem SyncInStep.match {s s' : TimestampSync β capacity} (h : SyncInStep lastNs s s')
    (data : Timestamped α) (hle : lastNs ≤ data.timestampNs) :
    (s.matchPrimary data).2 = (s'.matchUnpruned data).2 ∧
      SyncInStep data.timestampNs (s.matchPrimary data).1 (s'.matchUnpruned data).1 := by
  have hbuffers := h.buffers.mono hle
  simp only [TimestampSync.matchPrimary, TimestampSync.matchUnpruned, TimestampSync.matchWith, h.tolerance_eq,
    hbuffers.findClosest_eq]
  split
  · exact ⟨rfl, rfl, hbuffers.prune⟩
  · exact ⟨rfl, rfl, hbuffers⟩

variable [NeZero capacity]

theorem InStep.push (h : InStep lastNs toleranceNs b b') (value : Timestamped β) :
    InStep lastNs toleranceNs (b.push value) (b'.push value) := by
  refine ⟨?_, ?_⟩
  · intro i
    simp only [TimestampBuffer.push, h.writeIdx_eq]
    by_cases hi : i = b'.writeIdx
    · subst hi
      rw [Function.update_self, Function.update_self]
      exact .inl rfl
    · rw [Function.update_of_ne hi, Function.update_of_ne hi]
      exact h.pruned i
  · show b.writeIdx + 1 = b'.writeIdx + 1
    rw [h.writeIdx_eq]

theorem inStep_new : InStep lastNs toleranceNs (.new : TimestampBuffer β capacity) .new :=
  ⟨fun _ => .inl rfl, rfl⟩

/-- A call answers alike, and leaves the two in step. -/
theorem SyncInStep.call {s s' : TimestampSync β capacity} (h : SyncInStep lastNs s s')
    {x : Call (SyncInput α β)} (hx : InOrder lastNs x) :
    ((TimestampSync.stage α β capacity toleranceNs).call s x).2 =
        ((TimestampSync.unpruned α β capacity toleranceNs).call s' x).2 ∧
      SyncInStep (lastPrimary lastNs x) ((TimestampSync.stage α β capacity toleranceNs).call s x).1
        ((TimestampSync.unpruned α β capacity toleranceNs).call s' x).1 := by
  cases x with
  | process input =>
    cases input with
    | primary data => exact h.match data hx
    | secondary data => exact ⟨rfl, h.tolerance_eq, h.buffers.push data⟩
  | tick | flush => exact ⟨rfl, h⟩
  | reset => exact ⟨rfl, h.tolerance_eq, inStep_new⟩

end

/-- **Pruning never shows**: fed readings of the secondary sensor in any order, readings of the
primary sensor whose times do not go back between resets, and resets, the stage answers as the
one that never prunes. -/
theorem replies_unpruned [NeZero capacity] (toleranceNs : ℕ) (cs : List (Call (SyncInput α β)))
    (h : Admits lastPrimary InOrder 0 cs) :
    replies (TimestampSync.stage α β capacity toleranceNs).call
        (TimestampSync.stage α β capacity toleranceNs).init cs =
      replies (TimestampSync.unpruned α β capacity toleranceNs).call
        (TimestampSync.unpruned α β capacity toleranceNs).init cs := by
  refine replies_eq SyncInStep ?_ ⟨rfl, inStep_new⟩ h
  intro lastNs s s' x hs hx
  exact hs.call hx

/-- A reading that is matched, pruned by the next match, and followed by a reset. -/
def readings : List (Call (SyncInput ℕ ℕ)) :=
  [.process (.secondary ⟨100, 0, 1⟩), .process (.primary ⟨105, 0, 7⟩), .process (.secondary ⟨130, 1, 2⟩),
    .process (.primary ⟨135, 1, 8⟩), .reset, .process (.primary ⟨1, 2, 9⟩)]

theorem replies_unpruned_readings :
    replies (TimestampSync.stage ℕ ℕ 2 10).call (TimestampSync.stage ℕ ℕ 2 10).init readings =
      replies (TimestampSync.unpruned ℕ ℕ 2 10).call (TimestampSync.unpruned ℕ ℕ 2 10).init readings :=
  replies_unpruned 10 readings (by decide)

end SensorBridge.Stage
