import SensorBridge.ZeroCopy.BufferPool

/-!
# The sizes of the pool's buffers

`acquire` is to give a buffer of at least the wanted size. It does when every buffer in a queue has
the capacity of its class, and the wanted size has a class: up to that of the largest one
(`le_bytes_forSize`). Neither is seen to. A larger size falls in the largest class too; and what a
guard gives back may have been shrunk, or be another `Vec`, and is turned down only when it is
too large.

In runs that return no such buffer to a queue with room the wanted size is honoured up to that of
the largest class, and beyond that when the buffer that is next happens to be large enough
(`honours_iff`).
-/

namespace SensorBridge.ZeroCopy

open Foundation

/-- Up to the largest class, the class of a size is no less. -/
theorem BufferSize.le_bytes_forSize {size : ℕ} (h : size ≤ extraLarge.bytes) : size ≤ (forSize size).bytes := by
  unfold forSize
  split_ifs with hsmall hmedium hlarge
  · exact hsmall
  · exact hmedium
  · exact hlarge
  · exact h

theorem BufferSize.forSize_of_lt {size : ℕ} (h : extraLarge.bytes < size) : forSize size = .extraLarge := by
  have hsmall : small.bytes < extraLarge.bytes := by decide
  have hmedium : medium.bytes < extraLarge.bytes := by decide
  have hlarge : large.bytes < extraLarge.bytes := by decide
  unfold forSize
  rw [if_neg (by omega), if_neg (by omega), if_neg (by omega)]

namespace Buffers

variable {a : Allocator} {poolSize : ℕ} {s : Buffers}

/-- The buffer that `acquire(min_size)` returns is empty and of at least that capacity. -/
def Honours (a : Allocator) (s : Buffers) (minSize : ℕ) : Prop :=
  ∃ v, (s.pool.acquire a minSize).2.buffer = some v ∧ v.contents = [] ∧ minSize ≤ v.capacity

/-- A buffer has the capacity of its class. -/
def Roomy (size : BufferSize) (v : Vec) : Prop := size.bytes ≤ v.capacity

instance (size : BufferSize) (v : Vec) : Decidable (Roomy size v) := inferInstanceAs (Decidable (_ ≤ _))

/-- The capacity of the buffer of a class that is acquired next: the oldest one, or a new one. -/
def nextCapacity (a : Allocator) (s : Buffers) (size : BufferSize) : ℕ :=
  match (s.pool.queueForSize size).items with
  | v :: _ => v.capacity
  | [] => a.withCapacity size.bytes

/-- The buffer is empty, whatever has been returned. -/
theorem honours_iff_le_nextCapacity (a : Allocator) (s : Buffers) (minSize : ℕ) :
    s.Honours a minSize ↔ minSize ≤ s.nextCapacity a (.forSize minSize) := by
  have hpop := ArrayQueue.pop_snd (s.pool.queueForSize (.forSize minSize))
  unfold Honours BufferPool.acquire BufferPool.acquireSized nextCapacity
  rcases hqueue : (s.pool.queueForSize (.forSize minSize)).pop with ⟨queue, _ | buf⟩
  · rw [hqueue] at hpop
    rw [List.head?_eq_none_iff.1 hpop.symm]
    constructor
    · rintro ⟨v, hv, -, hle⟩
      obtain rfl := Option.some.inj hv
      exact hle
    · exact fun hle => ⟨_, rfl, rfl, hle⟩
  · rw [hqueue] at hpop
    obtain ⟨items, hitems⟩ := List.head?_eq_some_iff.1 hpop.symm
    rw [hitems]
    constructor
    · rintro ⟨v, hv, -, hle⟩
      obtain rfl := Option.some.inj hv
      exact hle
    · exact fun hle => ⟨_, rfl, rfl, hle⟩

theorem bytes_le_nextCapacity (h : s.Inv poolSize Roomy) (size : BufferSize) :
    size.bytes ≤ s.nextCapacity a size := by
  unfold nextCapacity
  split
  next v items hitems => exact h.keeps.pooled size v (hitems ▸ List.mem_cons_self)
  next => exact a.le_withCapacity size.bytes

/-- A call that returns only buffers of the capacity of their class, or to a full queue. -/
def ReturnsRoomy : Except Panic Buffers → Call → Prop
  | .ok s, c => s.Returns Roomy c
  | .error _, _ => True

instance : (s : Except Panic Buffers) → (c : Call) → Decidable (ReturnsRoomy s c)
  | .ok s, c => inferInstanceAs (Decidable (s.Returns Roomy c))
  | .error _, _ => instDecidableTrue

/-- **When `acquire` honours its minimum size**: after a run that returns no buffer of less capacity
than its class to a queue with room, exactly for the sizes up to that of the largest class, and
those up to the capacity of the next buffer of that class. -/
theorem honours_iff (a : Allocator) (poolSize : ℕ) (s : Buffers)
    (h : Machine.ReachBy (machine a poolSize) ReturnsRoomy (.ok s)) (minSize : ℕ) :
    s.Honours a minSize ↔ minSize ≤ BufferSize.extraLarge.bytes ∨ minSize ≤ s.nextCapacity a .extraLarge := by
  have hinv : s.Inv poolSize Roomy := kept_of_reachBy (fun size => a.le_withCapacity size.bytes) (fun _ _ hc => hc) h
  rw [honours_iff_le_nextCapacity]
  rcases Nat.lt_or_ge BufferSize.extraLarge.bytes minSize with hlt | hle
  · rw [BufferSize.forSize_of_lt hlt, or_iff_right (Nat.not_le_of_lt hlt)]
  · exact iff_of_true (Nat.le_trans (BufferSize.le_bytes_forSize hle) (bytes_le_nextCapacity hinv _)) (.inl hle)

/-- A small buffer grows a little before it is returned, and another one is shrunk and kept. -/
def borrowing : List Call :=
  [.prefill 1 0 0, .acquire 200, .guard 0 (.derefMut ⟨[1, 2], 400, by decide⟩), .acquireWithData [3, 4, 5],
    .guard 1 (.derefMut ⟨[], 0, by decide⟩), .guard 0 .drop, .guard 1 .take, .acquireSized .large]

theorem honours_iff_borrowing : ∃ s : Buffers, (s.pool.small.items.map Vec.capacity = [400] ∧ s.guards.length = 3) ∧
    (s.Honours exactAllocator 1048577 ↔
      1048577 ≤ BufferSize.extraLarge.bytes ∨ 1048577 ≤ s.nextCapacity exactAllocator .extraLarge) := by
  obtain ⟨s, hs, hp⟩ := Machine.exists_reachBy_of_runBy (M := machine exactAllocator 4) (C := ReturnsRoomy) rfl
    borrowing (fun s => s.toOption.any fun s : Buffers =>
      decide (s.pool.small.items.map Vec.capacity = [400] ∧ s.guards.length = 3)) (by decide)
  cases s with
  | ok s => exact ⟨s, of_decide_eq_true hp, honours_iff exactAllocator 4 s hs 1048577⟩
  | error _ => cases hp

/-- A new pool, and one byte more than the largest class has. -/
theorem not_honours : ¬ ∀ (a : Allocator) (poolSize : ℕ) (s : Buffers),
    (machine a poolSize).Reach (.ok s) → ∀ minSize, s.Honours a minSize := by
  intro h
  have hreach := Machine.ReachBy.start (M := machine exactAllocator 4) (C := fun _ _ => True) rfl
  rw [BufferPool.new_of_le (Nat.le_refl 4)] at hreach
  have hhonours := h exactAllocator 4 _ hreach 1048577
  rw [honours_iff_le_nextCapacity] at hhonours
  revert hhonours
  decide

end Buffers

end SensorBridge.ZeroCopy
