import SensorBridge.Foundation.Machine
import Mathlib.Data.List.Basic
import Mathlib.Order.Basic

/-!
# The buffer pool

A `BufferPool` keeps byte buffers in four bounded queues, one for each size class. `acquire` hands
out a buffer of the class that the wanted size falls in, from the queue or a new one, in a
`PooledBuffer` that dereferences to the `Vec`. Whoever has that may do with the `Vec` as they like,
and put any other in its place; when the guard is dropped the pool takes back what is in it.

A call may panic: `ArrayQueue::new` on a capacity of zero, and a guard on its `expect`. What is
reached by calls that do not is kept by `Inv`, whatever is said there of the buffers in the queues.
A quarter of the pool's size is the capacity of the last queue, so the pool is free of panics
exactly when it is of size four or more (`safe_iff`).
-/

namespace SensorBridge.ZeroCopy

open Foundation

universe u

/-- Where a call panics. -/
inductive Panic where
  /-- `ArrayQueue::new`: the capacity is zero. -/
  | zeroCapacity
  /-- `expect("buffer already taken")`. -/
  | bufferAlreadyTaken
  deriving DecidableEq

/-! ### Queues and buffers -/

/-- A bounded queue. -/
structure ArrayQueue (α : Type u) where
  /-- Oldest first. -/
  items : List α
  capacity : ℕ
  length_le : items.length ≤ capacity

namespace ArrayQueue

variable {α : Type u}

/-- `ArrayQueue::new`. -/
def new (capacity : ℕ) : Except Panic (ArrayQueue α) :=
  if capacity = 0 then .error .zeroCapacity else .ok ⟨[], capacity, Nat.zero_le capacity⟩

/-- `push`: a full queue gives the value back. -/
def push (q : ArrayQueue α) (value : α) : ArrayQueue α × Except α Unit :=
  if h : q.items.length < q.capacity then
    (⟨q.items ++ [value], q.capacity, by rw [List.length_append]; exact h⟩, .ok ())
  else (q, .error value)

/-- `pop`. -/
def pop : ArrayQueue α → ArrayQueue α × Option α
  | ⟨[], capacity, h⟩ => (⟨[], capacity, h⟩, none)
  | ⟨value :: items, capacity, h⟩ => (⟨items, capacity, Nat.le_of_succ_le h⟩, some value)

/-- A loop that pushes a value of its own each time, and does not look at the result. -/
def fill (q : ArrayQueue α) (n : ℕ) (value : α) : ArrayQueue α :=
  (List.replicate n value).foldl (fun q value => (q.push value).1) q

theorem capacity_push (q : ArrayQueue α) (value : α) : (q.push value).1.capacity = q.capacity := by
  unfold push
  split <;> rfl

theorem mem_push {q : ArrayQueue α} {value v : α} (h : v ∈ (q.push value).1.items) :
    v ∈ q.items ∨ v = value ∧ q.items.length < q.capacity := by
  unfold push at h
  split at h
  next hroom =>
    rcases List.mem_append.1 h with h | h
    · exact .inl h
    · exact .inr ⟨List.mem_singleton.1 h, hroom⟩
  next => exact .inl h

theorem capacity_fill (q : ArrayQueue α) (n : ℕ) (value : α) : (q.fill n value).capacity = q.capacity := by
  unfold fill
  induction n generalizing q with
  | zero => rfl
  | succ n ih => rw [List.replicate_succ, List.foldl_cons, ih, capacity_push]

theorem mem_fill {q : ArrayQueue α} {n : ℕ} {value v : α} (h : v ∈ (q.fill n value).items) :
    v ∈ q.items ∨ v = value := by
  unfold fill at h
  induction n generalizing q with
  | zero => exact .inl h
  | succ n ih =>
    rw [List.replicate_succ, List.foldl_cons] at h
    rcases ih h with h | h
    · exact (mem_push h).imp_right And.left
    · exact .inr h

theorem capacity_pop (q : ArrayQueue α) : q.pop.1.capacity = q.capacity := by
  rcases q with ⟨_ | _, _, _⟩ <;> rfl

theorem pop_snd (q : ArrayQueue α) : q.pop.2 = q.items.head? := by
  rcases q with ⟨_ | _, _, _⟩ <;> rfl

theorem mem_pop {q : ArrayQueue α} {v : α} (h : v ∈ q.pop.1.items) : v ∈ q.items := by
  rcases q with ⟨_ | _, _, _⟩
  · exact h
  · exact List.mem_cons_of_mem _ h

end ArrayQueue

/-- What is documented of the capacity of a `Vec`: it is no less than what was asked for. -/
structure Allocator where
  /-- The capacity that `Vec::with_capacity` makes of the one it is given. -/
  withCapacity : ℕ → ℕ
  /-- The capacity that a `Vec` grows to, from its capacity and the length that it needs. -/
  grow : ℕ → ℕ → ℕ
  le_withCapacity : ∀ n, n ≤ withCapacity n
  le_grow : ∀ capacity n, n ≤ grow capacity n

/-- A `Vec<u8>`. -/
structure Vec where
  contents : List UInt8
  capacity : ℕ
  length_le : contents.length ≤ capacity

namespace Vec

/-- `Vec::with_capacity`. -/
def withCapacity (a : Allocator) (n : ℕ) : Vec := ⟨[], a.withCapacity n, Nat.zero_le _⟩

/-- `clear`, which keeps the capacity. -/
def clear (v : Vec) : Vec := ⟨[], v.capacity, Nat.zero_le _⟩

/-- `extend_from_slice`. -/
def extendFromSlice (a : Allocator) (v : Vec) (data : List UInt8) : Vec :=
  if h : (v.contents ++ data).length ≤ v.capacity then ⟨v.contents ++ data, v.capacity, h⟩
  else ⟨v.contents ++ data, a.grow v.capacity (v.contents ++ data).length, a.le_grow _ _⟩

end Vec

/-! ### Size classes -/

/-- Size classes. -/
inductive BufferSize where
  | small
  | medium
  | large
  | extraLarge
  deriving DecidableEq

namespace BufferSize

/-- `bytes`. -/
def bytes : BufferSize → ℕ
  | .small => 256
  | .medium => 4 * 1024
  | .large => 64 * 1024
  | .extraLarge => 1024 * 1024

/-- `for_size`. -/
def forSize (size : ℕ) : BufferSize :=
  if size ≤ small.bytes then .small
  else if size ≤ medium.bytes then .medium
  else if size ≤ large.bytes then .large
  else .extraLarge

end BufferSize

/-! ### The pool -/

/-- A buffer that has been acquired, and the class that it was acquired from. -/
structure PooledBuffer where
  buffer : Option Vec
  sizeClass : BufferSize

/-- A pool. -/
structure BufferPool where
  small : ArrayQueue Vec
  medium : ArrayQueue Vec
  large : ArrayQueue Vec
  extraLarge : ArrayQueue Vec
  poolSize : ℕ
  allocated : UInt64
  reused : UInt64

namespace BufferPool

/-- `BufferPool::new`. -/
def new (poolSize : ℕ) : Except Panic BufferPool := do
  let small ← ArrayQueue.new poolSize
  let medium ← ArrayQueue.new poolSize
  let large ← ArrayQueue.new poolSize
  let extraLarge ← ArrayQueue.new (poolSize / 4)
  return ⟨small, medium, large, extraLarge, poolSize, 0, 0⟩

/-- `queue_for_size`. -/
def queueForSize (p : BufferPool) : BufferSize → ArrayQueue Vec
  | .small => p.small
  | .medium => p.medium
  | .large => p.large
  | .extraLarge => p.extraLarge

/-- The pool with another queue for a class. -/
def setQueue (p : BufferPool) (queue : ArrayQueue Vec) : BufferSize → BufferPool
  | .small => { p with small := queue }
  | .medium => { p with medium := queue }
  | .large => { p with large := queue }
  | .extraLarge => { p with extraLarge := queue }

@[simp] theorem queueForSize_setQueue (p : BufferPool) (queue : ArrayQueue Vec) (size size' : BufferSize) :
    (p.setQueue queue size).queueForSize size' = if size' = size then queue else p.queueForSize size' := by
  cases size <;> cases size' <;> rfl

/-- `acquire_sized`. -/
def acquireSized (a : Allocator) (p : BufferPool) (sizeClass : BufferSize) : BufferPool × PooledBuffer :=
  match (p.queueForSize sizeClass).pop with
  | (queue, some buf) =>
    ({ p.setQueue queue sizeClass with reused := p.reused + 1 }, ⟨some buf.clear, sizeClass⟩)
  | (_, none) =>
    ({ p with allocated := p.allocated + 1 }, ⟨some (.withCapacity a sizeClass.bytes), sizeClass⟩)

/-- `acquire`, which has the body of `acquire_sized`. -/
def acquire (a : Allocator) (p : BufferPool) (minSize : ℕ) : BufferPool × PooledBuffer :=
  p.acquireSized a (.forSize minSize)

/-- `prefill`: there is no count for the largest class. -/
def prefill (a : Allocator) (p : BufferPool) (small medium large : ℕ) : BufferPool :=
  { p with
    small := p.small.fill (min small p.poolSize) (.withCapacity a BufferSize.small.bytes)
    medium := p.medium.fill (min medium p.poolSize) (.withCapacity a BufferSize.medium.bytes)
    large := p.large.fill (min large p.poolSize) (.withCapacity a BufferSize.large.bytes) }

/-- `return_buffer`: a buffer that has grown to more than twice its class is let go. -/
def returnBuffer (p : BufferPool) (buffer : Vec) (sizeClass : BufferSize) : BufferPool :=
  if sizeClass.bytes * 2 < buffer.capacity then p
  else p.setQueue ((p.queueForSize sizeClass).push buffer.clear).1 sizeClass

end BufferPool

namespace PooledBuffer

/-- `deref` and `deref_mut`. -/
def derefMut (b : PooledBuffer) : Except Panic Vec :=
  match b.buffer with
  | some buffer => .ok buffer
  | none => .error .bufferAlreadyTaken

/-- `take`: what is left is dropped, without a buffer. -/
def take (b : PooledBuffer) : Except Panic (Vec × PooledBuffer) :=
  match b.buffer with
  | some buffer => .ok (buffer, { b with buffer := none })
  | none => .error .bufferAlreadyTaken

/-- `drop`. -/
def drop (b : PooledBuffer) (p : BufferPool) : BufferPool :=
  match b.buffer with
  | some buffer => p.returnBuffer buffer b.sizeClass
  | none => p

end PooledBuffer

/-- `acquire_with_data`. -/
def BufferPool.acquireWithData (a : Allocator) (p : BufferPool) (data : List UInt8) :
    Except Panic (BufferPool × PooledBuffer) := do
  let (p, buffer) := p.acquire a data.length
  let vec ← buffer.derefMut
  return (p, { buffer with buffer := some (vec.extendFromSlice a data) })

/-! ### The pool in use -/

/-- A pool, and its guards in the order in which they were handed out; `none` for one that is no
more. -/
structure Buffers where
  pool : BufferPool
  guards : List (Option PooledBuffer)

namespace Buffers

/-- What is done with a guard. -/
inductive Use where
  /-- The `Vec` is read through `Deref`. -/
  | deref
  /-- The `Vec` is changed through `DerefMut`, into any other. -/
  | derefMut (vec : Vec)
  /-- `io::Write::write`. -/
  | write (data : List UInt8)
  | take
  | drop

/-- What is called. -/
inductive Call where
  | acquire (minSize : ℕ)
  | acquireWithData (data : List UInt8)
  | acquireSized (sizeClass : BufferSize)
  | prefill (small medium large : ℕ)
  /-- Guard `g` is used. -/
  | guard (g : ℕ) (use : Use)

/-- A guard is handed out. -/
def handOut (s : Buffers) (p : BufferPool × PooledBuffer) : Buffers := ⟨p.1, s.guards ++ [some p.2]⟩

/-- The `Vec` in guard `g` becomes `vec`. -/
def setVec (s : Buffers) (g : ℕ) (b : PooledBuffer) (vec : Vec) : Buffers :=
  { s with guards := s.guards.set g (some { b with buffer := some vec }) }

/-- Guard `g` is dropped. -/
def dropGuard (s : Buffers) (g : ℕ) (b : PooledBuffer) : Buffers := ⟨b.drop s.pool, s.guards.set g none⟩

/-- What the use of guard `g` does. -/
def useGuard (a : Allocator) (s : Buffers) (g : ℕ) (b : PooledBuffer) : Use → Except Panic Buffers
  | .deref => b.derefMut.map fun _ => s
  | .derefMut vec => b.derefMut.map fun _ => s.setVec g b vec
  | .write data => b.derefMut.map fun vec => s.setVec g b (vec.extendFromSlice a data)
  | .take => b.take.map fun p => s.dropGuard g p.2
  | .drop => .ok (s.dropGuard g b)

/-- Guard `g`, while there is one. -/
def guard (s : Buffers) (g : ℕ) : Option PooledBuffer := s.guards[g]?.join

/-- What a call does; a guard that is no more cannot be used. -/
def call (a : Allocator) (s : Buffers) : Call → Option (Except Panic Buffers)
  | .acquire minSize => some (.ok (s.handOut (s.pool.acquire a minSize)))
  | .acquireWithData data => some ((s.pool.acquireWithData a data).map s.handOut)
  | .acquireSized sizeClass => some (.ok (s.handOut (s.pool.acquireSized a sizeClass)))
  | .prefill small medium large => some (.ok { s with pool := s.pool.prefill a small medium large })
  | .guard g use => (s.guard g).map fun b => s.useGuard a g b use

/-- `BufferPool::new`, and calls one after the other, until one panics. -/
def machine (a : Allocator) (poolSize : ℕ) : Machine (Except Panic Buffers) Call where
  init s := s = (BufferPool.new poolSize).map fun pool => ⟨pool, []⟩
  step s c :=
    match s with
    | .ok s => s.call a c
    | .error _ => none

end Buffers

/-! ### What calls keep -/

/-- No queue is of more capacity than the pool's size, and `P` holds of every buffer in one. -/
structure BufferPool.Keeps (poolSize : ℕ) (P : BufferSize → Vec → Prop) (p : BufferPool) : Prop where
  capacity_le : ∀ size, (p.queueForSize size).capacity ≤ poolSize
  pooled : ∀ size, ∀ v ∈ (p.queueForSize size).items, P size v

namespace BufferPool.Keeps

variable {poolSize : ℕ} {P : BufferSize → Vec → Prop} {p : BufferPool} {a : Allocator} {size : BufferSize}

theorem setQueue (h : p.Keeps poolSize P) {queue : ArrayQueue Vec} (hcapacity : queue.capacity ≤ poolSize)
    (hitems : ∀ v ∈ queue.items, P size v) : (p.setQueue queue size).Keeps poolSize P := by
  constructor
  · intro size'
    rw [queueForSize_setQueue]
    split_ifs
    · exact hcapacity
    · exact h.capacity_le size'
  · intro size'
    rw [queueForSize_setQueue]
    split_ifs with hsize
    · exact hsize ▸ hitems
    · exact h.pooled size'

/-- The counters are not looked at. -/
theorem counters (h : p.Keeps poolSize P) (allocated reused : UInt64) :
    ({ p with allocated, reused } : BufferPool).Keeps poolSize P := by
  have hqueue : ∀ size, ({ p with allocated, reused } : BufferPool).queueForSize size = p.queueForSize size := by
    intro size
    cases size <;> rfl
  constructor
  · intro size
    rw [hqueue]
    exact h.capacity_le size
  · intro size
    rw [hqueue]
    exact h.pooled size

theorem acquireSized (h : p.Keeps poolSize P) (size : BufferSize) :
    (p.acquireSized a size).1.Keeps poolSize P ∧ (p.acquireSized a size).2.buffer.isSome := by
  have hcapacity := (ArrayQueue.capacity_pop (p.queueForSize size)).trans_le (h.capacity_le size)
  have hitems := fun v hv => h.pooled size v (ArrayQueue.mem_pop hv)
  unfold BufferPool.acquireSized
  rcases hpop : (p.queueForSize size).pop with ⟨queue, _ | buf⟩
  all_goals rw [hpop] at hcapacity hitems
  · exact ⟨h.counters _ _, rfl⟩
  · exact ⟨(h.setQueue hcapacity hitems).counters _ _, rfl⟩

theorem prefill (h : p.Keeps poolSize P) (hfresh : ∀ size, P size (.withCapacity a size.bytes))
    (small medium large : ℕ) : (p.prefill a small medium large).Keeps poolSize P := by
  have hfill (size : BufferSize) (n : ℕ) :
      ∀ v ∈ ((p.queueForSize size).fill n (.withCapacity a size.bytes)).items, P size v := by
    intro v hv
    rcases ArrayQueue.mem_fill hv with hv | rfl
    · exact h.pooled size v hv
    · exact hfresh size
  constructor
  · intro size
    cases size with
    | small => exact (ArrayQueue.capacity_fill _ _ _).trans_le (h.capacity_le .small)
    | medium => exact (ArrayQueue.capacity_fill _ _ _).trans_le (h.capacity_le .medium)
    | large => exact (ArrayQueue.capacity_fill _ _ _).trans_le (h.capacity_le .large)
    | extraLarge => exact h.capacity_le .extraLarge
  · intro size
    cases size with
    | small => exact hfill .small _
    | medium => exact hfill .medium _
    | large => exact hfill .large _
    | extraLarge => exact h.pooled .extraLarge

/-- A buffer is taken back only into a queue with room. -/
theorem returnBuffer (h : p.Keeps poolSize P) {buffer : Vec}
    (hroom : (p.queueForSize size).items.length < (p.queueForSize size).capacity → P size buffer.clear) :
    (p.returnBuffer buffer size).Keeps poolSize P := by
  unfold BufferPool.returnBuffer
  split_ifs
  · exact h
  · refine h.setQueue ((ArrayQueue.capacity_push _ _).trans_le (h.capacity_le size)) fun v hv => ?_
    rcases ArrayQueue.mem_push hv with hv | ⟨rfl, hlt⟩
    · exact h.pooled size v hv
    · exact hroom hlt

end BufferPool.Keeps

namespace Buffers

/-- The pool keeps what it keeps, and every guard has its buffer. -/
structure Inv (poolSize : ℕ) (P : BufferSize → Vec → Prop) (s : Buffers) : Prop where
  keeps : s.pool.Keeps poolSize P
  filled : ∀ b, some b ∈ s.guards → b.buffer.isSome

/-- A buffer that is dropped into a queue with room is one of which `P` holds. -/
def Returns (P : BufferSize → Vec → Prop) (s : Buffers) : Call → Prop
  | .guard g .drop => ∀ b ∈ s.guard g, ∀ v ∈ b.buffer,
      (s.pool.queueForSize b.sizeClass).items.length < (s.pool.queueForSize b.sizeClass).capacity →
      P b.sizeClass v.clear
  | _ => True

instance (P : BufferSize → Vec → Prop) [∀ size v, Decidable (P size v)] (s : Buffers) :
    (c : Call) → Decidable (s.Returns P c)
  | .guard g .drop => inferInstanceAs (Decidable (∀ b ∈ s.guard g, ∀ v ∈ b.buffer, _))
  | .guard _ .deref | .guard _ (.derefMut _) | .guard _ (.write _) | .guard _ .take | .acquire _
  | .acquireWithData _ | .acquireSized _ | .prefill .. => instDecidableTrue

variable {poolSize : ℕ} {P : BufferSize → Vec → Prop} {s : Buffers} {a : Allocator}

theorem mem_of_guard {g : ℕ} {b : PooledBuffer} (h : s.guard g = some b) : some b ∈ s.guards :=
  List.mem_of_getElem? (Option.join_eq_some_iff.1 h)

theorem Inv.handOut (h : s.Inv poolSize P) {p : BufferPool × PooledBuffer} (hpool : p.1.Keeps poolSize P)
    (hbuffer : p.2.buffer.isSome) : (s.handOut p).Inv poolSize P := by
  refine ⟨hpool, fun b hb => ?_⟩
  rcases List.mem_append.1 hb with hb | hb
  · exact h.filled b hb
  · obtain rfl : b = p.2 := Option.some.inj (List.mem_singleton.1 hb)
    exact hbuffer

theorem Inv.setVec (h : s.Inv poolSize P) (g : ℕ) (b : PooledBuffer) (vec : Vec) :
    (s.setVec g b vec).Inv poolSize P := by
  refine ⟨h.keeps, fun b' hb => ?_⟩
  rcases List.mem_or_eq_of_mem_set hb with hb | hb
  · exact h.filled b' hb
  · obtain rfl := Option.some.inj hb
    rfl

theorem Inv.dropGuard (h : s.Inv poolSize P) {g : ℕ} {b : PooledBuffer} (hpool : (b.drop s.pool).Keeps poolSize P) :
    (s.dropGuard g b).Inv poolSize P := by
  refine ⟨hpool, fun b' hb => ?_⟩
  rcases List.mem_or_eq_of_mem_set hb with hb | hb
  · exact h.filled b' hb
  · cases hb

/-- A guard that has its buffer can be used in any way. -/
theorem Inv.useGuard (h : s.Inv poolSize P) {g : ℕ} {b : PooledBuffer} (hg : s.guard g = some b) {use : Use}
    (hreturns : s.Returns P (.guard g use)) : ∃ s', s.useGuard a g b use = .ok s' ∧ s'.Inv poolSize P := by
  obtain ⟨v, hv⟩ := Option.isSome_iff_exists.1 (h.filled b (mem_of_guard hg))
  have hderef : b.derefMut = .ok v := by rw [PooledBuffer.derefMut, hv]
  cases use with
  | deref => exact ⟨s, by rw [Buffers.useGuard, hderef]; rfl, h⟩
  | derefMut vec => exact ⟨_, by rw [Buffers.useGuard, hderef]; rfl, h.setVec g b vec⟩
  | write data => exact ⟨_, by rw [Buffers.useGuard, hderef]; rfl, h.setVec g b _⟩
  | take =>
    have htake : b.take = .ok (v, { b with buffer := none }) := by rw [PooledBuffer.take, hv]
    exact ⟨_, by rw [Buffers.useGuard, htake]; rfl, h.dropGuard (b := { b with buffer := none }) h.keeps⟩
  | drop =>
    refine ⟨_, rfl, h.dropGuard ?_⟩
    rw [PooledBuffer.drop, hv]
    exact h.keeps.returnBuffer (hreturns b hg v hv)

/-- **A call does not panic**, and keeps the invariant. -/
theorem Inv.call (h : s.Inv poolSize P) (hfresh : ∀ size, P size (.withCapacity a size.bytes)) {c : Call}
    (hreturns : s.Returns P c) {r : Except Panic Buffers} (hr : s.call a c = some r) :
    ∃ s', r = .ok s' ∧ s'.Inv poolSize P := by
  cases c with
  | acquire minSize =>
    cases hr
    obtain ⟨hpool, hbuffer⟩ := h.keeps.acquireSized (a := a) (.forSize minSize)
    exact ⟨_, rfl, h.handOut hpool hbuffer⟩
  | acquireWithData data =>
    cases hr
    obtain ⟨hpool, hbuffer⟩ := h.keeps.acquireSized (a := a) (.forSize data.length)
    obtain ⟨v, hv⟩ := Option.isSome_iff_exists.1 hbuffer
    have hderef : (s.pool.acquire a data.length).2.derefMut = .ok v := by
      rw [BufferPool.acquire, PooledBuffer.derefMut, hv]
    refine ⟨_, ?_, h.handOut (p := ((s.pool.acquire a data.length).1,
      { (s.pool.acquire a data.length).2 with buffer := some (v.extendFromSlice a data) })) hpool rfl⟩
    simp only [BufferPool.acquireWithData, hderef]
    rfl
  | acquireSized sizeClass =>
    cases hr
    obtain ⟨hpool, hbuffer⟩ := h.keeps.acquireSized (a := a) sizeClass
    exact ⟨_, rfl, h.handOut hpool hbuffer⟩
  | prefill small medium large =>
    cases hr
    exact ⟨_, rfl, h.keeps.prefill hfresh small medium large, h.filled⟩
  | guard g use =>
    obtain ⟨b, hg, rfl⟩ := Option.map_eq_some_iff.1 hr
    exact h.useGuard hg hreturns

end Buffers

/-! ### Making a pool -/

/-- The largest class has a queue of a quarter of the size. -/
theorem BufferPool.new_of_le {poolSize : ℕ} (h : 4 ≤ poolSize) :
    BufferPool.new poolSize = .ok ⟨⟨[], poolSize, Nat.zero_le _⟩, ⟨[], poolSize, Nat.zero_le _⟩,
      ⟨[], poolSize, Nat.zero_le _⟩, ⟨[], poolSize / 4, Nat.zero_le _⟩, poolSize, 0, 0⟩ := by
  have hsize : poolSize ≠ 0 := by omega
  have hquarter : poolSize / 4 ≠ 0 := by omega
  simp only [BufferPool.new, ArrayQueue.new, if_neg hsize, if_neg hquarter]
  rfl

theorem BufferPool.new_of_lt {poolSize : ℕ} (h : poolSize < 4) :
    BufferPool.new poolSize = .error .zeroCapacity := by
  have hquarter : poolSize / 4 = 0 := by omega
  unfold BufferPool.new ArrayQueue.new
  split_ifs
  · rfl
  · rfl

namespace Buffers

variable {poolSize : ℕ} {P : BufferSize → Vec → Prop} {a : Allocator}

/-- No call of the run has panicked, and no queue holds more buffers than the pool's size. -/
def Safe (poolSize : ℕ) (s : Except Panic Buffers) : Prop :=
  ∃ b, s = .ok b ∧ ∀ size, (b.pool.queueForSize size).items.length ≤ poolSize

/-- The invariant, of a pool that could be made. -/
def Kept (poolSize : ℕ) (P : BufferSize → Vec → Prop) : Except Panic Buffers → Prop
  | .ok s => s.Inv poolSize P
  | .error _ => poolSize < 4

theorem kept_new (poolSize : ℕ) (P : BufferSize → Vec → Prop) :
    Kept poolSize P ((BufferPool.new poolSize).map fun pool => ⟨pool, []⟩) := by
  rcases Nat.lt_or_ge poolSize 4 with hlt | hle
  · rw [BufferPool.new_of_lt hlt]
    exact hlt
  · rw [BufferPool.new_of_le hle]
    refine ⟨⟨fun size => ?_, fun size => ?_⟩, fun b hb => absurd hb List.not_mem_nil⟩
    · cases size with
      | small | medium | large => exact Nat.le_refl poolSize
      | extraLarge => exact Nat.div_le_self poolSize 4
    · cases size with
      | small | medium | large | extraLarge => exact fun v hv => absurd hv List.not_mem_nil

/-- **What calls keep holds of every run** that returns only buffers of which `P` holds. -/
theorem kept_of_reachBy (hfresh : ∀ size, P size (.withCapacity a size.bytes))
    {C : Except Panic Buffers → Call → Prop} (hC : ∀ s c, C (.ok s) c → s.Returns P c) {s : Except Panic Buffers}
    (h : Machine.ReachBy (machine a poolSize) C s) : Kept poolSize P s := by
  refine h.invariant ?_ ?_
  · rintro s rfl
    exact kept_new poolSize P
  · intro s c s' hs hc hcall
    cases s with
    | ok s =>
      obtain ⟨s', rfl, hs'⟩ := Inv.call hs hfresh (hC s c hc) hcall
      exact hs'
    | error _ => cases hcall

/-- **When the pool never panics**: exactly when it is made with a size of four or more. Then no
queue ever holds more buffers than the size. -/
theorem safe_iff (a : Allocator) (poolSize : ℕ) :
    (∀ s, (machine a poolSize).Reach s → Safe poolSize s) ↔ 4 ≤ poolSize := by
  constructor
  · intro h
    by_contra hlt
    have hnew := BufferPool.new_of_lt (Nat.lt_of_not_le hlt)
    obtain ⟨b, hb, -⟩ := h (.error .zeroCapacity) (.start (by rw [machine, hnew]; rfl))
    cases hb
  · intro hsize s hs
    have hreturns : ∀ (s : Buffers) (c : Call), s.Returns (fun _ _ => True) c := by
      intro s c
      unfold Returns
      split
      · exact fun _ _ _ _ _ => trivial
      · trivial
    have hkept := kept_of_reachBy (P := fun _ _ => True) (fun _ => trivial) (fun s c _ => hreturns s c) hs
    cases s with
    | ok b =>
      refine ⟨b, rfl, fun size => ?_⟩
      exact Nat.le_trans (b.pool.queueForSize size).length_le (hkept.keeps.capacity_le size)
    | error _ => exact absurd hkept (Nat.not_lt_of_le hsize)

/-- An allocator that gives what it is asked for. -/
def exactAllocator : Allocator := ⟨id, fun _ n => n, Nat.le_refl, fun _ => Nat.le_refl⟩

/-- A pool of one buffer for each class, which cannot be made. -/
theorem not_safe : ¬ ∀ (a : Allocator) (poolSize : ℕ), 1 ≤ poolSize →
    ∀ s, (machine a poolSize).Reach s → Safe poolSize s := by
  intro h
  obtain ⟨b, hb, -⟩ := h exactAllocator 1 (Nat.le_refl 1) (.error .zeroCapacity) (.start rfl)
  cases hb

end Buffers

end SensorBridge.ZeroCopy
