import Mathlib.Tactic.SplitIfs
import SensorBridge.Foundation.Cyclic

/-!
# The ring buffer's memory

`RingBuffer<T, N>` is two indices and `N` slots of `MaybeUninit<T>`. Push writes
`slot[head]` and moves `head` on, pop reads `slot[tail]` and moves `tail` on, and
one slot is kept empty so that `head = tail` means empty.

The memory here is what the two handles share: the indices as they are stored,
and for every slot what was last written to it, if anything. A read moves the
value out but does not touch the bits (`assume_init_read`), so a slot keeps its
content. Two things are recorded that the machine does not have: which push call
wrote a slot, and whether the value has been moved out since.

`Represents N r q` says that the memory holds the queue `q`: the indices are in
bounds, and the slots from `tail` round to `head` hold the cells of `q` in order.
The lemmas of `Represents` are all the rest of the development knows about the
indices.

`usize` is modelled by `ℕ`: an index is below `N`, which is itself a `usize`, so
`index + 1` does not wrap.
-/

namespace SensorBridge.Buffer

open Foundation.Cyclic

universe u

/-- What `assert_power_of_two` asserts of `N`. -/
def AssertPowerOfTwo (N : ℕ) : Prop := 0 < N ∧ N &&& (N - 1) = 0

instance (N : ℕ) : Decidable (AssertPowerOfTwo N) := inferInstanceAs (Decidable (_ ∧ _))

/-- The next index, with wrap-around. -/
def nextIndex (N index : ℕ) : ℕ := (index + 1) &&& (N - 1)

/-- With `N` a power of two, masking is the remainder. -/
theorem nextIndex_eq {N : ℕ} (hN : AssertPowerOfTwo N) (i : ℕ) : nextIndex N i = (i + 1) % N := by
  obtain ⟨k, rfl⟩ := (Nat.and_sub_one_eq_zero_iff_isPowerOfTwo (by have := hN.1; omega)).mp hN.2
  exact Nat.and_two_pow_sub_one_eq_mod _ _

/-- What a slot holds once it has been written. -/
structure Cell (α : Type u) where
  /-- The value. -/
  val : α
  /-- The push call that wrote it. -/
  push : ℕ
  /-- Whether a pop has moved the value out. -/
  moved : Bool
  deriving DecidableEq

/-- The cell after `assume_init_read`. -/
def Cell.moveOut {α : Type u} (c : Cell α) : Cell α := { c with moved := true }

/-- The shared memory of a ring buffer. -/
structure RingBuffer (α : Type u) where
  /-- Where the next value is written. -/
  head : ℕ
  /-- Where the next value is read. -/
  tail : ℕ
  /-- The slots; `none` is a slot never written. -/
  buffer : ℕ → Option (Cell α)

namespace RingBuffer

variable {α : Type u} {N : ℕ}

/-- A new buffer: both indices `0`, nothing written. -/
def new : RingBuffer α := ⟨0, 0, fun _ => none⟩

/-- `slot.write(value)`, by push call `push`. -/
def write (r : RingBuffer α) (i : ℕ) (value : α) (push : ℕ) : RingBuffer α :=
  { r with buffer := Function.update r.buffer i (some ⟨value, push, false⟩) }

/-- `slot.assume_init_read()`: the value is moved out of the slot. -/
def moveOut (r : RingBuffer α) (i : ℕ) : RingBuffer α :=
  { r with buffer := Function.update r.buffer i ((r.buffer i).map Cell.moveOut) }

/-- `head.store(h)`. -/
def storeHead (r : RingBuffer α) (h : ℕ) : RingBuffer α := { r with head := h }

/-- `tail.store(t)`. -/
def storeTail (r : RingBuffer α) (t : ℕ) : RingBuffer α := { r with tail := t }

@[simp] theorem head_write (r : RingBuffer α) (i : ℕ) (v : α) (p : ℕ) :
    (r.write i v p).head = r.head := rfl

@[simp] theorem tail_write (r : RingBuffer α) (i : ℕ) (v : α) (p : ℕ) :
    (r.write i v p).tail = r.tail := rfl

@[simp] theorem head_moveOut (r : RingBuffer α) (i : ℕ) : (r.moveOut i).head = r.head := rfl

@[simp] theorem tail_moveOut (r : RingBuffer α) (i : ℕ) : (r.moveOut i).tail = r.tail := rfl

@[simp] theorem head_storeTail (r : RingBuffer α) (t : ℕ) : (r.storeTail t).head = r.head := rfl

@[simp] theorem tail_storeHead (r : RingBuffer α) (h : ℕ) : (r.storeHead h).tail = r.tail := rfl

@[simp] theorem buffer_storeHead (r : RingBuffer α) (h : ℕ) :
    (r.storeHead h).buffer = r.buffer := rfl

@[simp] theorem buffer_storeTail (r : RingBuffer α) (t : ℕ) :
    (r.storeTail t).buffer = r.buffer := rfl

/-- The slots from `tail` round to `head`. -/
def unread (N : ℕ) (r : RingBuffer α) : List (Option (Cell α)) :=
  window N r.buffer r.tail (gap N r.tail r.head)

/-- **The memory holds the queue `q`.** -/
structure Represents (N : ℕ) (r : RingBuffer α) (q : List (Cell α)) : Prop where
  /-- The write index is in bounds. -/
  head_lt : r.head < N
  /-- The read index is in bounds. -/
  tail_lt : r.tail < N
  /-- The unread slots are initialised and hold the queue. -/
  unread_eq : r.unread N = q.map some

namespace Represents

variable {r : RingBuffer α} {q : List (Cell α)} {c : Cell α}

theorem new (hN : 0 < N) : Represents N (.new : RingBuffer α) [] :=
  ⟨hN, hN, by simp [unread, RingBuffer.new, hN]⟩

theorem gap_eq (h : Represents N r q) : gap N r.tail r.head = q.length := by
  have := congrArg List.length h.unread_eq
  simpa [unread] using this

/-- At most `N - 1` values are unread. -/
theorem length_lt (h : Represents N r q) : q.length < N := h.gap_eq ▸ gap_lt h.tail_lt

/-- The fullness check of push. -/
theorem full_iff (hN : AssertPowerOfTwo N) (h : Represents N r q) :
    nextIndex N r.head = r.tail ↔ q.length = N - 1 := by
  rw [nextIndex_eq hN, succ_mod_eq_iff h.tail_lt h.head_lt, h.gap_eq]
  have := hN.1
  omega

/-- The emptiness check of pop. -/
theorem empty_iff (h : Represents N r q) : r.tail = r.head ↔ q = [] := by
  rw [← gap_eq_zero_iff h.tail_lt h.head_lt, h.gap_eq, List.length_eq_zero_iff]

/-- The slot at `head` is not one of the unread slots: writing it changes none of them. -/
theorem write (h : Represents N r q) (v : α) (p : ℕ) : Represents N (r.write r.head v p) q where
  head_lt := h.head_lt
  tail_lt := h.tail_lt
  unread_eq := (window_update h.tail_lt h.head_lt (Nat.le_refl _) _).trans h.unread_eq

/-- Moving `head` on hands over the cell written there. -/
theorem storeHead (hN : AssertPowerOfTwo N) (h : Represents N r q) (hlt : q.length < N - 1)
    (hc : r.buffer r.head = some c) :
    Represents N (r.storeHead (nextIndex N r.head)) (q ++ [c]) where
  head_lt := by rw [nextIndex_eq hN]; exact Nat.mod_lt _ hN.1
  tail_lt := h.tail_lt
  unread_eq := by
    have hne : (r.head + 1) % N ≠ r.tail := by
      rw [← nextIndex_eq hN, Ne, h.full_iff hN]
      omega
    have hslot := add_gap_mod h.tail_lt h.head_lt
    simp only [unread, RingBuffer.storeHead, nextIndex_eq hN]
    rw [gap_succ_right h.tail_lt h.head_lt hne, window_succ, hslot, hc, List.map_append]
    congr 1
    exact h.unread_eq

/-- A nonempty queue begins at `tail`. -/
theorem unread_cons (hN : AssertPowerOfTwo N) (h : Represents N r (c :: q)) :
    r.unread N = r.buffer r.tail ::
      window N r.buffer (nextIndex N r.tail) (gap N (nextIndex N r.tail) r.head) := by
  have hne : r.tail ≠ r.head := fun he => by simpa using h.empty_iff.mp he
  rw [unread, gap_succ_left h.tail_lt h.head_lt hne, window_succ_left h.tail_lt, nextIndex_eq hN]

/-- The slot at `tail` holds the first value of the queue. -/
theorem buffer_tail (hN : AssertPowerOfTwo N) (h : Represents N r (c :: q)) :
    r.buffer r.tail = some c := by
  have := h.unread_cons hN
  rw [h.unread_eq, List.map_cons, List.cons.injEq] at this
  exact this.1.symm

/-- Moving `tail` on releases the first cell. -/
theorem storeTail (hN : AssertPowerOfTwo N) (h : Represents N r (c :: q)) :
    Represents N (r.storeTail (nextIndex N r.tail)) q where
  head_lt := h.head_lt
  tail_lt := by rw [nextIndex_eq hN]; exact Nat.mod_lt _ hN.1
  unread_eq := by
    have := h.unread_cons hN
    rw [h.unread_eq, List.map_cons, List.cons.injEq] at this
    exact this.2.symm

/-- Moving the first value out marks its cell and touches no other. -/
theorem moveOut (hN : AssertPowerOfTwo N) (h : Represents N r (c :: q)) :
    Represents N (r.moveOut r.tail) (c.moveOut :: q) where
  head_lt := h.head_lt
  tail_lt := h.tail_lt
  unread_eq := by
    have hne : r.tail ≠ r.head := fun he => by simpa using h.empty_iff.mp he
    have hlen : q.length ≤ gap N ((r.tail + 1) % N) r.tail := by
      have hlt := h.length_lt
      have htail := h.tail_lt
      rw [List.length_cons] at hlt
      rw [gap_cases (Nat.mod_lt _ hN.1) htail, succ_mod_cases htail]
      split_ifs <;> omega
    have hrest : gap N ((r.tail + 1) % N) r.head = q.length := by
      have h1 := gap_succ_left h.tail_lt h.head_lt hne
      have h2 := h.gap_eq
      rw [List.length_cons] at h2
      omega
    have hq : window N r.buffer ((r.tail + 1) % N) q.length = q.map some := by
      have := h.unread_cons hN
      rw [h.unread_eq, List.map_cons, List.cons.injEq, nextIndex_eq hN, hrest] at this
      exact this.2.symm
    simp only [unread, RingBuffer.moveOut]
    rw [h.gap_eq, List.length_cons, window_succ_left h.tail_lt, Function.update_self,
      window_update (Nat.mod_lt _ hN.1) h.tail_lt hlen, hq, h.buffer_tail hN]
    rfl

end Represents

end RingBuffer

end SensorBridge.Buffer
