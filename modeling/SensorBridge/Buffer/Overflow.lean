import SensorBridge.Foundation.Replies
import SensorBridge.Buffer.Sequential
import SensorBridge.Buffer.Split

/-!
# Pushing into a full buffer

`BackpressurePolicy::DropOldest` is to drop the oldest data to make room for the new: a queue that
evicts (`EvictingQueue`). But the oldest value is the consumer's to take, and what `push` does is
drop the new one, like `DropNewest`. It counts what it drops either way.

So producer and queue part at the first push into a full buffer that shows the difference. It does
not show when all that is in the buffer is the same as the new value (`tail_concat_eq_iff`), and
then they still agree: `keepsNewest_iff`.
-/

namespace SensorBridge.Buffer

open Foundation Foundation.Replies

universe u

variable {α : Type u} {N : ℕ}

/-! ### The producer -/

/-- The values of the unread slots. -/
def RingBuffer.unreadValues (N : ℕ) (r : RingBuffer α) : List α := (r.unread N).filterMap (Option.map Cell.val)

theorem RingBuffer.Represents.unreadValues_eq {r : RingBuffer α} {q : List (Cell α)}
    (h : RingBuffer.Represents N r q) : r.unreadValues N = q.map Cell.val := by
  rw [RingBuffer.unreadValues, h.unread_eq, List.filterMap_map, ← List.filterMap_eq_map]
  rfl

/-- A `BackpressureProducer`, with the buffer that it shares with a consumer. -/
structure BackpressureProducer (α : Type u) where
  buffer : RingBuffer α
  policy : BackpressurePolicy
  /-- Of 64 bits. -/
  droppedCount : ℕ
  /-- How many pushes there have been. -/
  pushes : ℕ

namespace BackpressureProducer

/-- `BackpressureProducer::new`, on a new buffer. -/
def new (policy : BackpressurePolicy) : BackpressureProducer α := ⟨.new, policy, 0, 0⟩

/-- `push_internal`, as push call `pushes`. -/
def pushInternal (N : ℕ) (p : BackpressureProducer α) (value : α) : BackpressureProducer α × Except α Unit :=
  ({ p with buffer := (p.buffer.pushInternal N value p.pushes).1, pushes := p.pushes + 1 },
    (p.buffer.pushInternal N value p.pushes).2)

/-- `dropped_count.fetch_add(1)`. -/
def countDropped (p : BackpressureProducer α) : BackpressureProducer α :=
  { p with droppedCount := (p.droppedCount + 1) % 2 ^ 64 }

/-- `push`: what it returns, if it does. A blocking push of a full buffer does not while nobody
pops. -/
def push (N : ℕ) (p : BackpressureProducer α) (value : α) : BackpressureProducer α × Option (Except α Unit) :=
  match p.policy, p.pushInternal N value with
  | .dropNewest, (p, .ok ()) | .dropOldest, (p, .ok ()) | .block, (p, .ok ()) => (p, some (.ok ()))
  | .dropNewest, (p, .error _) | .dropOldest, (p, .error _) => (p.countDropped, some (.ok ()))
  | .block, (p, .error _) => (p, none)

/-- `reset_dropped_count`. -/
def resetDroppedCount (p : BackpressureProducer α) : BackpressureProducer α := { p with droppedCount := 0 }

/-- What is done with the two handles. -/
inductive Op (α : Type u) where
  | push (value : α)
  /-- The consumer pops. -/
  | pop
  | resetDroppedCount

/-- What that makes of the producer and its buffer. -/
def apply (N : ℕ) (p : BackpressureProducer α) : Op α → BackpressureProducer α
  | .push value => (p.push N value).1
  | .pop => { p with buffer := (p.buffer.popInternal N).1 }
  | .resetDroppedCount => p.resetDroppedCount

end BackpressureProducer

/-! ### A queue that evicts -/

/-- A queue, and how many items it has evicted since that was last reset. -/
structure EvictingQueue (α : Type u) where
  items : List α
  evicted : ℕ

namespace EvictingQueue

/-- An empty queue. -/
def empty : EvictingQueue α := ⟨[], 0⟩

/-- An operation on a queue of capacity `n`: a push into a full one evicts the oldest item. -/
def apply (n : ℕ) (q : EvictingQueue α) : BackpressureProducer.Op α → EvictingQueue α
  | .push value =>
    if q.items.length < n then { q with items := q.items ++ [value] }
    else ⟨q.items.tail ++ [value], q.evicted + 1⟩
  | .pop => { q with items := q.items.tail }
  | .resetDroppedCount => { q with evicted := 0 }

/-- It makes no difference which is dropped: the queue has room, or holds nothing but the new
value. And the count of the evicted stays below `2 ^ 64`. -/
def Indifferent (n : ℕ) (q : EvictingQueue α) : BackpressureProducer.Op α → Prop
  | .push value => q.items.length < n ∨ (∀ item ∈ q.items, item = value) ∧ q.evicted + 1 < 2 ^ 64
  | _ => True

instance [DecidableEq α] (n : ℕ) (q : EvictingQueue α) :
    (op : BackpressureProducer.Op α) → Decidable (q.Indifferent n op)
  | .push _ => inferInstanceAs (Decidable (_ ∨ _))
  | .pop | .resetDroppedCount => instDecidableTrue

/-- The new value can take the place of the oldest one only among its like. -/
theorem tail_concat_eq_iff {items : List α} (hne : items ≠ []) (value : α) :
    items.tail ++ [value] = items ↔ ∀ item ∈ items, item = value := by
  obtain ⟨item, items, rfl⟩ := List.exists_cons_of_ne_nil hne
  rw [List.tail_cons]
  induction items generalizing item with
  | nil => simp [eq_comm]
  | cons item' items ih =>
    rw [List.cons_append, List.cons.injEq, ih item' (List.cons_ne_nil _ _), List.forall_mem_cons (a := item)]
    constructor
    · rintro ⟨rfl, hall⟩
      exact ⟨hall item' List.mem_cons_self, hall⟩
    · rintro ⟨rfl, hall⟩
      exact ⟨hall item' List.mem_cons_self, hall⟩

end EvictingQueue

/-! ### Producer and queue -/

open RingBuffer

/-- The unread values are the items, and the dropped ones are counted as the evicted ones. -/
def Agrees (N : ℕ) (p : BackpressureProducer α) (q : EvictingQueue α) : Prop :=
  p.buffer.unreadValues N = q.items ∧ p.droppedCount = q.evicted

instance [DecidableEq α] (N : ℕ) (p : BackpressureProducer α) (q : EvictingQueue α) : Decidable (Agrees N p q) :=
  inferInstanceAs (Decidable (_ ∧ _))

/-- The producer and the queue, after an operation on both. -/
def applyBoth (N : ℕ) (o : BackpressureProducer α × EvictingQueue α) (op : BackpressureProducer.Op α) :
    BackpressureProducer α × EvictingQueue α := (o.1.apply N op, o.2.apply (N - 1) op)

/-- The buffer holds a queue of cells, and the policy is `DropOldest`. -/
structure Sound (N : ℕ) (p : BackpressureProducer α) (cs : List (Cell α)) : Prop where
  policy_eq : p.policy = .dropOldest
  represents : Represents N p.buffer cs

section
variable {p : BackpressureProducer α} {cs : List (Cell α)}

theorem Sound.push_of_room (hN : AssertPowerOfTwo N) (h : Sound N p cs) (hroom : cs.length < N - 1) (value : α) :
    Sound N (p.push N value).1 (cs ++ [⟨value, p.pushes, false⟩]) ∧
      (p.push N value).1.droppedCount = p.droppedCount := by
  obtain ⟨hrepresents, hok⟩ := h.represents.pushInternal_of_room hN hroom value p.pushes
  have hpush : p.push N value = ((p.pushInternal N value).1, some (.ok ())) := by
    simp only [BackpressureProducer.push, BackpressureProducer.pushInternal, h.policy_eq, hok]
  rw [hpush]
  exact ⟨⟨h.policy_eq, hrepresents⟩, rfl⟩

/-- What `DropOldest` does with a full buffer: it drops the new value. -/
theorem Sound.push_of_full (hN : AssertPowerOfTwo N) (h : Sound N p cs) (hfull : cs.length = N - 1) (value : α) :
    Sound N (p.push N value).1 cs ∧ (p.push N value).1.droppedCount = (p.droppedCount + 1) % 2 ^ 64 := by
  have herror := h.represents.pushInternal_of_full hN hfull value p.pushes
  have hpush : p.push N value = ((p.pushInternal N value).1.countDropped, some (.ok ())) := by
    simp only [BackpressureProducer.push, BackpressureProducer.pushInternal, h.policy_eq, herror]
  rw [hpush, BackpressureProducer.pushInternal, herror]
  exact ⟨⟨h.policy_eq, h.represents⟩, rfl⟩

theorem Sound.apply (hN : AssertPowerOfTwo N) (h : Sound N p cs) (op : BackpressureProducer.Op α) :
    ∃ cs', Sound N (p.apply N op) cs' := by
  cases op with
  | push value =>
    rcases Nat.lt_or_ge cs.length (N - 1) with hroom | hge
    · exact ⟨_, (h.push_of_room hN hroom value).1⟩
    · have hfull := Nat.le_antisymm (Nat.le_sub_one_of_lt h.represents.length_lt) hge
      exact ⟨cs, (h.push_of_full hN hfull value).1⟩
  | pop =>
    cases cs with
    | nil =>
      have hpop : p.apply N .pop = p := by rw [BackpressureProducer.apply, h.represents.popInternal_nil]
      exact ⟨[], hpop.symm ▸ h⟩
    | cons c cs => exact ⟨cs, h.policy_eq, (h.represents.popInternal_cons hN).1⟩
  | resetDroppedCount => exact ⟨cs, h.policy_eq, h.represents⟩

/-- **One operation**: producer and queue still agree exactly when it is indifferent which value is
dropped. -/
theorem Agrees.apply_iff (hN : AssertPowerOfTwo N) (htwo : 2 ≤ N) (h : Sound N p cs) {q : EvictingQueue α}
    (hagrees : Agrees N p q) (op : BackpressureProducer.Op α) :
    Agrees N (p.apply N op) (q.apply (N - 1) op) ↔ q.Indifferent (N - 1) op := by
  obtain ⟨hitems, hcount⟩ := hagrees
  have hvalues := h.represents.unreadValues_eq.symm.trans hitems
  have hlength : cs.length = q.items.length := by rw [← hvalues, List.length_map]
  cases op with
  | push value =>
    rcases Nat.lt_or_ge cs.length (N - 1) with hroom | hge
    · obtain ⟨hsound, hdropped⟩ := h.push_of_room hN hroom value
      rw [hlength] at hroom
      refine iff_of_true ⟨?_, ?_⟩ (.inl hroom)
      · rw [BackpressureProducer.apply, hsound.represents.unreadValues_eq, EvictingQueue.apply, if_pos hroom,
          List.map_append, hvalues]
        rfl
      · rw [BackpressureProducer.apply, hdropped, hcount, EvictingQueue.apply, if_pos hroom]
    · have hfull : cs.length = N - 1 := Nat.le_antisymm (Nat.le_sub_one_of_lt h.represents.length_lt) hge
      obtain ⟨hsound, hdropped⟩ := h.push_of_full hN hfull value
      have hnot : ¬ q.items.length < N - 1 := by omega
      have hne : q.items ≠ [] := by
        rw [← List.length_pos_iff]
        omega
      rw [Agrees, BackpressureProducer.apply, hsound.represents.unreadValues_eq, hvalues, hdropped, hcount,
        EvictingQueue.apply, if_neg hnot, EvictingQueue.Indifferent, or_iff_right hnot,
        ← EvictingQueue.tail_concat_eq_iff hne, eq_comm (a := q.items), Nat.mod_eq_iff_lt (by decide)]
  | pop =>
    refine iff_of_true ⟨?_, hcount⟩ trivial
    cases cs with
    | nil =>
      have hnil : q.items = [] := by simpa using hvalues.symm
      rw [BackpressureProducer.apply, h.represents.popInternal_nil, hitems, EvictingQueue.apply, hnil, List.tail_nil]
    | cons c cs =>
      obtain ⟨hrepresents, -⟩ := h.represents.popInternal_cons hN
      rw [BackpressureProducer.apply, hrepresents.unreadValues_eq, EvictingQueue.apply, ← hvalues, List.map_cons,
        List.tail_cons]
  | resetDroppedCount => exact iff_of_true ⟨hitems, rfl⟩ trivial

end

theorem foldl_applyBoth (ops : List (BackpressureProducer.Op α)) (o : BackpressureProducer α × EvictingQueue α) :
    ops.foldl (applyBoth N) o =
      (ops.foldl (BackpressureProducer.apply N) o.1, ops.foldl (EvictingQueue.apply (N - 1)) o.2) := by
  induction ops generalizing o with
  | nil => rfl
  | cons op ops ih => exact ih (applyBoth N o op)

theorem sound_foldl (hN : AssertPowerOfTwo N) {p : BackpressureProducer α} (h : ∃ cs, Sound N p cs)
    (ops : List (BackpressureProducer.Op α)) : ∃ cs, Sound N (ops.foldl (BackpressureProducer.apply N) p) cs := by
  induction ops generalizing p with
  | nil => exact h
  | cons op ops ih =>
    obtain ⟨cs, hsound⟩ := h
    exact ih (hsound.apply hN op)

/-- **When `DropOldest` keeps the newest data**: after every beginning of the operations the unread
values and the dropped count are those of the queue that evicts its oldest item, exactly when no
push finds the buffer full of anything but its own value. -/
theorem keepsNewest_iff (hN : AssertPowerOfTwo N) (htwo : 2 ≤ N) (ops : List (BackpressureProducer.Op α)) :
    (∀ n, Agrees N ((ops.take n).foldl (BackpressureProducer.apply N) (.new .dropOldest))
        ((ops.take n).foldl (EvictingQueue.apply (N - 1)) .empty)) ↔
      Admits (EvictingQueue.apply (N - 1)) (EvictingQueue.Indifferent (N - 1)) .empty ops := by
  have hrepresents : Represents N (.new : RingBuffer α) [] := .new hN.1
  have hsound : ∃ cs, Sound N (.new .dropOldest : BackpressureProducer α) cs := ⟨[], rfl, hrepresents⟩
  have hagrees : Agrees N (.new .dropOldest : BackpressureProducer α) .empty := ⟨hrepresents.unreadValues_eq, rfl⟩
  have hstep (o : BackpressureProducer α × EvictingQueue α) (op : BackpressureProducer.Op α)
      (ho : (∃ cs, Sound N o.1 cs) ∧ Agrees N o.1 o.2) :
      ((∃ cs, Sound N (applyBoth N o op).1 cs) ∧ Agrees N (applyBoth N o op).1 (applyBoth N o op).2) ↔
        o.2.Indifferent (N - 1) op := by
    obtain ⟨⟨cs, hcs⟩, ho⟩ := ho
    exact (and_iff_right (hcs.apply hN op)).trans (ho.apply_iff hN htwo hcs op)
  have hall : (∀ n, (∃ cs, Sound N ((ops.take n).foldl (applyBoth N) (.new .dropOldest, .empty)).1 cs) ∧
      Agrees N ((ops.take n).foldl (applyBoth N) (.new .dropOldest, .empty)).1
        ((ops.take n).foldl (applyBoth N) (.new .dropOldest, .empty)).2) ↔
      Admits (applyBoth N) (fun o op => o.2.Indifferent (N - 1) op) (.new .dropOldest, .empty) ops :=
    forall_take_iff_admits hstep ⟨hsound, hagrees⟩ ops
  have hnext (o : BackpressureProducer α × EvictingQueue α) (op : BackpressureProducer.Op α) :
      (applyBoth N o op).2 = EvictingQueue.apply (N - 1) o.2 op := rfl
  rw [admits_iff_admits (EvictingQueue.Indifferent (N - 1)) Prod.snd hnext] at hall
  rw [← hall]
  refine forall_congr' fun n => ?_
  rw [foldl_applyBoth]
  exact (and_iff_right (sound_foldl hN hsound _)).symm

/-- Three places, filled again with the value that they are full of. -/
def refilled : List (BackpressureProducer.Op ℕ) :=
  [.push 1, .pop, .push 2, .push 2, .push 2, .push 2, .resetDroppedCount, .pop]

theorem keepsNewest_iff_refilled :
    (∀ n, Agrees 4 ((refilled.take n).foldl (BackpressureProducer.apply 4) (.new .dropOldest))
        ((refilled.take n).foldl (EvictingQueue.apply 3) .empty)) ↔
      Admits (EvictingQueue.apply 3) (EvictingQueue.Indifferent 3) .empty refilled :=
  keepsNewest_iff (by decide) (by decide) refilled

/-- One place, which holds the first value and not the second. -/
theorem not_keepsNewest : ¬ ∀ N, AssertPowerOfTwo N → 2 ≤ N → ∀ (ops : List (BackpressureProducer.Op ℕ)) (n : ℕ),
    Agrees N ((ops.take n).foldl (BackpressureProducer.apply N) (.new .dropOldest))
      ((ops.take n).foldl (EvictingQueue.apply (N - 1)) .empty) := by
  intro h
  have hboth : ¬ Agrees 2 ([.push 1, .push 2].foldl (BackpressureProducer.apply 2) (.new .dropOldest))
      ([.push 1, .push 2].foldl (EvictingQueue.apply (2 - 1)) .empty : EvictingQueue ℕ) := by decide
  exact hboth (h 2 (by decide) (by decide) [.push 1, .push 2] 2)

end SensorBridge.Buffer
