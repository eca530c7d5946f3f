import SensorBridge.Buffer.Spsc

/-!
# One call at a time

While nobody else uses the buffer, `push_internal` and `pop_internal` run to their end before
anything else happens (`Spsc.run_push`, `Spsc.run_pop`), and so does `drop`, which has the buffer to
itself. On a memory that holds the queue `q`, a push appends to `q` or finds it full, and a pop
takes its first value.

`drop` walks from `tail` to `head` and drops what is in each slot, whatever that is. The walk is at
an end after as many steps as there are values in the queue, since on the way the memory holds
what is left of the queue with the index of the walk for its `tail` (`dropLoop_eq`). So what is
dropped are the values accepted and not popped, each of them once and in order, whatever the two
handles have done before (`Spsc.drop_releases`).
-/

namespace SensorBridge.Buffer

open Foundation

universe u

variable {α : Type u} {N : ℕ}

namespace RingBuffer

/-! ### Push and pop -/

/-- `push_internal(value)`, which is push call `push`. -/
def pushInternal (N : ℕ) (r : RingBuffer α) (value : α) (push : ℕ) : RingBuffer α × Except α Unit :=
  let nextHead := nextIndex N r.head
  if nextHead = r.tail then (r, .error value) else ((r.write r.head value push).storeHead nextHead, .ok ())

/-- `pop_internal()`. A slot that was never written would give no value here; on a memory that
holds a queue that is never the one that is read (`Represents.popInternal_cons`). -/
def popInternal (N : ℕ) (r : RingBuffer α) : RingBuffer α × Option α :=
  if r.tail = r.head then (r, none)
  else ((r.moveOut r.tail).storeTail (nextIndex N r.tail), (r.buffer r.tail).map Cell.val)

namespace Represents

variable {r : RingBuffer α} {q : List (Cell α)} {c : Cell α}

theorem pushInternal_of_full (hN : AssertPowerOfTwo N) (h : Represents N r q) (hfull : q.length = N - 1)
    (value : α) (push : ℕ) : r.pushInternal N value push = (r, .error value) := by
  rw [RingBuffer.pushInternal, if_pos ((h.full_iff hN).2 hfull)]

theorem pushInternal_of_room (hN : AssertPowerOfTwo N) (h : Represents N r q) (hroom : q.length < N - 1)
    (value : α) (push : ℕ) :
    Represents N (r.pushInternal N value push).1 (q ++ [⟨value, push, false⟩]) ∧
      (r.pushInternal N value push).2 = .ok () := by
  have hne : nextIndex N r.head ≠ r.tail := by
    rw [Ne, h.full_iff hN]
    omega
  have hcell : (r.write r.head value push).buffer (r.write r.head value push).head = some ⟨value, push, false⟩ :=
    Function.update_self ..
  rw [RingBuffer.pushInternal, if_neg hne]
  exact ⟨(h.write value push).storeHead hN hroom hcell, rfl⟩

theorem popInternal_nil (h : Represents N r []) : r.popInternal N = (r, none) := by
  rw [RingBuffer.popInternal, if_pos (h.empty_iff.2 rfl)]

theorem popInternal_cons (hN : AssertPowerOfTwo N) (h : Represents N r (c :: q)) :
    Represents N (r.popInternal N).1 q ∧ (r.popInternal N).2 = some c.val := by
  have hne : r.tail ≠ r.head := fun heq => List.cons_ne_nil c q (h.empty_iff.1 heq)
  rw [RingBuffer.popInternal, if_neg hne, h.buffer_tail hN]
  exact ⟨(h.moveOut hN).storeTail hN, rfl⟩

end Represents

/-! ### Drop -/

/-- The loop of `drop`, for at most so many iterations: what was in the slots that it dropped, one
after the other. A value that is dropped is gone from its slot like one that is moved out. -/
def dropLoop (N : ℕ) : ℕ → RingBuffer α → ℕ → Option (List (Option (Cell α)))
  | 0, r, idx => if idx = r.head then some [] else none
  | n + 1, r, idx =>
    if idx = r.head then some []
    else (dropLoop N n (r.moveOut idx) (nextIndex N idx)).map (r.buffer idx :: ·)

/-- `drop`, for at most so many iterations. -/
def drop (N n : ℕ) (r : RingBuffer α) : Option (List (Option (Cell α))) := r.dropLoop N n r.tail

/-- Where the walk has come to, what is left of the queue is held. -/
theorem dropLoop_eq (hN : AssertPowerOfTwo N) {r : RingBuffer α} {idx : ℕ} {q : List (Cell α)}
    (h : Represents N (r.storeTail idx) q) {n : ℕ} (hn : q.length ≤ n) :
    r.dropLoop N n idx = some (q.map some) := by
  induction q generalizing r idx n with
  | nil =>
    have hend : idx = r.head := h.empty_iff.2 rfl
    cases n with
    | zero | succ n => rw [dropLoop, if_pos hend, List.map_nil]
  | cons c q ih =>
    have hne : idx ≠ r.head := fun heq => List.cons_ne_nil c q (h.empty_iff.1 heq)
    have hslot : r.buffer idx = some c := h.buffer_tail hN
    obtain ⟨n, rfl⟩ := Nat.exists_eq_add_one_of_ne_zero (Nat.ne_of_gt (Nat.lt_of_lt_of_le (Nat.succ_pos _) hn))
    have hrest : Represents N ((r.moveOut idx).storeTail (nextIndex N idx)) q := (h.moveOut hN).storeTail hN
    rw [dropLoop, if_neg hne, ih hrest (Nat.le_of_succ_le_succ hn), hslot, Option.map_some, List.map_cons]

end RingBuffer

namespace Spsc

/-! ### One call of a handle -/

/-- A push that nothing interrupts is `push_internal`. -/
theorem run_push {s : Spsc α} (hidle : s.push = .idle) (value : α) :
    ∃ as s', (machine N α).run s as = some s' ∧ s'.push = .idle ∧
      s'.ring = (s.ring.pushInternal N value s.writes).1 ∧
      s'.pushResults = s.pushResults ++ [(s.ring.pushInternal N value s.writes).2] := by
  by_cases hfull : nextIndex N s.ring.head = s.ring.tail
  · rw [RingBuffer.pushInternal, if_pos hfull]
    refine ⟨[.push value, .producer], ?_⟩
    simp [Machine.run, machine, step, producerStep, hidle, hfull]
  · rw [RingBuffer.pushInternal, if_neg hfull]
    refine ⟨[.push value, .producer, .producer, .producer], ?_⟩
    simp [Machine.run, machine, step, producerStep, hidle, hfull]

/-- A pop that nothing interrupts is `pop_internal`. -/
theorem run_pop {s : Spsc α} {q : List (Cell α)} (hN : AssertPowerOfTwo N) (h : RingBuffer.Represents N s.ring q)
    (hidle : s.pop = .idle) :
    ∃ as s', (machine N α).run s as = some s' ∧ s'.pop = .idle ∧ s'.ring = (s.ring.popInternal N).1 ∧
      s'.popResults = s.popResults ++ [(s.ring.popInternal N).2] := by
  by_cases hempty : s.ring.tail = s.ring.head
  · rw [RingBuffer.popInternal, if_pos hempty]
    refine ⟨[.pop, .consumer], ?_⟩
    simp [Machine.run, machine, step, consumerStep, hidle, hempty]
  · obtain ⟨c, q, rfl⟩ := List.exists_cons_of_ne_nil fun hnil => hempty (h.empty_iff.2 hnil)
    have hslot := h.buffer_tail hN
    rw [RingBuffer.popInternal, if_neg hempty]
    refine ⟨[.pop, .consumer, .consumer, .consumer], ?_⟩
    simp [Machine.run, machine, step, consumerStep, hidle, hempty, hslot]

/-! ### After any use of the handles -/

theorem map_val_cells (n : ℕ) (vs : List α) : (cells n vs).map Cell.val = vs := by
  induction vs generalizing n with
  | nil => rfl
  | cons v vs ih => rw [cells, List.map_cons, ih]

theorem map_push_cells (n : ℕ) (vs : List α) : (cells n vs).map Cell.push = List.range' n vs.length := by
  induction vs generalizing n with
  | nil => rfl
  | cons v vs ih => rw [cells, List.map_cons, ih, List.length_cons, List.range'_succ]

theorem moved_cells (n : ℕ) (vs : List α) : ∀ c ∈ cells n vs, c.moved = false := by
  induction vs generalizing n with
  | nil => exact fun c hc => absurd hc List.not_mem_nil
  | cons v vs ih =>
    intro c hc
    rcases List.mem_cons.1 hc with rfl | hc
    · rfl
    · exact ih (n + 1) c hc

/-- **Dropping the buffer releases what is left in it**: after any calls of the two handles, when no
pop is on its way, the loop of `drop` ends within `N - 1` iterations. The slots it drops have been
written and not moved out of; they hold the accepted values that have not been popped, those of
the pushes from the first unpopped one on, in order. -/
theorem drop_releases (hN : AssertPowerOfTwo N) {s : Spsc α} (h : (machine N α).Reach s) (hpop : s.pop = .idle) :
    ∃ cs : List (Cell α), s.ring.drop N (N - 1) = some (cs.map some) ∧
      s.accepted = s.popped ++ cs.map Cell.val ∧
      cs.map Cell.push = List.range' s.popped.length cs.length ∧
      (∀ c ∈ cs, c.moved = false) ∧ cs.length ≤ N - 1 := by
  obtain ⟨vs, hinv⟩ := inv_of_reach hN h
  have hqueue : s.queue vs = cells s.popped.length vs := by rw [queue, hpop]
  have hrepresents := hinv.represents
  rw [hqueue] at hrepresents
  have hlength := Nat.le_sub_one_of_lt hrepresents.length_lt
  refine ⟨cells s.popped.length vs, RingBuffer.dropLoop_eq hN hrepresents hlength, ?_, ?_, moved_cells _ vs, hlength⟩
  · rw [map_val_cells, hinv.accepted_eq]
  · rw [map_push_cells, length_cells]

/-- A whole push call, and a whole pop call. -/
def pushed (value : ℕ) : List (Act ℕ) := [.push value, .producer, .producer, .producer]

@[inherit_doc pushed] def popping : List (Act ℕ) := [.pop, .consumer, .consumer, .consumer]

/-- Four slots, with the values left in the last one and, wrapped around, in the first. -/
theorem drop_releases_wrapped : ∃ s : Spsc ℕ, (s.ring.tail, s.ring.head) = (3, 1) ∧
    ∃ cs : List (Cell ℕ), s.ring.drop 4 3 = some (cs.map some) ∧
      s.accepted = s.popped ++ cs.map Cell.val ∧
      cs.map Cell.push = List.range' s.popped.length cs.length ∧
      (∀ c ∈ cs, c.moved = false) ∧ cs.length ≤ 3 := by
  obtain ⟨s, hs, hp⟩ := Machine.exists_reach_of_run (M := machine 4 ℕ) (s := new) rfl
    (List.flatten [pushed 1, pushed 2, pushed 3, popping, popping, popping, pushed 4, pushed 5])
    (fun s => decide ((s.ring.tail, s.ring.head) = (3, 1) ∧ s.pop = .idle)) (by decide)
  obtain ⟨hindices, hpop⟩ := of_decide_eq_true hp
  exact ⟨s, hindices, drop_releases (by decide) hs hpop⟩

end Spsc

end SensorBridge.Buffer
