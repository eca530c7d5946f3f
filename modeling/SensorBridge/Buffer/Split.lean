import SensorBridge.Foundation.Machine
import SensorBridge.Foundation.Threads
import SensorBridge.Buffer.Ring

/-!
# Handles

`RingBuffer::split` takes `&self`, `split_arc` takes one of any number of clones of
an `Arc`, and `BackpressureProducer::new` takes another: safe code can make as
many handles on one buffer as it likes, and (a handle being a shared pointer to a
`Sync` buffer) can push through one handle from several threads at once. This
machine has all of that: any number of handles made at any time, any number of
push and pop calls in progress, each call with its own program counter.

What comes out is that the discipline the unsafe code relies on is not enforced
(`not_forall_safe`): two overlapping pushes lose a value. What the code needs is
`Exclusive`, a condition on two kinds of step: a push writes its slot only while
the `head` it loaded is current, there is room, and no other push has written
without storing `head`; and likewise for a pop's read. Under it nothing is lost
or popped twice (`safe_of_exclusive`).
-/

namespace SensorBridge.Buffer

open Foundation Foundation.Threads RingBuffer

universe u

/-- What a `BackpressureProducer` does when the buffer is full. -/
inductive BackpressurePolicy where
  | dropOldest
  | dropNewest
  | block
  deriving DecidableEq

/-- A handle that can push. -/
inductive ProducerHandle where
  /-- The `Producer` of `split`. -/
  | producer
  /-- The `OwnedProducer` of `split_arc`. -/
  | ownedProducer
  /-- A `BackpressureProducer` and its `dropped_count`. -/
  | backpressure (policy : BackpressurePolicy) (droppedCount : ℕ)
  deriving DecidableEq

/-- `dropped_count.fetch_add(1)`. -/
def ProducerHandle.countDropped : ProducerHandle → ProducerHandle
  | .backpressure policy n => .backpressure policy (n + 1)
  | h => h

/-- How a push call ended. -/
inductive PushOutcome where
  /-- `Ok(())`, the value in the buffer. -/
  | stored
  /-- `Ok(())`, the value dropped and counted, as the handle's policy says. -/
  | dropped
  /-- `Err(value)`. -/
  | rejected
  deriving DecidableEq

/-- Where a push call is. -/
inductive PushCallPc where
  /-- `head` has been loaded. -/
  | loadedHead (head : ℕ)
  /-- `tail` has been loaded, and the buffer is not full. -/
  | checked (head : ℕ)
  /-- `slot[head]` has been written. -/
  | written (head : ℕ)
  /-- `BackpressurePolicy::Block` found the buffer full and will try again. -/
  | retry
  /-- A dropping policy found the buffer full and will count the value. -/
  | counting
  /-- The call has returned. -/
  | returned (outcome : PushOutcome)
  deriving DecidableEq

/-- Whether a push has written its slot and not yet stored `head`. -/
def PushCallPc.isWritten : PushCallPc → Bool
  | .written _ => true
  | _ => false

/-- A push call: the handle it goes through, its argument, and where it is. -/
structure PushCall (α : Type u) where
  handle : ℕ
  value : α
  pc : PushCallPc

/-- Where a pop call is. -/
inductive PopCallPc (α : Type u) where
  /-- `tail` has been loaded. -/
  | loadedTail (tail : ℕ)
  /-- `head` has been loaded, and the buffer is not empty. -/
  | checked (tail : ℕ)
  /-- `slot[tail]` has been read. -/
  | taken (tail : ℕ) (cell : Cell α)
  /-- The call has returned. -/
  | returned

/-- Whether a pop has read its slot and not yet stored `tail`. -/
def PopCallPc.isTaken {α : Type u} : PopCallPc α → Bool
  | .taken _ _ => true
  | _ => false

/-- A buffer, its handles, and the calls made through them. -/
structure Shared (α : Type u) where
  /-- The memory. -/
  ring : RingBuffer α
  /-- The handles that push. -/
  handles : List ProducerHandle
  /-- How many handles pop: they have no state of their own. -/
  consumers : ℕ
  /-- The push calls, in the order they began. -/
  pushes : List (PushCall α)
  /-- The pop calls, in the order they began. -/
  pops : List (PopCallPc α)
  /-- The push calls that have stored `head`, in order, with their values. -/
  stored : List (ℕ × α)
  /-- The values popped, in order, with the push calls they came from. -/
  popped : List (ℕ × α)

namespace Shared

variable {α : Type u} {N : ℕ}

/-- What can happen next. -/
inductive Act (α : Type u) where
  /-- `RingBuffer::split(&self)`. -/
  | split
  /-- `RingBuffer::split_arc` on a clone of the `Arc`. -/
  | splitArc
  /-- `BackpressureProducer::new` on a clone of the `Arc`. -/
  | backpressure (policy : BackpressurePolicy)
  /-- A push call begins on a handle, and loads `head`. -/
  | push (handle : ℕ) (value : α)
  /-- A push call's next step. -/
  | pushStep (call : ℕ)
  /-- A pop call begins on a handle, and loads `tail`. -/
  | pop (handle : ℕ)
  /-- A pop call's next step. -/
  | popStep (call : ℕ)

/-- Where a push call goes when `push_internal` returns `Err`. -/
def onFull : ProducerHandle → PushCallPc
  | .producer | .ownedProducer => .returned .rejected
  | .backpressure .block _ => .retry
  | .backpressure .dropNewest _ | .backpressure .dropOldest _ => .counting

/-- The next step of push call `i`. -/
def pushStep (N : ℕ) (s : Shared α) (i : ℕ) (c : PushCall α) : Option (Shared α) :=
  match c.pc with
  | .loadedHead h =>
    if nextIndex N h = s.ring.tail then
      (s.handles[c.handle]?).map fun k => { s with pushes := s.pushes.set i { c with pc := onFull k } }
    else some { s with pushes := s.pushes.set i { c with pc := .checked h } }
  | .checked h =>
    some { s with ring := s.ring.write h c.value i
                  pushes := s.pushes.set i { c with pc := .written h } }
  | .written h =>
    some { s with ring := s.ring.storeHead (nextIndex N h)
                  pushes := s.pushes.set i { c with pc := .returned .stored }
                  stored := s.stored ++ [(i, c.value)] }
  | .retry => some { s with pushes := s.pushes.set i { c with pc := .loadedHead s.ring.head } }
  | .counting =>
    some { s with handles := s.handles.modify c.handle ProducerHandle.countDropped
                  pushes := s.pushes.set i { c with pc := .returned .dropped } }
  | .returned _ => none

/-- The next step of pop call `j`. -/
def popStep (N : ℕ) (s : Shared α) (j : ℕ) : PopCallPc α → Option (Shared α)
  | .loadedTail t =>
    some { s with pops := s.pops.set j (if t = s.ring.head then .returned else .checked t) }
  | .checked t =>
    (s.ring.buffer t).map fun c =>
      { s with ring := s.ring.moveOut t, pops := s.pops.set j (.taken t c) }
  | .taken t c =>
    some { s with ring := s.ring.storeTail (nextIndex N t), pops := s.pops.set j .returned
                  popped := s.popped ++ [(c.push, c.val)] }
  | .returned => none

/-- One step: a handle is made, a call begins, or a call in progress moves. -/
def step (N : ℕ) (s : Shared α) : Act α → Option (Shared α)
  | .split => some { s with handles := s.handles ++ [.producer], consumers := s.consumers + 1 }
  | .splitArc =>
    some { s with handles := s.handles ++ [.ownedProducer], consumers := s.consumers + 1 }
  | .backpressure policy => some { s with handles := s.handles ++ [.backpressure policy 0] }
  | .push k v =>
    if k < s.handles.length then
      some { s with pushes := s.pushes ++ [⟨k, v, .loadedHead s.ring.head⟩] }
    else none
  | .pushStep i => (s.pushes[i]?).bind (s.pushStep N i)
  | .pop k =>
    if k < s.consumers then some { s with pops := s.pops ++ [.loadedTail s.ring.tail] } else none
  | .popStep j => (s.pops[j]?).bind (s.popStep N j)

/-- A new buffer without handles. -/
def new : Shared α := ⟨.new, [], 0, [], [], [], []⟩

/-- The machine of all programs that use the handles. -/
def machine (N : ℕ) (α : Type u) : Machine (Shared α) (Act α) where
  init := (· = new)
  step := step N

/-- **What a step can be.** -/
inductive Step (N : ℕ) (s : Shared α) : Act α → Shared α → Prop
  | split : Step N s .split { s with handles := s.handles ++ [.producer], consumers := s.consumers + 1 }
  | splitArc :
      Step N s .splitArc { s with handles := s.handles ++ [.ownedProducer], consumers := s.consumers + 1 }
  | backpressure (policy : BackpressurePolicy) :
      Step N s (.backpressure policy) { s with handles := s.handles ++ [.backpressure policy 0] }
  | push {k : ℕ} {v : α} : k < s.handles.length →
      Step N s (.push k v) { s with pushes := s.pushes ++ [⟨k, v, .loadedHead s.ring.head⟩] }
  | full {i h : ℕ} {c : PushCall α} {k : ProducerHandle} : s.pushes[i]? = some c →
      c.pc = .loadedHead h → nextIndex N h = s.ring.tail → s.handles[c.handle]? = some k →
      Step N s (.pushStep i) { s with pushes := s.pushes.set i { c with pc := onFull k } }
  | room {i h : ℕ} {c : PushCall α} : s.pushes[i]? = some c → c.pc = .loadedHead h →
      nextIndex N h ≠ s.ring.tail →
      Step N s (.pushStep i) { s with pushes := s.pushes.set i { c with pc := .checked h } }
  | write {i h : ℕ} {c : PushCall α} : s.pushes[i]? = some c → c.pc = .checked h →
      Step N s (.pushStep i)
        { s with ring := s.ring.write h c.value i
                 pushes := s.pushes.set i { c with pc := .written h } }
  | publish {i h : ℕ} {c : PushCall α} : s.pushes[i]? = some c → c.pc = .written h →
      Step N s (.pushStep i)
        { s with ring := s.ring.storeHead (nextIndex N h)
                 pushes := s.pushes.set i { c with pc := .returned .stored }
                 stored := s.stored ++ [(i, c.value)] }
  | retry {i : ℕ} {c : PushCall α} : s.pushes[i]? = some c → c.pc = .retry →
      Step N s (.pushStep i) { s with pushes := s.pushes.set i { c with pc := .loadedHead s.ring.head } }
  | count {i : ℕ} {c : PushCall α} : s.pushes[i]? = some c → c.pc = .counting →
      Step N s (.pushStep i)
        { s with handles := s.handles.modify c.handle ProducerHandle.countDropped
                 pushes := s.pushes.set i { c with pc := .returned .dropped } }
  | pop {k : ℕ} : k < s.consumers → Step N s (.pop k) { s with pops := s.pops ++ [.loadedTail s.ring.tail] }
  | look {j t : ℕ} : s.pops[j]? = some (.loadedTail t) →
      Step N s (.popStep j)
        { s with pops := s.pops.set j (if t = s.ring.head then .returned else .checked t) }
  | read {j t : ℕ} {c : Cell α} : s.pops[j]? = some (.checked t) → s.ring.buffer t = some c →
      Step N s (.popStep j) { s with ring := s.ring.moveOut t, pops := s.pops.set j (.taken t c) }
  | release {j t : ℕ} {c : Cell α} : s.pops[j]? = some (.taken t c) →
      Step N s (.popStep j)
        { s with ring := s.ring.storeTail (nextIndex N t), pops := s.pops.set j .returned
                 popped := s.popped ++ [(c.push, c.val)] }

theorem pushStep_cases {s s' : Shared α} {i : ℕ} {c : PushCall α} (hc : s.pushes[i]? = some c)
    (hs : s.pushStep N i c = some s') : Step N s (.pushStep i) s' := by
  unfold pushStep at hs
  cases hpc : c.pc with
  | loadedHead h =>
    simp only [hpc] at hs
    split_ifs at hs with hfull
    · obtain ⟨k, hk, rfl⟩ := Option.map_eq_some_iff.mp hs
      exact .full hc hpc hfull hk
    · cases hs
      exact .room hc hpc hfull
  | checked h =>
    simp only [hpc, Option.some.injEq] at hs
    subst hs
    exact .write hc hpc
  | written h =>
    simp only [hpc, Option.some.injEq] at hs
    subst hs
    exact .publish hc hpc
  | retry =>
    simp only [hpc, Option.some.injEq] at hs
    subst hs
    exact .retry hc hpc
  | counting =>
    simp only [hpc, Option.some.injEq] at hs
    subst hs
    exact .count hc hpc
  | returned o => simp [hpc] at hs

theorem popStep_cases {s s' : Shared α} {j : ℕ} {d : PopCallPc α} (hj : s.pops[j]? = some d)
    (hs : s.popStep N j d = some s') : Step N s (.popStep j) s' := by
  cases d with
  | loadedTail t =>
    cases hs
    exact .look hj
  | checked t =>
    obtain ⟨c, hc, rfl⟩ := Option.map_eq_some_iff.mp hs
    exact .read hj hc
  | taken t c =>
    cases hs
    exact .release hj
  | returned => cases hs

theorem step_cases {s s' : Shared α} {a : Act α} (hs : s.step N a = some s') : Step N s a s' := by
  cases a with
  | split =>
    cases hs
    exact .split
  | splitArc =>
    cases hs
    exact .splitArc
  | backpressure policy =>
    cases hs
    exact .backpressure policy
  | push k v =>
    obtain ⟨hk, hs⟩ := Option.ite_none_right_eq_some.mp hs
    cases hs
    exact .push hk
  | pushStep i =>
    obtain ⟨c, hc, hs⟩ := Option.bind_eq_some_iff.mp hs
    exact pushStep_cases hc hs
  | pop k =>
    obtain ⟨hk, hs⟩ := Option.ite_none_right_eq_some.mp hs
    cases hs
    exact .pop hk
  | popStep j =>
    obtain ⟨d, hd, hs⟩ := Option.bind_eq_some_iff.mp hs
    exact popStep_cases hd hs

/-! ### What the handles are meant to guarantee -/

/-- **Nothing is lost and nothing is popped twice.** A value whose push returned `Ok`
has been popped or is in the buffer; the one exception is a value that a
`DropNewest` or `DropOldest` handle found no room for, which that handle counts. -/
structure Safe (N : ℕ) (s : Shared α) : Prop where
  /-- A stored value is popped or unread. -/
  kept : ∀ (i : ℕ) (c : PushCall α), s.pushes[i]? = some c → c.pc = .returned .stored →
    (i, c.value) ∈ s.popped ∨ ∃ d, some d ∈ s.ring.unread N ∧ d.push = i ∧ d.val = c.value
  /-- No value is popped twice. -/
  nodup : (s.popped.map Prod.fst).Nodup
  /-- A handle's `dropped_count` is the number of values dropped through it. -/
  counted : ∀ (k : ℕ) policy n, s.handles[k]? = some (.backpressure policy n) →
    n = s.pushes.countP fun c => c.handle = k ∧ c.pc = .returned .dropped

/-- **What the unsafe code needs of a step**: a push about to write finds the `head` it
loaded still current, room in the buffer, and no other push between its write and
its store; a pop about to read finds the `tail` it loaded still current, the buffer
not empty, and no other pop between its read and its store. -/
def exclusive (N : ℕ) (s : Shared α) : Act α → Bool
  | .pushStep i =>
    match (s.pushes[i]?).map PushCall.pc with
    | some (.checked h) => decide (h = s.ring.head ∧ nextIndex N h ≠ s.ring.tail) &&
        s.pushes.all fun d => !d.pc.isWritten
    | _ => true
  | .popStep j =>
    match s.pops[j]? with
    | some (.checked t) => decide (t = s.ring.tail ∧ t ≠ s.ring.head) &&
        s.pops.all fun d => !d.isTaken
    | _ => true
  | _ => true

/-- `exclusive`, as a condition on the steps of a run. -/
abbrev Exclusive (N : ℕ) (s : Shared α) (a : Act α) : Prop := exclusive N s a = true

/-! ### The invariant -/

/-- A value and the push call it came from. -/
def key (c : Cell α) : ℕ × α := (c.push, c.val)

/-- The calls agree with what is recorded of them. -/
structure Ledger (s : Shared α) : Prop where
  /-- The stored values are those of the calls that have returned `Ok`. -/
  stored_iff : ∀ i v, (i, v) ∈ s.stored ↔
    ∃ c, s.pushes[i]? = some c ∧ c.pc = .returned .stored ∧ c.value = v
  /-- No call stores twice. -/
  nodup : (s.stored.map Prod.fst).Nodup
  /-- Calls are made through handles that exist. -/
  handle_lt : ∀ (i : ℕ) (c : PushCall α), s.pushes[i]? = some c → c.handle < s.handles.length
  /-- Drops are counted. -/
  counted : ∀ (k : ℕ) policy n, s.handles[k]? = some (.backpressure policy n) →
    n = s.pushes.countP fun c => c.handle = k ∧ c.pc = .returned .dropped

/-- **The invariant** of the runs whose steps are exclusive: the memory holds the queue
`q` of the values stored and not yet popped. -/
structure Inv (N : ℕ) (s : Shared α) (q : List (Cell α)) : Prop where
  /-- The memory holds `q`. -/
  represents : Represents N s.ring q
  /-- Popped values are the first of the stored ones, and `q` is the rest. -/
  stored_eq : s.stored = s.popped ++ q.map key
  /-- The calls. -/
  ledger : s.Ledger
  /-- What a push has written is in the slot it is about to publish. -/
  written : ∀ (i : ℕ) (c : PushCall α) h, s.pushes[i]? = some c → c.pc = .written h →
    h = s.ring.head ∧ q.length < N - 1 ∧ s.ring.buffer h = some ⟨c.value, i, false⟩
  /-- One push at a time is between its write and its store. -/
  written_unique : AtMostOne (fun c => c.pc.isWritten) s.pushes
  /-- What a pop has read is the first of the queue. -/
  taken : ∀ (j t : ℕ) c, s.pops[j]? = some (.taken t c) →
    t = s.ring.tail ∧ (q.map key).head? = some (key c)
  /-- One pop at a time is between its read and its store. -/
  taken_unique : AtMostOne PopCallPc.isTaken s.pops

theorem inv_new (hN : AssertPowerOfTwo N) : Inv N (new : Shared α) [] where
  represents := .new hN.1
  stored_eq := rfl
  ledger := ⟨by simp [new], List.nodup_nil, by simp [new], by simp [new]⟩
  written := by simp [new]
  written_unique := atMostOne_nil
  taken := by simp [new]
  taken_unique := atMostOne_nil

theorem Inv.safe {s : Shared α} {q : List (Cell α)} (h : Inv N s q) : Safe N s where
  kept := by
    intro i c hc hpc
    have hmem := (h.ledger.stored_iff i c.value).mpr ⟨c, hc, hpc, rfl⟩
    rw [h.stored_eq, List.mem_append, List.mem_map] at hmem
    rcases hmem with hmem | ⟨d, hd, hk⟩
    · exact .inl hmem
    · refine .inr ⟨d, ?_, congrArg Prod.fst hk, congrArg Prod.snd hk⟩
      rw [h.represents.unread_eq]
      exact List.mem_map_of_mem hd
  nodup := by
    have hnd := h.ledger.nodup
    rw [h.stored_eq, List.map_append] at hnd
    exact (List.nodup_append.mp hnd).1
  counted := h.ledger.counted

section Ledger

variable {s : Shared α} {i : ℕ} {c : PushCall α} {pc : PushCallPc}

/-- Only the stored values, the push calls and the handles are looked at. -/
theorem Ledger.frame (h : s.Ledger) {s' : Shared α} (hstored : s'.stored = s.stored)
    (hpushes : s'.pushes = s.pushes) (hhandles : s'.handles = s.handles) : s'.Ledger := by
  constructor
  · rw [hstored, hpushes]
    exact h.stored_iff
  · rw [hstored]
    exact h.nodup
  · rw [hpushes, hhandles]
    exact h.handle_lt
  · rw [hpushes, hhandles]
    exact h.counted

/-- A call that has returned is not the one that moves. -/
theorem getElem?_set_of_returned {pushes : List (PushCall α)} {d : PushCall α} {j : ℕ} {o : PushOutcome}
    (hc : pushes[i]? = some c) (hok : ∀ o, c.pc ≠ .returned o) (hd : pushes[j]? = some d)
    (hpc : d.pc = .returned o) (c' : PushCall α) : (pushes.set i c')[j]? = some d := by
  have hij : i ≠ j := by
    rintro rfl
    rw [hc] at hd
    cases hd
    exact hok _ hpc
  rwa [List.getElem?_set_ne hij]

/-- A call that does not store changes nothing about the stored ones. -/
theorem Ledger.stored_iff_set (h : s.Ledger) (hc : s.pushes[i]? = some c)
    (hok : ∀ o, c.pc ≠ .returned o) (hs : pc ≠ .returned .stored) (j : ℕ) (v : α) :
    (j, v) ∈ s.stored ↔ ∃ d, (s.pushes.set i { c with pc := pc })[j]? = some d ∧
      d.pc = .returned .stored ∧ d.value = v := by
  rw [h.stored_iff j v]
  constructor
  · rintro ⟨d, hdj, hpc, hv⟩
    exact ⟨d, getElem?_set_of_returned hc hok hdj hpc _, hpc, hv⟩
  · rintro ⟨d, hdj, hpc, hv⟩
    rcases of_getElem?_set hdj with ⟨-, rfl⟩ | ⟨-, hdj⟩
    · exact absurd hpc hs
    · exact ⟨d, hdj, hpc, hv⟩

theorem Ledger.handle_lt_set (h : s.Ledger) (hc : s.pushes[i]? = some c) (j : ℕ) (d : PushCall α)
    (hd : (s.pushes.set i { c with pc := pc })[j]? = some d) : d.handle < s.handles.length := by
  rcases of_getElem?_set hd with ⟨-, rfl⟩ | ⟨-, hd⟩
  · exact h.handle_lt i c hc
  · exact h.handle_lt j d hd

/-- How many drops are to be counted on handle `k` after a call has moved. -/
theorem countP_dropped_set (hc : s.pushes[i]? = some c) (hok : ∀ o, c.pc ≠ .returned o) (k : ℕ) :
    ((s.pushes.set i { c with pc := pc }).countP fun c => c.handle = k ∧ c.pc = .returned .dropped) =
      (s.pushes.countP fun c => c.handle = k ∧ c.pc = .returned .dropped) +
        if c.handle = k ∧ pc = .returned .dropped then 1 else 0 := by
  have := countP_set_eq (a := { c with pc := pc })
    (fun c : PushCall α => decide (c.handle = k ∧ c.pc = .returned .dropped)) hc
  simpa only [hok, and_false, decide_false, Bool.false_eq_true, if_false, Nat.add_zero,
    decide_eq_true_eq] using this

/-- A push call that does not return `Ok` leaves the ledger as it is. -/
theorem Ledger.move (h : s.Ledger) (hc : s.pushes[i]? = some c) (hok : ∀ o, c.pc ≠ .returned o)
    (hs : pc ≠ .returned .stored) (hd : pc ≠ .returned .dropped) (r : RingBuffer α) :
    Ledger { s with ring := r, pushes := s.pushes.set i { c with pc := pc } } where
  stored_iff := h.stored_iff_set hc hok hs
  nodup := h.nodup
  handle_lt := h.handle_lt_set hc
  counted := by
    intro k policy n hk
    simp only [countP_dropped_set hc hok, hd, and_false, if_false, Nat.add_zero]
    exact h.counted k policy n hk

/-- A push call that stores `head` enters the ledger. -/
theorem Ledger.store (h : s.Ledger) (hc : s.pushes[i]? = some c) (hok : ∀ o, c.pc ≠ .returned o)
    (r : RingBuffer α) :
    Ledger { s with ring := r, pushes := s.pushes.set i { c with pc := .returned .stored },
                    stored := s.stored ++ [(i, c.value)] } where
  stored_iff := by
    intro j v
    rw [List.mem_append, h.stored_iff j v, List.mem_singleton]
    constructor
    · rintro (⟨d, hdj, hpc, hv⟩ | he)
      · exact ⟨d, getElem?_set_of_returned hc hok hdj hpc _, hpc, hv⟩
      · cases he
        exact ⟨_, getElem?_set_self hc, rfl, rfl⟩
    · rintro ⟨d, hdj, hpc, hv⟩
      rcases of_getElem?_set hdj with ⟨rfl, rfl⟩ | ⟨-, hdj⟩
      · exact .inr (by rw [← hv])
      · exact .inl ⟨d, hdj, hpc, hv⟩
  nodup := by
    rw [List.map_append, List.nodup_append]
    refine ⟨h.nodup, by simp, ?_⟩
    intro a ha b hb hab
    obtain ⟨⟨j, v⟩, hmem, rfl⟩ := List.mem_map.mp ha
    obtain ⟨d, hdj, hpc, -⟩ := (h.stored_iff j v).mp hmem
    simp only [List.map_cons, List.map_nil, List.mem_singleton] at hb
    simp only [hb] at hab
    subst hab
    rw [hc] at hdj
    cases hdj
    exact hok _ hpc
  handle_lt := h.handle_lt_set hc
  counted := by
    intro k policy n hk
    simp only [countP_dropped_set hc hok, PushCallPc.returned.injEq, reduceCtorEq, and_false,
      if_false, Nat.add_zero]
    exact h.counted k policy n hk

/-- A dropped value enters the count of its handle, and of no other. -/
theorem Ledger.drop (h : s.Ledger) (hc : s.pushes[i]? = some c) (hok : ∀ o, c.pc ≠ .returned o) :
    Ledger { s with handles := s.handles.modify c.handle ProducerHandle.countDropped,
                    pushes := s.pushes.set i { c with pc := .returned .dropped } } where
  stored_iff := h.stored_iff_set hc hok (by simp)
  nodup := h.nodup
  handle_lt := by
    intro j d hd
    rw [List.length_modify]
    exact h.handle_lt_set hc j d hd
  counted := by
    intro k policy n hk
    simp only [countP_dropped_set hc hok, and_true]
    rw [List.getElem?_modify] at hk
    obtain ⟨k', hk', he⟩ := Option.map_eq_some_iff.mp hk
    by_cases hck : c.handle = k
    · rw [if_pos hck] at he
      cases k' with
      | backpressure p m =>
        cases he
        rw [if_pos hck, h.counted k policy m hk']
      | producer => cases he
      | ownedProducer => cases he
    · rw [if_neg hck] at he
      cases he
      rw [if_neg hck, Nat.add_zero]
      exact h.counted k policy n hk'

end Ledger

section Steps

variable {s s' : Shared α} {q : List (Cell α)} {i j : ℕ} {c : PushCall α} {pc : PushCallPc}

theorem Inv.written_set (h : Inv N s q) (hw : pc.isWritten = false) (j : ℕ) (d : PushCall α) (hd : ℕ)
    (hj : (s.pushes.set i { c with pc := pc })[j]? = some d) (hpc : d.pc = .written hd) :
    hd = s.ring.head ∧ q.length < N - 1 ∧ s.ring.buffer hd = some ⟨d.value, j, false⟩ := by
  rcases of_getElem?_set hj with ⟨-, rfl⟩ | ⟨-, hj⟩
  · simp only at hpc
    subst hpc
    cases hw
  · exact h.written j d hd hj hpc

/-- A push call that does not touch the memory keeps the invariant. -/
theorem Inv.movePush (h : Inv N s q) (hc : s.pushes[i]? = some c) (hok : ∀ o, c.pc ≠ .returned o)
    (hw : pc.isWritten = false) (hs : pc ≠ .returned .stored) (hd : pc ≠ .returned .dropped) :
    Inv N { s with pushes := s.pushes.set i { c with pc := pc } } q where
  represents := h.represents
  stored_eq := h.stored_eq
  ledger := h.ledger.move hc hok hs hd s.ring
  written := h.written_set hw
  written_unique := h.written_unique.set hc (by simp [hw])
  taken := h.taken
  taken_unique := h.taken_unique

/-- A push call that writes the free slot, alone, keeps the invariant. -/
theorem Inv.write (h : Inv N s q) (hc : s.pushes[i]? = some c) (hok : ∀ o, c.pc ≠ .returned o)
    (hlt : q.length < N - 1) (halone : ∀ d ∈ s.pushes, d.pc.isWritten = false) :
    Inv N { s with ring := s.ring.write s.ring.head c.value i
                   pushes := s.pushes.set i { c with pc := .written s.ring.head } } q where
  represents := h.represents.write _ _
  stored_eq := h.stored_eq
  ledger := h.ledger.move hc hok (by simp) (by simp) _
  written := by
    intro j d hd hj hpc
    rcases of_getElem?_set hj with ⟨rfl, rfl⟩ | ⟨-, hj⟩
    · cases hpc
      exact ⟨rfl, hlt, by simp [RingBuffer.write]⟩
    · have := halone d (List.mem_of_getElem? hj)
      rw [hpc] at this
      cases this
  written_unique := atMostOne_set halone
  taken := h.taken
  taken_unique := h.taken_unique

/-- A push call that publishes what it has written keeps the invariant. -/
theorem Inv.publish (hN : AssertPowerOfTwo N) (h : Inv N s q) (hc : s.pushes[i]? = some c) {hd : ℕ}
    (hpc : c.pc = .written hd) :
    Inv N { s with ring := s.ring.storeHead (nextIndex N hd)
                   pushes := s.pushes.set i { c with pc := .returned .stored }
                   stored := s.stored ++ [(i, c.value)] } (q ++ [⟨c.value, i, false⟩]) where
  represents := by
    obtain ⟨rfl, hlt, hbuf⟩ := h.written i c hd hc hpc
    exact h.represents.storeHead hN hlt hbuf
  stored_eq := by
    rw [h.stored_eq, List.map_append, List.append_assoc]
    rfl
  ledger := h.ledger.store hc (by simp [hpc]) _
  written := by
    -- no other push is between its write and its store
    intro j d hd' hj hpcd
    rcases of_getElem?_set hj with ⟨-, rfl⟩ | ⟨hji, hj⟩
    · cases hpcd
    · have hdw := h.written_unique.eq_false hc (by simp [hpc, PushCallPc.isWritten]) hj hji
      simp [hpcd, PushCallPc.isWritten] at hdw
  written_unique := h.written_unique.set hc (by simp [PushCallPc.isWritten])
  taken := by
    intro j t d hj
    obtain ⟨ht, hhead⟩ := h.taken j t d hj
    refine ⟨ht, ?_⟩
    obtain ⟨ks, hks⟩ := List.head?_eq_some_iff.mp hhead
    rw [List.map_append, hks]
    rfl
  taken_unique := h.taken_unique

/-- A push call that counts the value it drops keeps the invariant. -/
theorem Inv.count (h : Inv N s q) (hc : s.pushes[i]? = some c) (hpc : c.pc = .counting) :
    Inv N { s with handles := s.handles.modify c.handle ProducerHandle.countDropped
                   pushes := s.pushes.set i { c with pc := .returned .dropped } } q where
  represents := h.represents
  stored_eq := h.stored_eq
  ledger := h.ledger.drop hc (by simp [hpc])
  written := h.written_set rfl
  written_unique := h.written_unique.set hc (by simp [PushCallPc.isWritten])
  taken := h.taken
  taken_unique := h.taken_unique

theorem Inv.taken_set (h : Inv N s q) {d : PopCallPc α} (hd : d.isTaken = false) (k t : ℕ) (e : Cell α)
    (hk : (s.pops.set j d)[k]? = some (.taken t e)) :
    t = s.ring.tail ∧ (q.map key).head? = some (key e) := by
  rcases of_getElem?_set hk with ⟨-, rfl⟩ | ⟨-, hk⟩
  · cases hd
  · exact h.taken k t e hk

/-- A pop call that reads the first value, alone, keeps the invariant. -/
theorem Inv.read (hN : AssertPowerOfTwo N) (h : Inv N s q) (hne : s.ring.tail ≠ s.ring.head)
    (halone : ∀ d ∈ s.pops, d.isTaken = false) {d : Cell α}
    (hd : s.ring.buffer s.ring.tail = some d) :
    ∃ q', Inv N { s with ring := s.ring.moveOut s.ring.tail
                         pops := s.pops.set j (.taken s.ring.tail d) } q' := by
  obtain ⟨c, q, rfl⟩ := List.exists_cons_of_ne_nil (mt h.represents.empty_iff.mpr hne)
  have hcd : c = d := Option.some.inj ((h.represents.buffer_tail hN).symm.trans hd)
  subst hcd
  refine ⟨c.moveOut :: q, h.represents.moveOut hN, h.stored_eq, ?_, ?_, h.written_unique, ?_, ?_⟩
  · exact h.ledger.frame rfl rfl rfl
  · intro i e hh hi hpc
    obtain ⟨rfl, hlt, hbuf⟩ := h.written i e hh hi hpc
    exact ⟨rfl, hlt, by simpa [RingBuffer.moveOut, Function.update_of_ne hne.symm] using hbuf⟩
  · intro k t e hk
    rcases of_getElem?_set hk with ⟨-, he⟩ | ⟨-, hk⟩
    · cases he
      exact ⟨rfl, rfl⟩
    · cases halone _ (List.mem_of_getElem? hk)
  · exact atMostOne_set halone

/-- A pop call that releases the slot it has read keeps the invariant. -/
theorem Inv.release (hN : AssertPowerOfTwo N) (h : Inv N s q) {t : ℕ} {d : Cell α}
    (hj : s.pops[j]? = some (.taken t d)) :
    ∃ q', Inv N { s with ring := s.ring.storeTail (nextIndex N t), pops := s.pops.set j .returned
                         popped := s.popped ++ [key d] } q' := by
  obtain ⟨rfl, hhead⟩ := h.taken j t d hj
  cases q with
  | nil => cases hhead
  | cons c q =>
    simp only [List.map_cons, List.head?_cons, Option.some.injEq] at hhead
    refine ⟨q, h.represents.storeTail hN, ?_, ?_, ?_, h.written_unique, ?_,
      h.taken_unique.set hj (by simp [PopCallPc.isTaken])⟩
    · rw [h.stored_eq, ← hhead, List.append_assoc]
      rfl
    · exact h.ledger.frame rfl rfl rfl
    · intro i e hh hi hpc
      obtain ⟨rfl, hlt, hbuf⟩ := h.written i e hh hi hpc
      exact ⟨rfl, by rw [List.length_cons] at hlt; omega, hbuf⟩
    · -- no other pop is between its read and its store
      intro k t' e hk
      rcases of_getElem?_set hk with ⟨-, he⟩ | ⟨hkj, hk⟩
      · cases he
      · have he := h.taken_unique.eq_false hj rfl hk hkj
        cases he

/-- A pop call that looks whether there is a value keeps the invariant. -/
theorem Inv.look (h : Inv N s q) {t : ℕ} {d : PopCallPc α} (hj : s.pops[j]? = some (.loadedTail t))
    (hd : d.isTaken = false) : Inv N { s with pops := s.pops.set j d } q where
  represents := h.represents
  stored_eq := h.stored_eq
  ledger := h.ledger.frame rfl rfl rfl
  written := h.written
  written_unique := h.written_unique
  taken := h.taken_set hd
  taken_unique := h.taken_unique.set hj (by simp [hd])

/-- A new handle, which has dropped nothing, keeps the invariant. -/
theorem Inv.newHandle (h : Inv N s q) {k : ProducerHandle}
    (hk : ∀ policy n, k = .backpressure policy n → n = 0) (n : ℕ) :
    Inv N { s with handles := s.handles ++ [k], consumers := n } q where
  represents := h.represents
  stored_eq := h.stored_eq
  ledger :=
    { stored_iff := h.ledger.stored_iff
      nodup := h.ledger.nodup
      handle_lt := fun i c hi => by
        have := h.ledger.handle_lt i c hi
        simp only [List.length_append, List.length_singleton]
        omega
      counted := by
        intro k' policy m hk'
        rcases of_getElem?_concat hk' with ⟨rfl, he⟩ | hk'
        · -- no call has been made through it yet
          have hnone : ∀ c ∈ s.pushes, ¬ (c.handle = s.handles.length ∧ c.pc = .returned .dropped) := by
            rintro c hc ⟨hlen, -⟩
            obtain ⟨i, hi⟩ := List.getElem?_of_mem hc
            have := h.ledger.handle_lt i c hi
            omega
          rw [hk policy m he.symm, eq_comm, List.countP_eq_zero]
          simpa using hnone
        · exact h.ledger.counted k' policy m hk' }
  written := h.written
  written_unique := h.written_unique
  taken := h.taken
  taken_unique := h.taken_unique

/-- A push call that begins keeps the invariant. -/
theorem Inv.beginPush (h : Inv N s q) {k : ℕ} (hk : k < s.handles.length) (v : α) :
    Inv N { s with pushes := s.pushes ++ [⟨k, v, .loadedHead s.ring.head⟩] } q where
  represents := h.represents
  stored_eq := h.stored_eq
  ledger :=
    { stored_iff := by
        intro j w
        rw [h.ledger.stored_iff j w]
        constructor
        · rintro ⟨d, hd, hpc, hv⟩
          exact ⟨d, getElem?_concat_of_some hd, hpc, hv⟩
        · rintro ⟨d, hd, hpc, hv⟩
          rcases of_getElem?_concat hd with ⟨-, rfl⟩ | hd
          · cases hpc
          · exact ⟨d, hd, hpc, hv⟩
      nodup := h.ledger.nodup
      handle_lt := by
        intro j d hd
        rcases of_getElem?_concat hd with ⟨-, rfl⟩ | hd
        · exact hk
        · exact h.ledger.handle_lt j d hd
      counted := by
        intro k policy n hk
        rw [List.countP_append]
        simpa using h.ledger.counted k policy n hk }
  written := by
    intro j d hd hj hpc
    rcases of_getElem?_concat hj with ⟨-, rfl⟩ | hj
    · cases hpc
    · exact h.written j d hd hj hpc
  written_unique := h.written_unique.concat rfl
  taken := h.taken
  taken_unique := h.taken_unique

/-- A pop call that begins keeps the invariant. -/
theorem Inv.beginPop (h : Inv N s q) (t : ℕ) :
    Inv N { s with pops := s.pops ++ [.loadedTail t] } q where
  represents := h.represents
  stored_eq := h.stored_eq
  ledger := h.ledger.frame rfl rfl rfl
  written := h.written
  written_unique := h.written_unique
  taken := by
    intro j t' c hj
    rcases of_getElem?_concat hj with ⟨-, he⟩ | hj
    · cases he
    · exact h.taken j t' c hj
  taken_unique := h.taken_unique.concat rfl

/-- An exclusive step keeps the invariant. -/
theorem Inv.step (hN : AssertPowerOfTwo N) (h : Inv N s q) {a : Act α} (hx : Exclusive N s a)
    (hs : s.step N a = some s') : ∃ q', Inv N s' q' := by
  cases step_cases hs with
  | split | splitArc | backpressure policy => exact ⟨q, h.newHandle (by simp) _⟩
  | push hk => exact ⟨q, h.beginPush hk _⟩
  | @full i hd c k hc hpc hfull hk =>
    refine ⟨q, h.movePush hc (by simp [hpc]) ?_ ?_ ?_⟩ <;>
      rcases k with _ | _ | ⟨_ | _ | _, _⟩ <;> simp [onFull, PushCallPc.isWritten]
  | room hc hpc hroom => exact ⟨q, h.movePush hc (by simp [hpc]) rfl (by simp) (by simp)⟩
  | @write i hd c hc hpc =>
    simp only [Exclusive, exclusive, hc, Option.map_some, hpc, Bool.and_eq_true, decide_eq_true_eq,
      List.all_eq_true, Bool.not_eq_true'] at hx
    obtain ⟨⟨rfl, hnfull⟩, halone⟩ := hx
    have hlt := h.represents.length_lt
    rw [Ne, h.represents.full_iff hN] at hnfull
    exact ⟨q, h.write hc (by simp [hpc]) (by omega) halone⟩
  | publish hc hpc => exact ⟨_, h.publish hN hc hpc⟩
  | retry hc hpc => exact ⟨q, h.movePush hc (by simp [hpc]) rfl (by simp) (by simp)⟩
  | count hc hpc => exact ⟨q, h.count hc hpc⟩
  | pop hk => exact ⟨q, h.beginPop _⟩
  | look hj =>
    refine ⟨q, h.look hj ?_⟩
    split_ifs <;> rfl
  | @read j t c hj hbuf =>
    simp only [Exclusive, exclusive, hj, Bool.and_eq_true, decide_eq_true_eq, List.all_eq_true,
      Bool.not_eq_true'] at hx
    obtain ⟨⟨rfl, hne⟩, halone⟩ := hx
    exact h.read hN hne halone hbuf
  | release hj => exact h.release hN hj

end Steps

/-! ### Results -/

/-- **When the handles are safe**: in every run whose writes and reads of slots are
exclusive, in every state reached, nothing stored is lost or popped twice. -/
theorem safe_of_exclusive (hN : AssertPowerOfTwo N) {s : Shared α}
    (h : Machine.ReachBy (machine N α) (Exclusive N) s) : Safe N s := by
  obtain ⟨_, hi⟩ := h.invariant (I := fun s => ∃ q, Inv N s q)
    (fun _ hs => ⟨[], hs ▸ inv_new hN⟩) fun _ _ _ ⟨_, hi⟩ hx hs => hi.step hN hx hs
  exact hi.safe

/-- Two producers that take turns, the second with a dropping policy, and a consumer. -/
theorem safe_of_exclusive_turns : ∃ s : Shared ℕ, s.popped = [(0, 5)] ∧
    s.pushes.map PushCall.pc = [.returned .stored, .returned .stored, .returned .dropped] ∧ Safe 2 s := by
  obtain ⟨s, hs, hp⟩ := Machine.exists_reachBy_of_runBy (M := machine 2 ℕ) (C := Exclusive 2)
    (s := new) rfl
    [.split, .backpressure .dropNewest, .push 0 5, .pushStep 0, .pushStep 0, .pushStep 0, .pop 0,
      .popStep 0, .popStep 0, .popStep 0, .push 1 6, .pushStep 1, .pushStep 1, .pushStep 1,
      .push 1 7, .pushStep 2, .pushStep 2]
    (fun s => decide (s.popped = [(0, 5)] ∧
      s.pushes.map PushCall.pc = [.returned .stored, .returned .stored, .returned .dropped]))
    (by decide)
  obtain ⟨h5, hpc⟩ := of_decide_eq_true hp
  exact ⟨s, h5, hpc, safe_of_exclusive (by decide) hs⟩

/-- Two calls of `split`, and a push through each of the two producers: both load
`head`, both find room, both write slot `0`, and both store `head = 1`. Both have
returned `Ok`, and the first value is gone. -/
theorem not_forall_safe : ¬ ∀ (N : ℕ) (s : Shared ℕ), AssertPowerOfTwo N →
    (machine N ℕ).Reach s → Safe N s := by
  intro h
  obtain ⟨s, hs, hp⟩ := Machine.exists_reach_of_run (M := machine 4 ℕ) (s := new) rfl
    [.split, .split, .push 0 5, .push 1 6, .pushStep 0, .pushStep 1, .pushStep 0, .pushStep 1,
      .pushStep 0, .pushStep 1]
    (fun s => decide ((s.pushes[0]?).map PushCall.pc = some (.returned .stored) ∧
      (s.pushes[0]?).map PushCall.value = some 5 ∧ s.popped = [] ∧
      s.ring.unread 4 = [some ⟨6, 1, false⟩])) (by decide)
  obtain ⟨hpc, hv, hpop, hun⟩ := of_decide_eq_true hp
  obtain ⟨c, hc, hpc⟩ := Option.map_eq_some_iff.mp hpc
  rcases (h 4 s (by decide) hs).kept 0 c hc hpc with hk | ⟨d, hd, hk, -⟩
  · simp [hpop] at hk
  · simp only [hun, List.mem_singleton, Option.some.injEq] at hd
    subst hd
    cases hk

end Shared

end SensorBridge.Buffer
