import SensorBridge.Foundation.Machine
import SensorBridge.Buffer.Ring

/-!
# One producer and one consumer

The machine of a `RingBuffer` used as it is meant to be: one thread calls
`push_internal`, one thread calls `pop_internal`, and their atomic steps interleave
in any order. A step is one load or store, taken as sequentially consistent:

    push:  load head.  load tail.  write slot[head].  store head.
    pop:   load tail.  load head.  read slot[tail].   store tail.

What a thread has loaded is in its program counter, and may be stale by the time
it is used. The comparison that follows the second load is local to the thread
and belongs to that step, so `Err` and `None` are returned by it.

A push is accepted when it stores `head`, and a value is popped when its pop
stores `tail`. The invariant `Inv` ties the memory to the queue `vs` of values
accepted and not yet popped: the memory holds `vs`, numbered by the writes that
put them there, and whatever a thread has loaded still tells it the truth it
needs — the index it owns is current, and the room or the value it has seen is
still there, since the other thread can only make more of it.
-/

namespace SensorBridge.Buffer

open Foundation RingBuffer

universe u

/-- Where the producer is in `push_internal(value)`. -/
inductive PushPc (α : Type u) where
  /-- Between calls. -/
  | idle
  /-- `head` has been loaded. -/
  | loadedHead (value : α) (head : ℕ)
  /-- `tail` has been loaded, and the buffer is not full. -/
  | checked (value : α) (head : ℕ)
  /-- `slot[head]` has been written. -/
  | written (value : α) (head : ℕ)

/-- Where the consumer is in `pop_internal()`. -/
inductive PopPc (α : Type u) where
  /-- Between calls. -/
  | idle
  /-- `tail` has been loaded. -/
  | loadedTail (tail : ℕ)
  /-- `head` has been loaded, and the buffer is not empty. -/
  | checked (tail : ℕ)
  /-- `slot[tail]` has been read. -/
  | taken (tail : ℕ) (value : α)
  deriving DecidableEq

/-- A buffer with its producer and its consumer. -/
structure Spsc (α : Type u) where
  /-- The shared memory. -/
  ring : RingBuffer α
  /-- The producer. -/
  push : PushPc α
  /-- The consumer. -/
  pop : PopPc α
  /-- How many slot writes there have been. -/
  writes : ℕ
  /-- The values whose push has stored `head`, in order. -/
  accepted : List α
  /-- What the finished pushes returned. -/
  pushResults : List (Except α Unit)
  /-- What the finished pops returned. -/
  popResults : List (Option α)

namespace Spsc

variable {α : Type u} {N : ℕ}

/-- The values popped so far, in order. -/
def popped (s : Spsc α) : List α := s.popResults.filterMap id

/-- The values accepted and not yet popped. -/
def waiting (s : Spsc α) : List α := s.accepted.drop s.popped.length

/-- What the two threads may do next. -/
inductive Act (α : Type u) where
  /-- The producer calls `push_internal(value)` and loads `head`. -/
  | push (value : α)
  /-- The producer's next step. -/
  | producer
  /-- The consumer calls `pop_internal()` and loads `tail`. -/
  | pop
  /-- The consumer's next step. -/
  | consumer

/-- The producer's next step in `push_internal`. -/
def producerStep (N : ℕ) (s : Spsc α) : Option (Spsc α) :=
  match s.push with
  | .idle => none
  | .loadedHead v h =>
    if nextIndex N h = s.ring.tail then
      some { s with push := .idle, pushResults := s.pushResults ++ [.error v] }
    else some { s with push := .checked v h }
  | .checked v h =>
    some { s with ring := s.ring.write h v s.writes, writes := s.writes + 1, push := .written v h }
  | .written v h =>
    some { s with ring := s.ring.storeHead (nextIndex N h), push := .idle,
                  accepted := s.accepted ++ [v], pushResults := s.pushResults ++ [.ok ()] }

/-- The consumer's next step in `pop_internal`. Reading a slot that was never written
is undefined behaviour: the machine has no such step. -/
def consumerStep (N : ℕ) (s : Spsc α) : Option (Spsc α) :=
  match s.pop with
  | .idle => none
  | .loadedTail t =>
    if t = s.ring.head then some { s with pop := .idle, popResults := s.popResults ++ [none] }
    else some { s with pop := .checked t }
  | .checked t =>
    (s.ring.buffer t).map fun c => { s with ring := s.ring.moveOut t, pop := .taken t c.val }
  | .taken t v =>
    some { s with ring := s.ring.storeTail (nextIndex N t), pop := .idle,
                  popResults := s.popResults ++ [some v] }

/-- One atomic step. -/
def step (N : ℕ) (s : Spsc α) : Act α → Option (Spsc α)
  | .push v =>
    match s.push with
    | .idle => some { s with push := .loadedHead v s.ring.head }
    | _ => none
  | .producer => s.producerStep N
  | .pop =>
    match s.pop with
    | .idle => some { s with pop := .loadedTail s.ring.tail }
    | _ => none
  | .consumer => s.consumerStep N

/-- A new buffer, both threads between calls. -/
def new : Spsc α := ⟨.new, .idle, .idle, 0, [], [], []⟩

/-- The machine: every run is an interleaving of some pushes and some pops. -/
def machine (N : ℕ) (α : Type u) : Machine (Spsc α) (Act α) where
  init := (· = new)
  step := step N

/-- **What a step can be.** -/
inductive Step (N : ℕ) (s : Spsc α) : Act α → Spsc α → Prop
  | push (v : α) : s.push = .idle → Step N s (.push v) { s with push := .loadedHead v s.ring.head }
  | full {v : α} {h : ℕ} : s.push = .loadedHead v h → nextIndex N h = s.ring.tail →
      Step N s .producer { s with push := .idle, pushResults := s.pushResults ++ [.error v] }
  | room {v : α} {h : ℕ} : s.push = .loadedHead v h → nextIndex N h ≠ s.ring.tail →
      Step N s .producer { s with push := .checked v h }
  | write {v : α} {h : ℕ} : s.push = .checked v h →
      Step N s .producer
        { s with ring := s.ring.write h v s.writes, writes := s.writes + 1, push := .written v h }
  | publish {v : α} {h : ℕ} : s.push = .written v h →
      Step N s .producer
        { s with ring := s.ring.storeHead (nextIndex N h), push := .idle,
                 accepted := s.accepted ++ [v], pushResults := s.pushResults ++ [.ok ()] }
  | pop : s.pop = .idle → Step N s .pop { s with pop := .loadedTail s.ring.tail }
  | empty {t : ℕ} : s.pop = .loadedTail t → t = s.ring.head →
      Step N s .consumer { s with pop := .idle, popResults := s.popResults ++ [none] }
  | item {t : ℕ} : s.pop = .loadedTail t → t ≠ s.ring.head →
      Step N s .consumer { s with pop := .checked t }
  | read {t : ℕ} {c : Cell α} : s.pop = .checked t → s.ring.buffer t = some c →
      Step N s .consumer { s with ring := s.ring.moveOut t, pop := .taken t c.val }
  | release {t : ℕ} {v : α} : s.pop = .taken t v →
      Step N s .consumer
        { s with ring := s.ring.storeTail (nextIndex N t), pop := .idle,
                 popResults := s.popResults ++ [some v] }

theorem step_cases {s s' : Spsc α} {a : Act α} (hs : s.step N a = some s') : Step N s a s' := by
  cases a with
  | push v =>
    cases hp : s.push <;> simp only [Spsc.step, hp, Option.some.injEq, reduceCtorEq] at hs
    subst hs
    exact .push v hp
  | producer =>
    simp only [Spsc.step, producerStep] at hs
    cases hp : s.push with
    | idle => simp [hp] at hs
    | loadedHead v h =>
      simp only [hp] at hs
      split_ifs at hs with hfull
      · cases hs
        exact .full hp hfull
      · cases hs
        exact .room hp hfull
    | checked v h =>
      simp only [hp, Option.some.injEq] at hs
      subst hs
      exact .write hp
    | written v h =>
      simp only [hp, Option.some.injEq] at hs
      subst hs
      exact .publish hp
  | pop =>
    cases hp : s.pop <;> simp only [Spsc.step, hp, Option.some.injEq, reduceCtorEq] at hs
    subst hs
    exact .pop hp
  | consumer =>
    simp only [Spsc.step, consumerStep] at hs
    cases hp : s.pop with
    | idle => simp [hp] at hs
    | loadedTail t =>
      simp only [hp] at hs
      split_ifs at hs with hempty
      · cases hs
        exact .empty hp hempty
      · cases hs
        exact .item hp hempty
    | checked t =>
      simp only [hp, Option.map_eq_some_iff] at hs
      obtain ⟨c, hc, rfl⟩ := hs
      exact .read hp hc
    | taken t v =>
      simp only [hp, Option.some.injEq] at hs
      subst hs
      exact .release hp

/-! ### The invariant -/

/-- The cells that hold the values `vs`, written one after the other from write `n` on. -/
def cells (n : ℕ) : List α → List (Cell α)
  | [] => []
  | v :: vs => ⟨v, n, false⟩ :: cells (n + 1) vs

@[simp] theorem length_cells (n : ℕ) (vs : List α) : (cells n vs).length = vs.length := by
  induction vs generalizing n with
  | nil => rfl
  | cons v vs ih => simp [cells, ih]

@[simp] theorem cells_eq_nil (n : ℕ) (vs : List α) : cells n vs = [] ↔ vs = [] := by
  cases vs <;> simp [cells]

theorem cells_concat (n : ℕ) (vs : List α) (v : α) :
    cells n (vs ++ [v]) = cells n vs ++ [⟨v, n + vs.length, false⟩] := by
  induction vs generalizing n with
  | nil => rfl
  | cons w vs ih => simp only [List.cons_append, cells, ih, List.length_cons]; congr 4; omega

/-- The queue in memory: between its read and its store, a pop has already moved the
first value out. -/
def queue (s : Spsc α) (vs : List α) : List (Cell α) :=
  match s.pop with
  | .taken _ _ => (cells s.popped.length vs).modifyHead Cell.moveOut
  | _ => cells s.popped.length vs

/-- What the producer has loaded is true enough for its next step. -/
def ProducerOk (N : ℕ) (s : Spsc α) (vs : List α) : Prop :=
  match s.push with
  | .idle => s.writes = s.accepted.length
  | .loadedHead _ h => h = s.ring.head ∧ s.writes = s.accepted.length
  | .checked _ h => h = s.ring.head ∧ s.writes = s.accepted.length ∧ vs.length < N - 1
  | .written v h => h = s.ring.head ∧ s.writes = s.accepted.length + 1 ∧ vs.length < N - 1 ∧
      s.ring.buffer h = some ⟨v, s.accepted.length, false⟩

/-- What the consumer has loaded is true enough for its next step. -/
def ConsumerOk (s : Spsc α) (vs : List α) : Prop :=
  match s.pop with
  | .idle => True
  | .loadedTail t => t = s.ring.tail
  | .checked t => t = s.ring.tail ∧ vs ≠ []
  | .taken t v => t = s.ring.tail ∧ vs.head? = some v

/-- **The invariant**: the memory holds the values `vs`, which are those accepted and
not yet popped. -/
structure Inv (N : ℕ) (s : Spsc α) (vs : List α) : Prop where
  /-- Popped values are the first of the accepted ones. -/
  accepted_eq : s.accepted = s.popped ++ vs
  /-- The memory holds the rest. -/
  represents : Represents N s.ring (s.queue vs)
  /-- The producer. -/
  producer : ProducerOk N s vs
  /-- The consumer. -/
  consumer : ConsumerOk s vs

theorem Inv.waiting_eq {s : Spsc α} {vs : List α} (h : Inv N s vs) : s.waiting = vs := by
  simp [waiting, h.accepted_eq]

@[simp] theorem length_queue (s : Spsc α) (vs : List α) : (s.queue vs).length = vs.length := by
  unfold queue
  split <;> simp

/-- The queue takes an accepted value at its end. -/
theorem queue_concat {s : Spsc α} {vs : List α} (hc : ConsumerOk s vs) (v : α) :
    s.queue (vs ++ [v]) = s.queue vs ++ [⟨v, s.popped.length + vs.length, false⟩] := by
  unfold queue
  cases hp : s.pop with
  | taken t w =>
    -- the value moved out is still the first: there is one, so the new one is not it
    simp only [ConsumerOk, hp] at hc
    obtain ⟨ws, rfl⟩ := List.head?_eq_some_iff.mp hc.2
    simp only [cells_concat]
    rfl
  | _ => exact cells_concat _ _ _

theorem consumerOk_concat {s : Spsc α} {vs : List α} (hc : ConsumerOk s vs) (v : α) :
    ConsumerOk s (vs ++ [v]) := by
  unfold ConsumerOk at *
  cases hp : s.pop with
  | idle => trivial
  | loadedTail t => simpa [hp] using hc
  | checked t => simp only [hp] at hc; exact ⟨hc.1, by simp⟩
  | taken t w =>
    simp only [hp] at hc
    obtain ⟨ws, rfl⟩ := List.head?_eq_some_iff.mp hc.2
    exact ⟨hc.1, rfl⟩

theorem inv_new (hN : AssertPowerOfTwo N) : Inv N (new : Spsc α) [] :=
  ⟨rfl, .new hN.1, rfl, trivial⟩

/-- A push that finds room will still find it when it writes. -/
theorem Inv.room (hN : AssertPowerOfTwo N) {s : Spsc α} {vs : List α} (h : Inv N s vs) {v : α} {hd : ℕ}
    (hp : s.push = .loadedHead v hd) (hroom : nextIndex N hd ≠ s.ring.tail) :
    Inv N { s with push := .checked v hd } vs := by
  obtain ⟨hacc, hrep, hprod, hcons⟩ := h
  simp only [ProducerOk, hp] at hprod
  obtain ⟨rfl, hw⟩ := hprod
  rw [Ne, hrep.full_iff hN, length_queue] at hroom
  have hlt := hrep.length_lt
  rw [length_queue] at hlt
  exact ⟨hacc, hrep, ⟨rfl, hw, by omega⟩, hcons⟩

/-- The slot at `head` is free, and can be written. -/
theorem Inv.write {s : Spsc α} {vs : List α} (h : Inv N s vs) {v : α} {hd : ℕ}
    (hp : s.push = .checked v hd) :
    Inv N { s with ring := s.ring.write hd v s.writes, writes := s.writes + 1, push := .written v hd }
      vs := by
  obtain ⟨hacc, hrep, hprod, hcons⟩ := h
  simp only [ProducerOk, hp] at hprod
  obtain ⟨rfl, hw, hlt⟩ := hprod
  refine ⟨hacc, hrep.write _ _, ⟨rfl, by rw [hw], hlt, ?_⟩, hcons⟩
  simp [RingBuffer.write, hw]

/-- The value written is the last one waiting once `head` is stored. -/
theorem Inv.publish (hN : AssertPowerOfTwo N) {s : Spsc α} {vs : List α} (h : Inv N s vs) {v : α} {hd : ℕ}
    (hp : s.push = .written v hd) :
    Inv N { s with ring := s.ring.storeHead (nextIndex N hd), push := .idle,
                   accepted := s.accepted ++ [v], pushResults := s.pushResults ++ [.ok ()] }
      (vs ++ [v]) := by
  obtain ⟨hacc, hrep, hprod, hcons⟩ := h
  simp only [ProducerOk, hp] at hprod
  obtain ⟨rfl, hw, hlt, hbuf⟩ := hprod
  have hlen : s.accepted.length = s.popped.length + vs.length := by rw [hacc, List.length_append]
  refine ⟨?_, ?_, ?_, consumerOk_concat hcons v⟩
  · show s.accepted ++ [v] = s.popped ++ (vs ++ [v])
    rw [hacc, List.append_assoc]
  · have hstore := hrep.storeHead hN (by rwa [length_queue]) hbuf
    rwa [hlen, ← queue_concat hcons] at hstore
  · simp [ProducerOk, hw]

/-- A pop that finds the buffer empty returns, and leaves it as it is. -/
theorem Inv.empty {s : Spsc α} {vs : List α} (h : Inv N s vs) {t : ℕ} (hp : s.pop = .loadedTail t) :
    Inv N { s with pop := .idle, popResults := s.popResults ++ [none] } vs := by
  obtain ⟨hacc, hrep, hprod, -⟩ := h
  simp only [queue, hp] at hrep
  refine ⟨?_, ?_, hprod, trivial⟩
  · simpa [popped] using hacc
  · simpa [queue, popped] using hrep

/-- A pop that finds a value will still find it when it reads. -/
theorem Inv.item {s : Spsc α} {vs : List α} (h : Inv N s vs) {t : ℕ} (hp : s.pop = .loadedTail t)
    (hitem : t ≠ s.ring.head) : Inv N { s with pop := .checked t } vs := by
  obtain ⟨hacc, hrep, hprod, hcons⟩ := h
  simp only [ConsumerOk, hp] at hcons
  subst hcons
  simp only [queue, hp] at hrep
  rw [Ne, hrep.empty_iff, cells_eq_nil] at hitem
  exact ⟨hacc, hrep, hprod, rfl, hitem⟩

/-- What is read is the first value waiting. -/
theorem Inv.read (hN : AssertPowerOfTwo N) {s : Spsc α} {vs : List α} (h : Inv N s vs) {t : ℕ} {c : Cell α}
    (hp : s.pop = .checked t) (hc : s.ring.buffer t = some c) :
    Inv N { s with ring := s.ring.moveOut t, pop := .taken t c.val } vs := by
  obtain ⟨hacc, hrep, hprod, hcons⟩ := h
  simp only [ConsumerOk, hp] at hcons
  obtain ⟨rfl, hne⟩ := hcons
  obtain ⟨v, ws, rfl⟩ := List.exists_cons_of_ne_nil hne
  simp only [queue, hp, cells] at hrep
  obtain rfl := Option.some.inj ((hrep.buffer_tail hN).symm.trans hc)
  refine ⟨hacc, hrep.moveOut hN, ?_, rfl, rfl⟩
  -- the slot the producer has written is not the one read
  have hht : s.ring.head ≠ s.ring.tail := fun he => by simpa using hrep.empty_iff.mp he.symm
  unfold ProducerOk at hprod ⊢
  cases hq : s.push with
  | written w hd =>
    simp only [hq] at hprod
    obtain ⟨rfl, hw, hlt, hbuf⟩ := hprod
    refine ⟨rfl, hw, hlt, ?_⟩
    simpa [RingBuffer.moveOut, Function.update_of_ne hht] using hbuf
  | _ => simpa [hq, RingBuffer.moveOut] using hprod

/-- The value read waits no more once `tail` is stored. -/
theorem Inv.release (hN : AssertPowerOfTwo N) {s : Spsc α} {vs : List α} (h : Inv N s vs) {t : ℕ} {v : α}
    (hp : s.pop = .taken t v) :
    Inv N { s with ring := s.ring.storeTail (nextIndex N t), pop := .idle,
                   popResults := s.popResults ++ [some v] } vs.tail := by
  obtain ⟨hacc, hrep, hprod, hcons⟩ := h
  simp only [ConsumerOk, hp] at hcons
  obtain ⟨rfl, hv⟩ := hcons
  obtain ⟨ws, rfl⟩ := List.head?_eq_some_iff.mp hv
  simp only [queue, hp, cells, List.modifyHead_cons] at hrep
  refine ⟨?_, ?_, ?_, trivial⟩
  · simp [popped, hacc]
  · simpa [queue, popped] using hrep.storeTail hN
  · unfold ProducerOk at hprod ⊢
    cases hq : s.push with
    | idle => simpa [hq] using hprod
    | loadedHead w hd => simpa [hq] using hprod
    | checked w hd =>
      simp only [hq, List.length_cons] at hprod
      exact ⟨hprod.1, hprod.2.1, by simp only [List.tail_cons]; omega⟩
    | written w hd =>
      simp only [hq, List.length_cons] at hprod
      exact ⟨hprod.1, hprod.2.1, by simp only [List.tail_cons]; omega, hprod.2.2.2⟩

/-- Every step keeps the invariant. -/
theorem Inv.step (hN : AssertPowerOfTwo N) {s s' : Spsc α} {vs : List α} (h : Inv N s vs) {a : Act α}
    (hs : s.step N a = some s') : ∃ vs', Inv N s' vs' := by
  cases step_cases hs with
  | push v hp =>
    have hprod := h.producer
    simp only [ProducerOk, hp] at hprod
    exact ⟨vs, h.accepted_eq, h.represents, ⟨rfl, hprod⟩, h.consumer⟩
  | @full v hd hp hfull =>
    have hprod := h.producer
    simp only [ProducerOk, hp] at hprod
    exact ⟨vs, h.accepted_eq, h.represents, hprod.2, h.consumer⟩
  | room hp hroom => exact ⟨vs, h.room hN hp hroom⟩
  | write hp => exact ⟨vs, h.write hp⟩
  | publish hp => exact ⟨_, h.publish hN hp⟩
  | pop hp =>
    have hrep := h.represents
    simp only [queue, hp] at hrep
    exact ⟨vs, h.accepted_eq, hrep, h.producer, rfl⟩
  | empty hp hempty => exact ⟨vs, h.empty hp⟩
  | item hp hitem => exact ⟨vs, h.item hp hitem⟩
  | read hp hc => exact ⟨vs, h.read hN hp hc⟩
  | release hp => exact ⟨_, h.release hN hp⟩

/-- The invariant holds in every reachable state. -/
theorem inv_of_reach (hN : AssertPowerOfTwo N) {s : Spsc α} (h : (machine N α).Reach s) :
    ∃ vs, Inv N s vs :=
  h.invariant (I := fun s => ∃ vs, Inv N s vs) (fun _ hs => ⟨[], hs ▸ inv_new hN⟩)
    fun _ _ _ ⟨_, hi⟩ _ hs => hi.step hN hs

/-! ### What a step shows -/

/-- What a step can do to what has been accepted and returned: nothing, or a push or a pop
takes effect, having seen what it needs. -/
inductive Shows (N : ℕ) (s s' : Spsc α) : Prop
  | nothing : s'.accepted = s.accepted → s'.pushResults = s.pushResults →
      s'.popResults = s.popResults → Shows N s s'
  | pushOk (v : α) (h : ℕ) : s.push = .written v h → s'.accepted = s.accepted ++ [v] →
      s'.pushResults = s.pushResults ++ [.ok ()] → s'.popResults = s.popResults → Shows N s s'
  | pushErr (v : α) (h : ℕ) : s.push = .loadedHead v h → nextIndex N h = s.ring.tail →
      s'.accepted = s.accepted → s'.pushResults = s.pushResults ++ [.error v] →
      s'.popResults = s.popResults → Shows N s s'
  | popSome (t : ℕ) (v : α) : s.pop = .taken t v → s'.accepted = s.accepted →
      s'.pushResults = s.pushResults → s'.popResults = s.popResults ++ [some v] → Shows N s s'
  | popNone (t : ℕ) : s.pop = .loadedTail t → t = s.ring.head → s'.accepted = s.accepted →
      s'.pushResults = s.pushResults → s'.popResults = s.popResults ++ [none] → Shows N s s'

theorem step_shows {s s' : Spsc α} {a : Act α} (hs : s.step N a = some s') : Shows N s s' := by
  cases step_cases hs with
  | full hp hfull => exact .pushErr _ _ hp hfull rfl rfl rfl
  | publish hp => exact .pushOk _ _ hp rfl rfl rfl
  | empty hp hempty => exact .popNone _ hp hempty rfl rfl rfl
  | release hp => exact .popSome _ _ hp rfl rfl rfl
  | push | room | write | pop | item | read => exact .nothing rfl rfl rfl

/-- A push returns `Err(value)` only from its load of `tail`, on finding the next
index there. -/
theorem step_pushErr {s s' : Spsc α} {a : Act α} {v : α} (hs : s.step N a = some s')
    (hr : s'.pushResults = s.pushResults ++ [.error v]) :
    ∃ h, s.push = .loadedHead v h ∧ nextIndex N h = s.ring.tail := by
  cases step_shows hs with
  | pushErr w h hp hfull _ hr' _ =>
    rw [hr'] at hr
    simp only [List.append_cancel_left_eq, List.cons.injEq, Except.error.injEq, and_true] at hr
    exact ⟨h, by rw [← hr]; exact hp, hfull⟩
  | nothing _ hr' _ | pushOk _ _ _ _ hr' _ | popSome _ _ _ _ hr' _ | popNone _ _ _ _ hr' _ =>
    rw [hr'] at hr
    simp at hr

/-- A pop returns `None` only from its load of `head`, on finding its own index
there. -/
theorem step_popNone {s s' : Spsc α} {a : Act α} (hs : s.step N a = some s')
    (hr : s'.popResults = s.popResults ++ [none]) :
    ∃ t, s.pop = .loadedTail t ∧ t = s.ring.head := by
  cases step_shows hs with
  | popNone t hp hempty _ _ _ => exact ⟨t, hp, hempty⟩
  | nothing _ _ hr' | pushOk _ _ _ _ _ hr' | pushErr _ _ _ _ _ _ hr' | popSome _ _ _ _ _ hr' =>
    rw [hr'] at hr
    simp at hr

/-! ### Correctness -/

/-- **The buffer is a first-in first-out queue of `N - 1` places.** -/
structure Correct (N : ℕ) (s : Spsc α) : Prop where
  /-- The values popped are the first of the accepted ones, in order. -/
  popped_isPrefix : s.popped <+: s.accepted
  /-- None of the others is lost: they are what the memory holds, in order. -/
  memory_eq : (s.ring.unread N).map (Option.map Cell.val) = s.waiting.map some
  /-- No more than `N - 1` values are ever accepted and not yet popped. -/
  waiting_le : s.waiting.length ≤ N - 1
  /-- The slot a pop is about to read is initialised, was last written by the write that
  stored the next value to pop, and has not been read since. -/
  read_ok : ∀ t, s.pop = .checked t →
    ∃ v, s.ring.buffer t = some ⟨v, s.popped.length, false⟩ ∧ s.accepted[s.popped.length]? = some v
  /-- What a pop has read and is about to return is the next value to pop. -/
  taken_ok : ∀ t v, s.pop = .taken t v → s.accepted[s.popped.length]? = some v
  /-- The slot about to be written is not the slot about to be read. -/
  disjoint : ∀ v h t, s.push = .checked v h → s.pop = .checked t → h ≠ t
  /-- A push fails only when `N - 1` values are waiting at its load of `tail`. -/
  full_of_err : ∀ a s' v, s.step N a = some s' → s'.pushResults = s.pushResults ++ [.error v] →
    (∃ h, s.push = .loadedHead v h) ∧ s.waiting.length = N - 1
  /-- A pop fails only when nothing is waiting at its load of `head`. -/
  empty_of_none : ∀ a s', s.step N a = some s' → s'.popResults = s.popResults ++ [none] →
    (∃ t, s.pop = .loadedTail t) ∧ s.waiting = []

theorem map_val_queue (s : Spsc α) (vs : List α) : (s.queue vs).map Cell.val = vs := by
  have hcells : ∀ n (ws : List α), (cells n ws).map Cell.val = ws := fun n ws => by
    induction ws generalizing n with
    | nil => rfl
    | cons w ws ih => simp [cells, ih]
  unfold queue
  split
  · cases vs with
    | nil => rfl
    | cons v vs => simp [cells, Cell.moveOut, hcells]
  · exact hcells _ _

theorem Inv.correct (hN : AssertPowerOfTwo N) {s : Spsc α} {vs : List α} (h : Inv N s vs) :
    Correct N s := by
  have hwait := h.waiting_eq
  have hlt := h.represents.length_lt
  rw [length_queue] at hlt
  refine ⟨?_, ?_, ?_, fun t ht => ?_, fun t v ht => ?_, fun v hd t hv ht => ?_,
    fun a s' v hs hr => ?_, fun a s' hs hr => ?_⟩
  · rw [h.accepted_eq]
    exact List.prefix_append _ _
  · rw [hwait, h.represents.unread_eq, List.map_map]
    have := congrArg (List.map some) (map_val_queue s vs)
    rwa [List.map_map] at this
  · rw [hwait]
    omega
  · have hcons := h.consumer
    have hrep := h.represents
    simp only [ConsumerOk, ht] at hcons
    obtain ⟨rfl, hne⟩ := hcons
    obtain ⟨v, ws, rfl⟩ := List.exists_cons_of_ne_nil hne
    simp only [queue, ht, cells] at hrep
    refine ⟨v, hrep.buffer_tail hN, ?_⟩
    rw [h.accepted_eq, List.getElem?_append_right (Nat.le_refl _)]
    simp
  · have hcons := h.consumer
    simp only [ConsumerOk, ht] at hcons
    obtain ⟨ws, rfl⟩ := List.head?_eq_some_iff.mp hcons.2
    rw [h.accepted_eq, List.getElem?_append_right (Nat.le_refl _)]
    simp
  · have hcons := h.consumer
    have hprod := h.producer
    simp only [ConsumerOk, ht] at hcons
    simp only [ProducerOk, hv] at hprod
    rw [hprod.1, hcons.1]
    intro he
    have hnil := h.represents.empty_iff.mp he.symm
    exact hcons.2 (List.length_eq_zero_iff.mp (by simpa using congrArg List.length hnil))
  · obtain ⟨hd, hp, hfull⟩ := step_pushErr hs hr
    have hprod := h.producer
    simp only [ProducerOk, hp] at hprod
    rw [hprod.1, h.represents.full_iff hN, length_queue] at hfull
    exact ⟨⟨hd, hp⟩, by rw [hwait, hfull]⟩
  · obtain ⟨t, hp, hempty⟩ := step_popNone hs hr
    have hcons := h.consumer
    simp only [ConsumerOk, hp] at hcons
    rw [hcons, h.represents.empty_iff] at hempty
    refine ⟨⟨t, hp⟩, ?_⟩
    rw [hwait]
    exact List.length_eq_zero_iff.mp (by simpa using congrArg List.length hempty)

/-- **Correctness of the ring buffer** with one producer and one consumer: in every
reachable state of every interleaving, for every power of two `N` and every type of
values. -/
theorem correct_of_reach (hN : AssertPowerOfTwo N) {s : Spsc α} (h : (machine N α).Reach s) :
    Correct N s := by
  obtain ⟨_, hi⟩ := inv_of_reach hN h
  exact hi.correct hN

/-- A buffer of two slots: one value goes through, a second is accepted, and a push finds
the buffer full while a pop is half way through it. -/
theorem correct_of_reach_two : ∃ s : Spsc ℕ, s.popped = [5] ∧ s.accepted = [5, 6] ∧ Correct 2 s := by
  obtain ⟨s, hs, hp⟩ := Machine.exists_reach_of_run (M := machine 2 ℕ) (s := new) rfl
    [.push 5, .producer, .producer, .producer, .pop, .consumer, .consumer, .consumer,
      .push 6, .producer, .producer, .producer, .pop, .push 7, .consumer, .producer]
    (fun s => decide (s.popped = [5] ∧ s.accepted = [5, 6])) (by decide)
  obtain ⟨h5, h6⟩ := of_decide_eq_true hp
  exact ⟨s, h5, h6, correct_of_reach (by decide) hs⟩

end Spsc

end SensorBridge.Buffer
