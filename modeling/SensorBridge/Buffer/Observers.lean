import SensorBridge.Foundation.Log
import SensorBridge.Buffer.Linearization
import Mathlib.Algebra.Ring.Nat

/-!
# What the observers say

`len`, `is_empty` and `is_full` load `head` and then `tail`, and between the two loads the
other side may move; `peek` loads as a pop does and leaves the value where it is. This is
the machine of one producer and one consumer that may also call these, each thread with a
log of what its calls have returned.

Asked at one moment, the observers agree with the queue (`Agrees`). Asked while the other
side works, an answer may be old, but the other side can only make it safer: a producer
that has been told there is room finds room, and a consumer that has been told there is an
item finds one, the one that `peek` shows (`Steady`).
-/

namespace SensorBridge.Buffer

open Foundation Foundation.Cyclic Foundation.Log RingBuffer

universe u

/-! ### The observers -/

/-- `a.wrapping_sub(b)`, for a `usize` of `w` bits. -/
def wrappingSub (w a b : ℕ) : ℕ := (a + (2 ^ w - b)) % 2 ^ w

namespace RingBuffer

/-- `RingBuffer::capacity`. -/
def capacity (N : ℕ) : ℕ := N - 1

/-- `RingBuffer::len`, from its two loads. -/
def len (w N head tail : ℕ) : ℕ := wrappingSub w head tail &&& (N - 1)

/-- `RingBuffer::is_empty`, from its two loads. -/
def isEmpty (head tail : ℕ) : Bool := decide (head = tail)

/-- `RingBuffer::is_full`, from its two loads. -/
def isFull (N head tail : ℕ) : Bool := decide (nextIndex N head = tail)

/-- The wrapping subtraction and the mask give the gap from `tail` round to `head`. -/
theorem len_eq_gap {w N head tail : ℕ} (hN : AssertPowerOfTwo N) (hw : N < 2 ^ w) (hh : head < N)
    (ht : tail < N) : len w N head tail = gap N tail head := by
  obtain ⟨k, rfl⟩ := (Nat.and_sub_one_eq_zero_iff_isPowerOfTwo (by have := hN.1; omega)).mp hN.2
  have hkw : k ≤ w := Nat.le_of_lt ((Nat.pow_lt_pow_iff_right Nat.one_lt_two).mp hw)
  rw [len, wrappingSub, Nat.and_two_pow_sub_one_eq_mod, Nat.mod_mod_of_dvd _ (Nat.pow_dvd_pow 2 hkw),
    gap_cases ht hh]
  obtain ⟨c, hc⟩ := Nat.pow_dvd_pow 2 hkw
  obtain ⟨d, rfl⟩ : ∃ d, c = d + 1 := by
    cases c with
    | zero => rw [Nat.mul_zero] at hc; exact absurd hc (Nat.ne_of_gt (Nat.two_pow_pos w))
    | succ d => exact ⟨d, rfl⟩
  rw [Nat.mul_succ] at hc
  split_ifs with hle
  · rw [hc, show head + (2 ^ k * d + 2 ^ k - tail) = head - tail + 2 ^ k + 2 ^ k * d by omega,
      Nat.add_mul_mod_self_left, Nat.add_mod_right, Nat.mod_eq_of_lt (by omega)]
  · rw [hc, show head + (2 ^ k * d + 2 ^ k - tail) = head + 2 ^ k - tail + 2 ^ k * d by omega,
      Nat.add_mul_mod_self_left, Nat.mod_eq_of_lt (by omega)]

end RingBuffer

/-- An observer of the indices. -/
inductive Query where
  | len
  | isEmpty
  | isFull
  deriving DecidableEq

/-- What an observer returns. -/
inductive Answer where
  | len (n : ℕ)
  | isEmpty (b : Bool)
  | isFull (b : Bool)
  deriving DecidableEq

/-- What an observer makes of its two loads. -/
def Query.answer (w N head tail : ℕ) : Query → Answer
  | .len => .len (RingBuffer.len w N head tail)
  | .isEmpty => .isEmpty (RingBuffer.isEmpty head tail)
  | .isFull => .isFull (RingBuffer.isFull N head tail)

/-- Where a thread is in an observer. -/
inductive QueryPc where
  /-- In none. -/
  | idle
  /-- `head` has been loaded. -/
  | loadedHead (q : Query) (head : ℕ)
  deriving DecidableEq

/-- Where the consumer is in `peek_internal()`. -/
inductive PeekPc where
  /-- Not in it. -/
  | idle
  /-- `tail` has been loaded. -/
  | loadedTail (tail : ℕ)
  /-- `head` has been loaded, and the buffer is not empty. -/
  | checked (tail : ℕ)
  deriving DecidableEq

/-- What a call of the producer's thread has returned. -/
inductive ProducerEvent (α : Type u) where
  | push (result : Except α Unit)
  | answer (a : Answer)

/-- What a call of the consumer's thread has returned. -/
inductive ConsumerEvent (α : Type u) where
  | pop (result : Option α)
  | peek (result : Option α)
  | answer (a : Answer)

def ProducerEvent.isPush {α : Type u} : ProducerEvent α → Bool
  | .push _ => true
  | .answer _ => false

def ConsumerEvent.isPop {α : Type u} : ConsumerEvent α → Bool
  | .pop _ => true
  | .peek _ | .answer _ => false

def PushPc.isIdle {α : Type u} : PushPc α → Bool
  | .idle => true
  | _ => false

def PopPc.isIdle {α : Type u} : PopPc α → Bool
  | .idle => true
  | _ => false

/-- A buffer with a producer and a consumer that also observe it. -/
structure Observed (α : Type u) where
  /-- The buffer, the pushes and the pops. -/
  base : Spsc α
  /-- The producer in an observer. -/
  producerQuery : QueryPc
  /-- The consumer in an observer. -/
  consumerQuery : QueryPc
  /-- The consumer in `peek`. -/
  peek : PeekPc
  /-- What the producer's calls have returned. -/
  producerLog : List (ProducerEvent α)
  /-- What the consumer's calls have returned. -/
  consumerLog : List (ConsumerEvent α)

namespace Observed

variable {α : Type u} {w N : ℕ}

/-- What the two threads may do next. -/
inductive Act (α : Type u) where
  /-- A step of a push or a pop. -/
  | base (a : Spsc.Act α)
  /-- The producer calls an observer, which loads `head`. -/
  | producerQuery (q : Query)
  /-- The observer the producer called loads `tail` and returns. -/
  | producerAnswer
  /-- The consumer calls an observer, which loads `head`. -/
  | consumerQuery (q : Query)
  /-- The observer the consumer called loads `tail` and returns. -/
  | consumerAnswer
  /-- The consumer calls `peek_internal()` and loads `tail`. -/
  | peek
  /-- The next step of `peek_internal()`. -/
  | peekStep

/-- Whether the producer is between calls. -/
def producerIdle (s : Observed α) : Bool := s.base.push.isIdle && decide (s.producerQuery = .idle)

/-- Whether the consumer is between calls. -/
def consumerIdle (s : Observed α) : Bool :=
  s.base.pop.isIdle && (decide (s.consumerQuery = .idle) && decide (s.peek = .idle))

/-- Whether a push or a pop may take this step: it begins on an idle thread only. -/
def free (s : Observed α) : Spsc.Act α → Bool
  | .push _ => s.producerIdle
  | .pop => s.consumerIdle
  | .producer | .consumer => true

/-- The calls that return by a step of a push or a pop are logged. -/
def record (s : Observed α) (b : Spsc α) : Observed α :=
  { s with base := b
           producerLog := s.producerLog ++ (b.pushResults.drop s.base.pushResults.length).map .push
           consumerLog := s.consumerLog ++ (b.popResults.drop s.base.popResults.length).map .pop }

/-- The next step of `peek_internal()`. -/
def peekStep (s : Observed α) : Option (Observed α) :=
  match s.peek with
  | .idle => none
  | .loadedTail t =>
    if t = s.base.ring.head then
      some { s with peek := .idle, consumerLog := s.consumerLog ++ [.peek none] }
    else some { s with peek := .checked t }
  | .checked t =>
    (s.base.ring.buffer t).map fun c =>
      { s with peek := .idle, consumerLog := s.consumerLog ++ [.peek (some c.val)] }

/-- One atomic step. -/
def step (w N : ℕ) (s : Observed α) : Act α → Option (Observed α)
  | .base a => if s.free a then (s.base.step N a).map s.record else none
  | .producerQuery q =>
    if s.producerIdle then some { s with producerQuery := .loadedHead q s.base.ring.head } else none
  | .producerAnswer => match s.producerQuery with
    | .idle => none
    | .loadedHead q h =>
      some { s with producerQuery := .idle
                    producerLog := s.producerLog ++ [.answer (q.answer w N h s.base.ring.tail)] }
  | .consumerQuery q =>
    if s.consumerIdle then some { s with consumerQuery := .loadedHead q s.base.ring.head } else none
  | .consumerAnswer => match s.consumerQuery with
    | .idle => none
    | .loadedHead q h =>
      some { s with consumerQuery := .idle
                    consumerLog := s.consumerLog ++ [.answer (q.answer w N h s.base.ring.tail)] }
  | .peek => if s.consumerIdle then some { s with peek := .loadedTail s.base.ring.tail } else none
  | .peekStep => s.peekStep

/-- A new buffer. -/
def new : Observed α := ⟨.new, .idle, .idle, .idle, [], []⟩

/-- The machine. -/
def machine (w N : ℕ) (α : Type u) : Machine (Observed α) (Act α) where
  init := (· = new)
  step := step w N

/-- What one step can be. -/
inductive Step (w N : ℕ) (s : Observed α) : Observed α → Prop
  | base (a : Spsc.Act α) (b : Spsc α) : s.free a = true → s.base.step N a = some b →
      Step w N s (s.record b)
  | producerQuery (q : Query) : s.producerIdle = true →
      Step w N s { s with producerQuery := .loadedHead q s.base.ring.head }
  | producerAnswer (q : Query) (h : ℕ) : s.producerQuery = .loadedHead q h →
      Step w N s { s with producerQuery := .idle
                          producerLog := s.producerLog ++ [.answer (q.answer w N h s.base.ring.tail)] }
  | consumerQuery (q : Query) : s.consumerIdle = true →
      Step w N s { s with consumerQuery := .loadedHead q s.base.ring.head }
  | consumerAnswer (q : Query) (h : ℕ) : s.consumerQuery = .loadedHead q h →
      Step w N s { s with consumerQuery := .idle
                          consumerLog := s.consumerLog ++ [.answer (q.answer w N h s.base.ring.tail)] }
  | peek : s.consumerIdle = true → Step w N s { s with peek := .loadedTail s.base.ring.tail }
  | peekNone (t : ℕ) : s.peek = .loadedTail t → t = s.base.ring.head →
      Step w N s { s with peek := .idle, consumerLog := s.consumerLog ++ [.peek none] }
  | peekCheck (t : ℕ) : s.peek = .loadedTail t → t ≠ s.base.ring.head →
      Step w N s { s with peek := .checked t }
  | peekSome (t : ℕ) (c : Cell α) : s.peek = .checked t → s.base.ring.buffer t = some c →
      Step w N s { s with peek := .idle, consumerLog := s.consumerLog ++ [.peek (some c.val)] }

theorem step_cases {s s' : Observed α} {a : Act α} (h : s.step w N a = some s') : Step w N s s' := by
  cases a with
  | base a =>
    simp only [step] at h
    split at h
    · obtain ⟨b, hb, rfl⟩ := Option.map_eq_some_iff.mp h
      exact .base a b ‹_› hb
    · cases h
  | producerQuery q =>
    simp only [step] at h
    split at h
    · cases h
      exact .producerQuery q ‹_›
    · cases h
  | producerAnswer =>
    cases hq : s.producerQuery with
    | idle => simp [step, hq] at h
    | loadedHead q hd =>
      simp only [step, hq, Option.some.injEq] at h
      subst h
      exact .producerAnswer q hd hq
  | consumerQuery q =>
    simp only [step] at h
    split at h
    · cases h
      exact .consumerQuery q ‹_›
    · cases h
  | consumerAnswer =>
    cases hq : s.consumerQuery with
    | idle => simp [step, hq] at h
    | loadedHead q hd =>
      simp only [step, hq, Option.some.injEq] at h
      subst h
      exact .consumerAnswer q hd hq
  | peek =>
    simp only [step] at h
    split at h
    · cases h
      exact .peek ‹_›
    · cases h
  | peekStep =>
    simp only [step, peekStep] at h
    cases hp : s.peek with
    | idle => simp [hp] at h
    | loadedTail t =>
      simp only [hp] at h
      split_ifs at h with hempty
      · cases h
        exact .peekNone t hp hempty
      · cases h
        exact .peekCheck t hp hempty
    | checked t =>
      simp only [hp, Option.map_eq_some_iff] at h
      obtain ⟨c, hc, rfl⟩ := h
      exact .peekSome t c hp hc

/-! ### An answer stays true -/

/-- While the producer is not in a push, `head` stands still and no push returns. -/
theorem head_eq_of_idle {b b' : Spsc α} {a : Spsc.Act α} (hs : b.step N a = some b')
    (hidle : b.push.isIdle = true) (ha : ∀ v, a ≠ .push v) :
    b'.push.isIdle = true ∧ b'.ring.head = b.ring.head ∧ b'.pushResults = b.pushResults := by
  cases Spsc.step_cases hs with
  | push v => exact absurd rfl (ha v)
  | full hp | room hp | write hp | publish hp =>
    rw [hp] at hidle
    cases hidle
  | pop | empty | item | read | release => exact ⟨hidle, rfl, rfl⟩

/-- While the consumer is not in a pop, `tail` stands still and no pop returns. -/
theorem tail_eq_of_idle {b b' : Spsc α} {a : Spsc.Act α} (hs : b.step N a = some b')
    (hidle : b.pop.isIdle = true) (ha : a ≠ .pop) :
    b'.pop.isIdle = true ∧ b'.ring.tail = b.ring.tail ∧ b'.popResults = b.popResults := by
  cases Spsc.step_cases hs with
  | pop => exact absurd rfl ha
  | empty hp | item hp | read hp | release hp =>
    rw [hp] at hidle
    cases hidle
  | push | full | room | write | publish => exact ⟨hidle, rfl, rfl⟩

/-- A producer that has been told there is room, and what its calls have returned since. -/
abbrev ToldRoom (log obs : List (ProducerEvent α)) : Prop :=
  Since (.answer (.isFull false)) ProducerEvent.isPush log obs

/-- A consumer that has been told there is an item, and what its calls have returned since. -/
abbrev ToldItem (log obs : List (ConsumerEvent α)) : Prop :=
  Since (.answer (.isEmpty false)) ConsumerEvent.isPop log obs

/-- The value `v` is what every `peek` among these calls has shown. -/
def Shown (obs : List (ConsumerEvent α)) (v : α) : Prop := ∀ r, .peek r ∈ obs → r = some v

/-- **The invariant**, with `vs` the values waiting: what a thread in an observer has loaded
is true enough for what it will say, and what it has been told is true still. -/
structure Inv (N : ℕ) (s : Observed α) (vs : List α) : Prop where
  /-- The buffer. -/
  base : Spsc.Inv N s.base vs
  /-- `head` is the producer's own. -/
  producerQuery : ∀ q h, s.producerQuery = .loadedHead q h →
    s.base.push.isIdle = true ∧ h = s.base.ring.head
  /-- `tail` is the consumer's own, and `head` can only have moved on. -/
  consumerQuery : ∀ q h, s.consumerQuery = .loadedHead q h →
    s.base.pop.isIdle = true ∧ (h ≠ s.base.ring.tail → vs ≠ [])
  peekLoaded : ∀ t, s.peek = .loadedTail t → s.base.pop.isIdle = true ∧ t = s.base.ring.tail
  peekChecked : ∀ t, s.peek = .checked t →
    s.base.pop.isIdle = true ∧ t = s.base.ring.tail ∧ vs ≠ []
  /-- There is room still. -/
  room : ∀ obs, ToldRoom s.producerLog obs → vs.length < N - 1
  /-- There is an item still, the one that has been shown. -/
  item : ∀ obs, ToldItem s.consumerLog obs → ∃ v, vs.head? = some v ∧ Shown obs v

/-- **An answer stays true**: a push after `is_full` has said no returns `Ok`; a pop after
`is_empty` has said no returns a value, the one that `peek` has shown since. -/
structure Steady (s : Observed α) : Prop where
  pushes : Answered (.answer (.isFull false)) ProducerEvent.isPush
    (fun _ e => e = .push (.ok ())) s.producerLog
  pops : Answered (.answer (.isEmpty false)) ConsumerEvent.isPop
    (fun obs e => ∃ v, e = .pop (some v) ∧ Shown obs v) s.consumerLog

theorem inv_new (hN : AssertPowerOfTwo N) : Inv N (new : Observed α) [] where
  base := Spsc.inv_new hN
  producerQuery := by rintro q h ⟨⟩
  consumerQuery := by rintro q h ⟨⟩
  peekLoaded := by rintro t ⟨⟩
  peekChecked := by rintro t ⟨⟩
  room obs h := (not_since_nil h).elim
  item obs h := (not_since_nil h).elim

/-- The indices agree with the values waiting. -/
theorem empty_iff {b : Spsc α} {vs : List α} (h : Spsc.Inv N b vs) :
    b.ring.tail = b.ring.head ↔ vs = [] := by
  rw [h.represents.empty_iff, ← List.length_eq_zero_iff, Spsc.length_queue, List.length_eq_zero_iff]

theorem full_iff (hN : AssertPowerOfTwo N) {b : Spsc α} {vs : List α} (h : Spsc.Inv N b vs) :
    nextIndex N b.ring.head = b.ring.tail ↔ vs.length = N - 1 := by
  rw [h.represents.full_iff hN, Spsc.length_queue]

theorem length_le {b : Spsc α} {vs : List α} (h : Spsc.Inv N b vs) : vs.length < N := by
  have := h.represents.length_lt
  rwa [Spsc.length_queue] at this

/-- The slot at `tail`, with no pop in progress, holds the first value waiting. -/
theorem buffer_tail (hN : AssertPowerOfTwo N) {b : Spsc α} {v : α} {vs : List α}
    (h : Spsc.Inv N b (v :: vs)) (hidle : b.pop.isIdle = true) :
    ∃ c, b.ring.buffer b.ring.tail = some c ∧ c.val = v := by
  have hrep := h.represents
  cases hp : b.pop with
  | idle =>
    simp only [Spsc.queue, hp, Spsc.cells] at hrep
    exact ⟨_, hrep.buffer_tail hN, rfl⟩
  | _ => rw [hp] at hidle; cases hidle

/-- Between two pops, the values waiting can only become more. -/
theorem ne_nil_of_idle {b b' : Spsc α} {a : Spsc.Act α} {vs vs' : List α} (hN : AssertPowerOfTwo N)
    (h : Spsc.Inv N b vs) (h' : Spsc.Inv N b' vs') (hs : b.step N a = some b')
    (hidle : b.pop.isIdle = true) (ha : a ≠ .pop) (hne : vs ≠ []) : vs' ≠ [] := by
  obtain ⟨pushes, pops, he, -, hpop⟩ := h.effect hN h' (Spsc.step_shows hs)
  rw [(tail_eq_of_idle hs hidle ha).2.2, List.self_eq_append_right] at hpop
  cases he with
  | nothing | pushErr => exact hne
  | pushOk v => simp
  | popSome | popNone => cases hpop

/-- What a push or a pop returns is what has been said. -/
theorem Steady.record {s : Observed α} {vs vs' : List α} {b : Spsc α} {pushes : List (Except α Unit)}
    {pops : List (Option α)} (hsteady : Steady s) (h : Inv N s vs) (he : Spsc.Effect N vs vs' pushes pops)
    (hplog : (s.record b).producerLog = s.producerLog ++ pushes.map .push)
    (hclog : (s.record b).consumerLog = s.consumerLog ++ pops.map .pop) : Steady (s.record b) := by
  obtain ⟨hpushes, hpops⟩ := hsteady
  constructor
  · rw [hplog]
    cases he with
    | nothing | popSome | popNone => simpa using hpushes
    | pushOk v => exact hpushes.concat fun _ _ _ => rfl
    | pushErr v hlen =>
      refine hpushes.concat fun _ obs ho => ?_
      exact absurd hlen (Nat.ne_of_lt (h.room obs ho))
  · rw [hclog]
    cases he with
    | nothing | pushOk | pushErr => simpa using hpops
    | popSome v =>
      refine hpops.concat fun _ obs ho => ?_
      obtain ⟨x, hx, hshown⟩ := h.item obs ho
      cases hx
      exact ⟨v, rfl, hshown⟩
    | popNone =>
      refine hpops.concat fun _ obs ho => ?_
      obtain ⟨x, hx, -⟩ := h.item obs ho
      cases hx

/-- A step of a push or a pop keeps the invariant, and what has been said. -/
theorem Inv.record (hN : AssertPowerOfTwo N) {s : Observed α} {vs : List α} (h : Inv N s vs)
    {a : Spsc.Act α} {b : Spsc α} (hfree : s.free a = true) (hb : s.base.step N a = some b) :
    ∃ vs', Inv N (s.record b) vs' ∧ (Steady s → Steady (s.record b)) := by
  obtain ⟨vs', h'⟩ := h.base.step hN hb
  obtain ⟨pushes, pops, he, hpush, hpop⟩ := h.base.effect hN h' (Spsc.step_shows hb)
  have hplog : (s.record b).producerLog = s.producerLog ++ pushes.map .push := by
    simp [Observed.record, hpush]
  have hclog : (s.record b).consumerLog = s.consumerLog ++ pops.map .pop := by
    simp [Observed.record, hpop]
  -- a thread in an observer or in `peek` begins no push or pop
  have hnopush : ∀ q hd, s.producerQuery = .loadedHead q hd → ∀ v, a ≠ .push v := by
    rintro q hd hq v rfl
    simp [free, producerIdle, hq] at hfree
  have hnopop : s.consumerQuery ≠ .idle ∨ s.peek ≠ .idle → a ≠ .pop := by
    rintro hq rfl
    rcases hq with hq | hq <;> simp [free, consumerIdle, hq] at hfree
  refine ⟨vs', ⟨h', ?_, ?_, ?_, ?_, ?_, ?_⟩, ?_⟩
  · intro q hd hq
    obtain ⟨hidle, rfl⟩ := h.producerQuery q hd hq
    obtain ⟨hidle', hhead, -⟩ := head_eq_of_idle hb hidle (hnopush q _ hq)
    exact ⟨hidle', hhead.symm⟩
  · intro q hd hq
    obtain ⟨hidle, hne⟩ := h.consumerQuery q hd hq
    have ha : a ≠ .pop := hnopop (.inl (by rw [show s.consumerQuery = _ from hq]; simp))
    obtain ⟨hidle', htail, -⟩ := tail_eq_of_idle hb hidle ha
    refine ⟨hidle', fun hd' => ?_⟩
    rw [show (s.record b).base.ring.tail = s.base.ring.tail from htail] at hd'
    exact ne_nil_of_idle hN h.base h' hb hidle ha (hne hd')
  · intro t ht
    obtain ⟨hidle, rfl⟩ := h.peekLoaded t ht
    have ha : a ≠ .pop := hnopop (.inr (by rw [show s.peek = _ from ht]; simp))
    obtain ⟨hidle', htail, -⟩ := tail_eq_of_idle hb hidle ha
    exact ⟨hidle', htail.symm⟩
  · intro t ht
    obtain ⟨hidle, rfl, hne⟩ := h.peekChecked t ht
    have ha : a ≠ .pop := hnopop (.inr (by rw [show s.peek = _ from ht]; simp))
    obtain ⟨hidle', htail, -⟩ := tail_eq_of_idle hb hidle ha
    exact ⟨hidle', htail.symm, ne_nil_of_idle hN h.base h' hb hidle ha hne⟩
  · intro obs ho
    rw [hplog] at ho
    cases he with
    | nothing => exact h.room obs (by simpa using ho)
    | pushOk v | pushErr v => exact (not_since_concat rfl (by simp) ho).elim
    | popSome v => exact Nat.lt_of_succ_lt (h.room obs (by simpa using ho))
    | popNone => exact h.room obs (by simpa using ho)
  · intro obs ho
    rw [hclog] at ho
    cases he with
    | nothing | pushErr => exact h.item obs (by simpa using ho)
    | pushOk v =>
      obtain ⟨x, hx, hshown⟩ := h.item obs (by simpa using ho)
      exact ⟨x, by rw [List.head?_append, hx]; rfl, hshown⟩
    | popSome v | popNone => exact (not_since_concat rfl (by simp) ho).elim
  · exact fun hsteady => hsteady.record h he hplog hclog

/-- What the producer is told of the room is true. -/
theorem Inv.told_room (hN : AssertPowerOfTwo N) {s : Observed α} {vs : List α} (h : Inv N s vs)
    {q : Query} {hd : ℕ} (hq : s.producerQuery = .loadedHead q hd)
    (ha : q.answer w N hd s.base.ring.tail = .isFull false) : vs.length < N - 1 := by
  obtain ⟨-, rfl⟩ := h.producerQuery q hd hq
  cases q with
  | isFull =>
    have hne : nextIndex N s.base.ring.head ≠ s.base.ring.tail := by
      simpa [Query.answer, RingBuffer.isFull] using ha
    rw [Ne, full_iff hN h.base] at hne
    have := length_le h.base
    omega
  | len | isEmpty => cases ha

/-- What the consumer is told of an item is true. -/
theorem Inv.told_item {s : Observed α} {vs : List α} (h : Inv N s vs)
    {q : Query} {hd : ℕ} (hq : s.consumerQuery = .loadedHead q hd)
    (ha : q.answer w N hd s.base.ring.tail = .isEmpty false) : vs ≠ [] := by
  obtain ⟨-, hne⟩ := h.consumerQuery q hd hq
  cases q with
  | isEmpty => exact hne (by simpa [Query.answer, RingBuffer.isEmpty] using ha)
  | len | isFull => cases ha

/-- What `peek` returns is the first of the values waiting, and is what it has shown before. -/
theorem Inv.peek_item {s : Observed α} {vs : List α} (h : Inv N s vs) {obs : List (ConsumerEvent α)}
    (ho : ToldItem (s.consumerLog ++ [.peek vs.head?]) obs) : ∃ v, vs.head? = some v ∧ Shown obs v := by
  rcases ho.of_concat with ⟨-, he⟩ | ⟨obs', rfl, -, ho⟩
  · cases he
  · obtain ⟨v, hv, hshown⟩ := h.item obs' ho
    refine ⟨v, hv, ?_⟩
    intro r hr
    rcases List.mem_append.mp hr with hr | hr
    · exact hshown r hr
    · simp only [List.mem_singleton, ConsumerEvent.peek.injEq] at hr
      exact hr.trans hv

/-- Every step keeps the invariant, and what has been said. -/
theorem Inv.step (hN : AssertPowerOfTwo N) {s s' : Observed α} {vs : List α} (h : Inv N s vs)
    (hs : Step w N s s') : ∃ vs', Inv N s' vs' ∧ (Steady s → Steady s') := by
  cases hs with
  | base a b hfree hb => exact h.record hN hfree hb
  | producerQuery q hidle =>
    refine ⟨vs, { h with producerQuery := ?_ }, fun ⟨hpush, hpop⟩ => ⟨hpush, hpop⟩⟩
    rintro q' hd ⟨⟩
    exact ⟨(Bool.and_eq_true _ _ ▸ hidle).1, rfl⟩
  | producerAnswer q hd hq =>
    refine ⟨vs, { h with producerQuery := ?_, room := ?_ }, fun ⟨hpush, hpop⟩ => ⟨?_, hpop⟩⟩
    · rintro q' hd' ⟨⟩
    · intro obs ho
      rcases ho.of_concat with ⟨-, he⟩ | ⟨obs', -, -, ho⟩
      · exact h.told_room hN hq (ProducerEvent.answer.inj he)
      · exact h.room obs' ho
    · exact hpush.concat fun he => by cases he
  | consumerQuery q hidle =>
    refine ⟨vs, { h with consumerQuery := ?_ }, fun ⟨hpush, hpop⟩ => ⟨hpush, hpop⟩⟩
    rintro q' hd ⟨⟩
    refine ⟨(Bool.and_eq_true _ _ ▸ hidle).1, ?_⟩
    rintro hne rfl
    exact hne ((empty_iff h.base).mpr rfl).symm
  | consumerAnswer q hd hq =>
    refine ⟨vs, { h with consumerQuery := ?_, item := ?_ }, fun ⟨hpush, hpop⟩ => ⟨hpush, ?_⟩⟩
    · rintro q' hd' ⟨⟩
    · intro obs ho
      rcases ho.of_concat with ⟨rfl, he⟩ | ⟨obs', rfl, -, ho⟩
      · obtain ⟨v, ws, rfl⟩ := List.exists_cons_of_ne_nil (h.told_item hq (ConsumerEvent.answer.inj he))
        exact ⟨v, rfl, by rintro r ⟨⟩⟩
      · obtain ⟨v, hv, hshown⟩ := h.item obs' ho
        refine ⟨v, hv, fun r hr => hshown r ?_⟩
        simpa using hr
    · exact hpop.concat fun he => by cases he
  | peek hidle =>
    refine ⟨vs, { h with peekLoaded := ?_, peekChecked := ?_ }, fun ⟨hpush, hpop⟩ => ⟨hpush, hpop⟩⟩
    · rintro t ⟨⟩
      exact ⟨(Bool.and_eq_true _ _ ▸ hidle).1, rfl⟩
    · rintro t ⟨⟩
  | peekNone t ht hempty =>
    obtain ⟨-, rfl⟩ := h.peekLoaded t ht
    obtain rfl := (empty_iff h.base).mp hempty
    refine ⟨[], { h with peekLoaded := ?_, peekChecked := ?_, item := ?_ },
      fun ⟨hpush, hpop⟩ => ⟨hpush, ?_⟩⟩
    · rintro t ⟨⟩
    · rintro t ⟨⟩
    · exact fun obs ho => h.peek_item ho
    · exact hpop.concat fun he => by cases he
  | peekCheck t ht hne =>
    obtain ⟨hidle, rfl⟩ := h.peekLoaded t ht
    refine ⟨vs, { h with peekLoaded := ?_, peekChecked := ?_ }, fun ⟨hpush, hpop⟩ => ⟨hpush, hpop⟩⟩
    · rintro t ⟨⟩
    · rintro t ⟨⟩
      exact ⟨hidle, rfl, fun hnil => hne ((empty_iff h.base).mpr hnil)⟩
  | peekSome t c ht hc =>
    obtain ⟨hidle, rfl, hne⟩ := h.peekChecked t ht
    obtain ⟨v, ws, rfl⟩ := List.exists_cons_of_ne_nil hne
    obtain ⟨d, hd, rfl⟩ := buffer_tail hN h.base hidle
    obtain rfl := Option.some.inj (hc.symm.trans hd)
    refine ⟨c.val :: ws, { h with peekLoaded := ?_, peekChecked := ?_, item := ?_ },
      fun ⟨hpush, hpop⟩ => ⟨hpush, ?_⟩⟩
    · rintro t ⟨⟩
    · rintro t ⟨⟩
    · exact fun obs ho => h.peek_item ho
    · exact hpop.concat fun he => by cases he

theorem inv_of_reach (hN : AssertPowerOfTwo N) {s : Observed α} (h : (machine w N α).Reach s) :
    (∃ vs, Inv N s vs) ∧ Steady s := by
  refine h.invariant (I := fun s => (∃ vs, Inv N s vs) ∧ Steady s) ?_ ?_
  · rintro s rfl
    exact ⟨⟨[], inv_new hN⟩, answered_nil, answered_nil⟩
  · intro s a s' ⟨⟨vs, hi⟩, hsteady⟩ _ hs
    obtain ⟨vs', hi', hkeep⟩ := hi.step hN (step_cases hs)
    exact ⟨⟨vs', hi'⟩, hkeep hsteady⟩

/-! ### Asked at one moment -/

/-- **The observers agree with the queue** of the values waiting, and so do the calls that
nobody interrupts. -/
structure Agrees (w N : ℕ) (s : Observed α) : Prop where
  len_eq : RingBuffer.len w N s.base.ring.head s.base.ring.tail = s.base.waiting.length
  isEmpty_iff : RingBuffer.isEmpty s.base.ring.head s.base.ring.tail = true ↔ s.base.waiting = []
  isFull_iff : RingBuffer.isFull N s.base.ring.head s.base.ring.tail = true ↔
    s.base.waiting.length = capacity N
  /-- A push into a buffer that is not full is accepted. -/
  push_ok : s.producerIdle = true → RingBuffer.isFull N s.base.ring.head s.base.ring.tail = false →
    ∀ v, ∃ s', (machine w N α).run s (.base (.push v) :: .replicate 3 (.base .producer)) = some s' ∧
      s'.producerIdle = true ∧ s'.producerLog = s.producerLog ++ [.push (.ok ())] ∧
      s'.base.waiting = s.base.waiting ++ [v]
  /-- A push into a full buffer gives its argument back and changes nothing. -/
  push_err : s.producerIdle = true → RingBuffer.isFull N s.base.ring.head s.base.ring.tail = true →
    ∀ v, (machine w N α).run s [.base (.push v), .base .producer] = some
      { s with base.pushResults := s.base.pushResults ++ [.error v]
               producerLog := s.producerLog ++ [.push (.error v)] }
  /-- `peek` shows the first value and changes nothing. -/
  peek_eq : s.consumerIdle = true → ∃ n, (machine w N α).run s (.peek :: .replicate n .peekStep) = some
      { s with consumerLog := s.consumerLog ++ [.peek s.base.waiting.head?] }

theorem eq_idle_of_producerIdle {s : Observed α} (h : s.producerIdle = true) :
    s.base.push = .idle ∧ s.producerQuery = .idle := by
  obtain ⟨hpush, hquery⟩ := Bool.and_eq_true _ _ ▸ h
  refine ⟨?_, of_decide_eq_true hquery⟩
  cases hp : s.base.push with
  | idle => rfl
  | _ => rw [hp] at hpush; cases hpush

theorem eq_idle_of_consumerIdle {s : Observed α} (h : s.consumerIdle = true) :
    s.base.pop.isIdle = true ∧ s.consumerQuery = .idle ∧ s.peek = .idle := by
  simpa [consumerIdle] using h

theorem Inv.agrees (hN : AssertPowerOfTwo N) (hw : N < 2 ^ w) {s : Observed α} {vs : List α}
    (h : Inv N s vs) : Agrees w N s := by
  have hwait := h.base.waiting_eq
  have hhead := h.base.represents.head_lt
  have htail := h.base.represents.tail_lt
  refine ⟨?_, ?_, ?_, fun hidle hfull v => ?_, fun hidle hfull v => ?_, fun hidle => ?_⟩
  · rw [hwait, RingBuffer.len_eq_gap hN hw hhead htail, h.base.represents.gap_eq, Spsc.length_queue]
  · rw [hwait, ← empty_iff h.base, RingBuffer.isEmpty, decide_eq_true_iff, eq_comm]
  · rw [hwait, RingBuffer.isFull, decide_eq_true_iff, full_iff hN h.base, capacity]
  · obtain ⟨hpush, hquery⟩ := eq_idle_of_producerIdle hidle
    have hne : nextIndex N s.base.ring.head ≠ s.base.ring.tail := of_decide_eq_false hfull
    refine ⟨_, by simp [Machine.run, machine, Observed.step, free, producerIdle, Observed.record, Spsc.step,
      Spsc.producerStep, PushPc.isIdle, hpush, hquery, hne]; rfl, ?_, ?_, ?_⟩
    · simp [producerIdle, PushPc.isIdle]
    · simp
    · show (s.base.accepted ++ [v]).drop s.base.popped.length = s.base.waiting ++ [v]
      rw [hwait, h.base.accepted_eq, List.append_assoc, List.drop_left]
  · obtain ⟨hpush, hquery⟩ := eq_idle_of_producerIdle hidle
    have heq : nextIndex N s.base.ring.head = s.base.ring.tail := of_decide_eq_true hfull
    simp [Machine.run, machine, Observed.step, free, producerIdle, Observed.record, Spsc.step,
      Spsc.producerStep, PushPc.isIdle, hpush, hquery, heq]
  · obtain ⟨hpop, hquery, hpeek⟩ := eq_idle_of_consumerIdle hidle
    rw [hwait]
    cases vs with
    | nil =>
      have hempty := (empty_iff h.base).mpr rfl
      refine ⟨1, ?_⟩
      simp [Machine.run, machine, Observed.step, Observed.peekStep, hidle, hempty, hpeek]
    | cons v ws =>
      have hne : s.base.ring.tail ≠ s.base.ring.head := fun he => by
        simpa using (empty_iff h.base).mp he
      obtain ⟨c, hc, rfl⟩ := buffer_tail hN h.base hpop
      refine ⟨2, ?_⟩
      simp [Machine.run, machine, Observed.step, Observed.peekStep, hidle, hne, hc, hpeek,
        List.replicate_succ]

/-- **The observers and the queue**, for every power of two `N` that is a `usize`: asked at one
moment they agree, and what they have said stays true. -/
theorem agrees_of_reach (hN : AssertPowerOfTwo N) (hw : N < 2 ^ w) {s : Observed α}
    (h : (machine w N α).Reach s) : Agrees w N s ∧ Steady s := by
  obtain ⟨⟨vs, hi⟩, hsteady⟩ := inv_of_reach hN h
  exact ⟨hi.agrees hN hw, hsteady⟩

/-- The producer hears that there is room and pushes; the consumer hears that there is an
item, sees it, and pops it. -/
theorem agrees_of_reach_seen : ∃ s : Observed ℕ,
    s.producerLog.length = 2 ∧ s.consumerLog.length = 3 ∧ Agrees 64 2 s ∧ Steady s := by
  obtain ⟨s, hs, hp⟩ := Machine.exists_reach_of_run (M := machine 64 2 ℕ) (s := new) rfl
    (List.flatten [[.producerQuery .isFull, .producerAnswer, .base (.push 5)],
      .replicate 3 (.base .producer), [.consumerQuery .isEmpty, .consumerAnswer, .peek, .peekStep,
        .peekStep, .base .pop], .replicate 3 (.base .consumer)])
    (fun s => decide (s.producerLog.length = 2 ∧ s.consumerLog.length = 3)) (by decide +kernel)
  obtain ⟨hp, hc⟩ := of_decide_eq_true hp
  obtain ⟨hagrees, hsteady⟩ := agrees_of_reach (by decide) (by decide) hs
  exact ⟨s, hp, hc, hagrees, hsteady⟩

end Observed

end SensorBridge.Buffer
