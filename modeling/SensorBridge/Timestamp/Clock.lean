import SensorBridge.Foundation.Machine
import SensorBridge.Foundation.Threads
import Mathlib.Algebra.Ring.Nat
import Mathlib.Data.List.MinMax

/-!
# The monotonic clock

A `MonotonicClock` is shared by any number of threads. `now_ns` reads the raw time and
`record_time` is given one; both then raise `last_timestamp` to it in a loop, a load and an
exchange that fails when another thread has been faster, or for no reason. When the load finds
a time that is no less, that is what is returned and nothing is stored. `stamp` and
`stamp_with_time` do the same and then take a sequence number.

However often a call goes round, it takes effect once: the load that ends it, or the exchange
that succeeds, is `settle`, which raises the time to the raw one and hands out what it then is
(`step_cases`). So the clock is monotone (`monotone_of_reach`), whatever the raw readings are.
-/

namespace SensorBridge.Timestamp

open Foundation

universe u

/-- A timestamped wrapper for sensor data. -/
structure Timestamped (α : Type u) where
  /-- Monotonic nanoseconds since clock epoch. -/
  timestampNs : ℕ
  /-- Sequence number for drop detection. -/
  seq : ℕ
  /-- The actual sensor data. -/
  data : α
  deriving DecidableEq

/-- A monotonic clock for timestamping sensor data. -/
structure MonotonicClock where
  /-- The last timestamp returned, used to ensure monotonicity. -/
  lastTimestamp : ℕ
  /-- Sequence counter for stamped values. -/
  sequence : ℕ

/-- `MonotonicClock::new`. -/
def MonotonicClock.new : MonotonicClock := ⟨0, 0⟩

/-! ### Calls -/

variable {α : Type u}

/-- What is called. -/
inductive ClockFn (α : Type u) where
  | nowNs
  | recordTime (timestampNs : ℕ)
  | stamp (data : α)
  | stampWithTime (data : α) (timestampNs : ℕ)

namespace ClockFn

/-- The raw time the call is given, if it is not to read it. -/
def given : ClockFn α → Option ℕ
  | nowNs | stamp _ => none
  | recordTime timestampNs | stampWithTime _ timestampNs => some timestampNs

/-- The data to stamp, if there is some. -/
def data : ClockFn α → Option α
  | nowNs | recordTime _ => none
  | stamp data | stampWithTime data _ => some data

end ClockFn

/-- Where a call is: what it does next. -/
inductive ClockPc (α : Type u) where
  /-- `epoch.elapsed()`. -/
  | readRaw
  /-- The load of `last_timestamp`. -/
  | load (raw : ℕ)
  /-- The exchange of `last_timestamp`, loaded as `last`. -/
  | exchange (raw last : ℕ)
  /-- A stamp has its timestamp; the `fetch_add` of `sequence` is next. -/
  | stamping (data : α) (raw timestampNs : ℕ)
  /-- It has returned. -/
  | returned (raw timestampNs : ℕ)

namespace ClockPc

/-- The call with this raw time has not taken effect. -/
def working : ClockPc α → Option ℕ
  | load raw | exchange raw _ => some raw
  | _ => none

/-- The raw time and the timestamp of a call that has taken effect. -/
def result : ClockPc α → Option (ℕ × ℕ)
  | stamping _ raw timestampNs | returned raw timestampNs => some (raw, timestampNs)
  | _ => none

/-- The timestamp a call has returned. -/
def timestamp : ClockPc α → Option ℕ
  | returned _ timestampNs => some timestampNs
  | _ => none

end ClockPc

/-- A call. -/
structure ClockCall (α : Type u) where
  fn : ClockFn α
  /-- The timestamps that had been returned when it began. -/
  before : List ℕ
  pc : ClockPc α

/-- Where a call begins. -/
def ClockFn.start (fn : ClockFn α) : ClockPc α := match fn.given with
  | none => .readRaw
  | some raw => .load raw

/-- Where a call goes when it has its timestamp. -/
def ClockFn.finish (fn : ClockFn α) (raw timestampNs : ℕ) : ClockPc α := match fn.data with
  | none => .returned raw timestampNs
  | some data => .stamping data raw timestampNs

/-! ### The clock in use -/

/-- A clock in use. -/
structure Clocked (α : Type u) where
  clock : MonotonicClock
  /-- The raw times so far, read or given. -/
  raws : List ℕ
  /-- The calls, in the order in which they began. -/
  calls : List (ClockCall α)
  /-- The stamped values, in the order in which they were numbered. -/
  stamped : List (Timestamped α)

namespace Clocked

/-- What can happen next. -/
inductive Act (α : Type u) where
  /-- A thread calls. -/
  | call (fn : ClockFn α)
  /-- Call `i` reads the raw time. -/
  | readRaw (i raw : ℕ)
  /-- Call `i` loads `last_timestamp`, and returns it if it is no less than the raw time. -/
  | load (i : ℕ)
  /-- The exchange of call `i` succeeds. -/
  | exchange (i : ℕ)
  /-- The exchange of call `i` fails: the time has changed, or for no reason. -/
  | exchangeFails (i : ℕ)
  /-- Call `i` takes its sequence number. -/
  | takeSeq (i : ℕ)

/-- A clock nobody has called. -/
def new : Clocked α := ⟨.new, [], [], []⟩

/-- The timestamps returned so far. -/
def returned (s : Clocked α) : List ℕ := s.calls.filterMap fun c => c.pc.timestamp

/-- Call `i` goes on to `pc`. -/
def goOn (s : Clocked α) (i : ℕ) (c : ClockCall α) (pc : ClockPc α) : Clocked α :=
  { s with calls := s.calls.set i { c with pc } }

/-- Call `i` takes effect: the time is raised to the raw time, and is the timestamp. -/
def settle (s : Clocked α) (i : ℕ) (c : ClockCall α) (raw : ℕ) : Clocked α :=
  { s.goOn i c (c.fn.finish raw (max raw s.clock.lastTimestamp)) with
    clock.lastTimestamp := max raw s.clock.lastTimestamp }

/-- A sequence number is taken. -/
def number (s : Clocked α) (i : ℕ) (c : ClockCall α) (data : α) (raw timestampNs : ℕ) : Clocked α :=
  { s.goOn i c (.returned raw timestampNs) with
    clock.sequence := (s.clock.sequence + 1) % 2 ^ 64
    stamped := s.stamped ++ [⟨timestampNs, s.clock.sequence, data⟩] }

/-- One step of call `i`, whose entry is `c`. -/
def stepCall (s : Clocked α) (c : ClockCall α) : Act α → Option (Clocked α)
  | .readRaw i raw => match c.pc with
    | .readRaw => some { s.goOn i c (.load raw) with raws := s.raws ++ [raw] }
    | _ => none
  | .load i => match c.pc with
    | .load raw =>
      if max raw s.clock.lastTimestamp = s.clock.lastTimestamp then
        some (s.goOn i c (c.fn.finish raw s.clock.lastTimestamp))
      else some (s.goOn i c (.exchange raw s.clock.lastTimestamp))
    | _ => none
  | .exchange i => match c.pc with
    | .exchange raw last =>
      if s.clock.lastTimestamp = last then
        some { s.goOn i c (c.fn.finish raw (max raw last)) with clock.lastTimestamp := max raw last }
      else none
    | _ => none
  | .exchangeFails i => match c.pc with
    | .exchange raw _ => some (s.goOn i c (.load raw))
    | _ => none
  | .takeSeq i => match c.pc with
    | .stamping data raw timestampNs => some (s.number i c data raw timestampNs)
    | _ => none
  | .call _ => none

/-- The call an action is a step of. -/
def Act.index : Act α → ℕ
  | .call _ => 0
  | .readRaw i _ | .load i | .exchange i | .exchangeFails i | .takeSeq i => i

/-- One step. -/
def step (s : Clocked α) : Act α → Option (Clocked α)
  | .call fn =>
    some { s with calls := s.calls ++ [⟨fn, s.returned, fn.start⟩], raws := s.raws ++ fn.given.toList }
  | a => s.calls[a.index]?.bind fun c => s.stepCall c a

/-- The machine. -/
def machine (α : Type u) : Machine (Clocked α) (Act α) where
  init s := s = new
  step := step

variable {s s' : Clocked α} {a : Act α}

/-- A load that finds a time that is no less takes effect, and stores nothing. -/
theorem settle_of_max_eq {i raw : ℕ} {c : ClockCall α}
    (h : max raw s.clock.lastTimestamp = s.clock.lastTimestamp) :
    s.goOn i c (c.fn.finish raw s.clock.lastTimestamp) = s.settle i c raw := by
  rw [settle, h]
  rfl

theorem stepCall_cases {c : ClockCall α} (h : s.stepCall c a = some s') :
    (∃ raw, c.pc = .readRaw ∧ s' = { s.goOn a.index c (.load raw) with raws := s.raws ++ [raw] }) ∨
    (∃ raw pc, c.pc.working = some raw ∧ pc.working = some raw ∧ s' = s.goOn a.index c pc) ∨
    (∃ raw, c.pc.working = some raw ∧ s' = s.settle a.index c raw) ∨
    ∃ data raw timestampNs, a = .takeSeq a.index ∧ c.pc = .stamping data raw timestampNs ∧
      s' = s.number a.index c data raw timestampNs := by
  cases a with
  | call fn => cases h
  | readRaw i raw =>
    simp only [stepCall] at h
    split at h
    · cases h
      exact .inl ⟨raw, ‹_›, rfl⟩
    · cases h
  | load i =>
    simp only [stepCall] at h
    split at h
    next raw hpc =>
      have hworking : c.pc.working = some raw := by rw [hpc]; rfl
      split_ifs at h with hmax
      · cases h
        exact .inr (.inr (.inl ⟨raw, hworking, settle_of_max_eq hmax⟩))
      · cases h
        exact .inr (.inl ⟨raw, _, hworking, rfl, rfl⟩)
    next => cases h
  | exchange i =>
    simp only [stepCall] at h
    split at h
    next raw last hpc =>
      have hworking : c.pc.working = some raw := by rw [hpc]; rfl
      obtain ⟨rfl, hs⟩ := Option.ite_none_right_eq_some.mp h
      cases hs
      exact .inr (.inr (.inl ⟨raw, hworking, rfl⟩))
    next => cases h
  | exchangeFails i =>
    simp only [stepCall] at h
    split at h
    next raw last hpc =>
      have hworking : c.pc.working = some raw := by rw [hpc]; rfl
      cases h
      exact .inr (.inl ⟨raw, _, hworking, rfl, rfl⟩)
    next => cases h
  | takeSeq i =>
    simp only [stepCall] at h
    split at h
    · cases h
      exact .inr (.inr (.inr ⟨_, _, _, rfl, ‹_›, rfl⟩))
    · cases h

/-- **What a step can be**: a call begins, reads the raw time, goes round, takes effect, or takes
its number. -/
theorem step_cases (h : s.step a = some s') :
    (∃ fn : ClockFn α, s' = { s with calls := s.calls ++ [⟨fn, s.returned, fn.start⟩]
                                     raws := s.raws ++ fn.given.toList }) ∨
    ∃ i c, s.calls[i]? = some c ∧
      ((∃ raw, c.pc = .readRaw ∧ s' = { s.goOn i c (.load raw) with raws := s.raws ++ [raw] }) ∨
       (∃ raw pc, c.pc.working = some raw ∧ pc.working = some raw ∧ s' = s.goOn i c pc) ∨
       (∃ raw, c.pc.working = some raw ∧ s' = s.settle i c raw) ∨
       ∃ data raw timestampNs, a = .takeSeq i ∧ c.pc = .stamping data raw timestampNs ∧
         s' = s.number i c data raw timestampNs) := by
  unfold step at h
  split at h
  · cases h
    exact .inl ⟨_, rfl⟩
  · obtain ⟨c, hc, hs⟩ := Option.bind_eq_some_iff.mp h
    exact .inr ⟨a.index, c, hc, stepCall_cases hs⟩

/-! ### The clock is monotone -/

/-- The time does not go back. -/
theorem lastTimestamp_step (h : s.step a = some s') : s.clock.lastTimestamp ≤ s'.clock.lastTimestamp := by
  rcases step_cases h with ⟨fn, rfl⟩ | ⟨i, c, -, ⟨raw, -, rfl⟩ | ⟨raw, pc, -, -, rfl⟩ | ⟨raw, -, rfl⟩ |
    ⟨data, raw, ts, -, -, rfl⟩⟩
  · exact le_rfl
  · exact le_rfl
  · exact le_rfl
  · exact le_max_right _ _
  · exact le_rfl

theorem lastTimestamp_steps (h : (machine α).Steps s s') : s.clock.lastTimestamp ≤ s'.clock.lastTimestamp := by
  induction h with
  | refl => exact le_rfl
  | tail _ hs ih =>
    obtain ⟨a, -, hs⟩ := hs
    exact ih.trans (lastTimestamp_step hs)

/-- What a call may hold, at a time. -/
structure CallOk (last : ℕ) (c : ClockCall α) : Prop where
  /-- The timestamps returned before it are not after the time. -/
  before_le : ∀ t ∈ c.before, t ≤ last
  /-- Its own is not before its raw time, nor before those, and not after the time. -/
  result_le : ∀ raw ts, c.pc.result = some (raw, ts) → raw ≤ ts ∧ (∀ t ∈ c.before, t ≤ ts) ∧ ts ≤ last

/-- What holds of every clock. -/
structure Inv (s : Clocked α) : Prop where
  calls_ok : ∀ c ∈ s.calls, CallOk s.clock.lastTimestamp c
  /-- A raw time that has not been passed is in the hands of a call. -/
  raws_le : ∀ raw ∈ s.raws, raw ≤ s.clock.lastTimestamp ∨ ∃ c ∈ s.calls, c.pc.working = some raw
  /-- A call works with a raw time. -/
  working_mem : ∀ c ∈ s.calls, ∀ raw, c.pc.working = some raw → raw ∈ s.raws
  /-- The time is a raw time, or zero. -/
  last_mem : s.clock.lastTimestamp = 0 ∨ s.clock.lastTimestamp ∈ s.raws

theorem result_of_working {pc : ClockPc α} {raw : ℕ} (h : pc.working = some raw) : pc.result = none := by
  cases pc <;> simp_all [ClockPc.working, ClockPc.result]

theorem result_of_timestamp {pc : ClockPc α} {ts : ℕ} (h : pc.timestamp = some ts) :
    ∃ raw, pc.result = some (raw, ts) := by
  cases pc <;> simp_all [ClockPc.timestamp, ClockPc.result]

@[simp] theorem result_finish (fn : ClockFn α) (raw ts : ℕ) : (fn.finish raw ts).result = some (raw, ts) := by
  unfold ClockFn.finish
  split <;> rfl

@[simp] theorem working_finish (fn : ClockFn α) (raw ts : ℕ) : (fn.finish raw ts).working = none := by
  unfold ClockFn.finish
  split <;> rfl

@[simp] theorem working_start (fn : ClockFn α) : fn.start.working = fn.given := by
  unfold ClockFn.start
  cases fn.given <;> rfl

@[simp] theorem result_start (fn : ClockFn α) : fn.start.result = none := by
  unfold ClockFn.start
  cases fn.given <;> rfl

/-- What has been returned is not after the time. -/
theorem Inv.returned_le (h : Inv s) : ∀ t ∈ s.returned, t ≤ s.clock.lastTimestamp := by
  intro t ht
  obtain ⟨c, hc, hts⟩ := List.mem_filterMap.mp ht
  obtain ⟨raw, hresult⟩ := result_of_timestamp hts
  exact ((h.calls_ok c hc).result_le raw t hresult).2.2

theorem CallOk.mono {last last' : ℕ} {c : ClockCall α} (h : CallOk last c) (hle : last ≤ last') :
    CallOk last' c := by
  refine ⟨fun t ht => (h.before_le t ht).trans hle, ?_⟩
  intro raw ts hresult
  obtain ⟨hraw, hbefore, hts⟩ := h.result_le raw ts hresult
  exact ⟨hraw, hbefore, hts.trans hle⟩

theorem Inv.call (h : Inv s) (fn : ClockFn α) :
    Inv { s with calls := s.calls ++ [⟨fn, s.returned, fn.start⟩], raws := s.raws ++ fn.given.toList } := by
  refine ⟨?_, ?_, ?_, ?_⟩
  · intro c hc
    rcases List.mem_append.mp hc with hc | hc
    · exact h.calls_ok c hc
    · rw [List.mem_singleton.mp hc]
      exact ⟨h.returned_le, by simp⟩
  · intro raw hraw
    rcases List.mem_append.mp hraw with hraw | hraw
    · rcases h.raws_le raw hraw with hle | ⟨c, hc, hworking⟩
      · exact .inl hle
      · exact .inr ⟨c, List.mem_append_left _ hc, hworking⟩
    · refine .inr ⟨_, List.mem_append_right _ (List.mem_singleton_self _), ?_⟩
      rw [working_start]
      exact Option.mem_toList.mp hraw
  · intro c hc raw hworking
    rcases List.mem_append.mp hc with hc | hc
    · exact List.mem_append_left _ (h.working_mem c hc raw hworking)
    · rw [List.mem_singleton.mp hc, working_start] at hworking
      exact List.mem_append_right _ (Option.mem_toList.mpr hworking)
  · exact h.last_mem.imp_right (List.mem_append_left _)

/-- A call takes a step. -/
theorem Inv.set (h : Inv s) {i : ℕ} {c : ClockCall α} (hi : s.calls[i]? = some c) {pc : ClockPc α}
    {last : ℕ} (seq : ℕ) {raws : List ℕ} (stamped : List (Timestamped α))
    (hlast : s.clock.lastTimestamp ≤ last)
    (hresult : ∀ raw ts, pc.result = some (raw, ts) → raw ≤ ts ∧ (∀ t ∈ c.before, t ≤ ts) ∧ ts ≤ last)
    (hkept : ∀ raw ∈ s.raws, raw ∈ raws) (hnew : ∀ raw ∈ raws, raw ∈ s.raws ∨ pc.working = some raw)
    (hold : ∀ raw, c.pc.working = some raw → raw ≤ last ∨ pc.working = some raw)
    (hworking : ∀ raw, pc.working = some raw → raw ∈ raws) (hmem : last = 0 ∨ last ∈ raws) :
    Inv ⟨⟨last, seq⟩, raws, s.calls.set i { c with pc }, stamped⟩ := by
  have hself : { c with pc } ∈ s.calls.set i { c with pc } :=
    List.mem_of_getElem? (Threads.getElem?_set_self hi)
  refine ⟨?_, ?_, ?_, hmem⟩
  · intro d hd
    rcases List.mem_or_eq_of_mem_set hd with hd | rfl
    · exact (h.calls_ok d hd).mono hlast
    · exact ⟨((h.calls_ok c (List.mem_of_getElem? hi)).mono hlast).before_le, hresult⟩
  · intro raw hraw
    rcases hnew raw hraw with hraw | hpc
    · rcases h.raws_le raw hraw with hle | ⟨d, hd, hdw⟩
      · exact .inl (hle.trans hlast)
      · rcases Threads.mem_set_of_mem hi hd with rfl | hd
        · exact (hold raw hdw).imp_right fun hpc => ⟨_, hself, hpc⟩
        · exact .inr ⟨d, hd, hdw⟩
    · exact .inr ⟨_, hself, hpc⟩
  · intro d hd raw hdw
    rcases List.mem_or_eq_of_mem_set hd with hd | rfl
    · exact hkept raw (h.working_mem d hd raw hdw)
    · exact hworking raw hdw

theorem Inv.step (h : Inv s) (hs : s.step a = some s') : Inv s' := by
  rcases step_cases hs with ⟨fn, rfl⟩ | ⟨i, c, hi, ⟨raw, hpc, rfl⟩ | ⟨raw, pc, hc, hpc, rfl⟩ |
    ⟨raw, hc, rfl⟩ | ⟨data, raw, ts, -, hpc, rfl⟩⟩
  · exact h.call fn
  · refine h.set hi _ _ le_rfl ?_ ?_ ?_ ?_ ?_ ?_
    · intro r ts hr
      cases hr
    · intro r hr
      exact List.mem_append_left _ hr
    · intro r hr
      rcases List.mem_append.mp hr with hr | hr
      · exact .inl hr
      · rw [List.mem_singleton.mp hr]
        exact .inr rfl
    · intro r hr
      rw [hpc] at hr
      cases hr
    · intro r hr
      cases hr
      exact List.mem_append_right _ (List.mem_singleton_self _)
    · exact h.last_mem.imp_right (List.mem_append_left _)
  · have hmem := h.working_mem c (List.mem_of_getElem? hi)
    refine h.set hi _ _ le_rfl ?_ (fun _ => id) (fun _ => .inl) ?_ ?_ h.last_mem
    · intro r ts hr
      rw [result_of_working hpc] at hr
      cases hr
    · intro r hr
      rw [hpc, ← hc]
      exact .inr hr
    · intro r hr
      rw [hpc, ← hc] at hr
      exact hmem r hr
  · have hcall := h.calls_ok c (List.mem_of_getElem? hi)
    refine h.set hi _ _ (le_max_right raw _) ?_ (fun _ => id) (fun _ => .inl) ?_ ?_ ?_
    · intro r ts hr
      rw [result_finish] at hr
      cases hr
      exact ⟨le_max_left _ _, fun t ht => (hcall.before_le t ht).trans (le_max_right _ _), le_rfl⟩
    · intro r hr
      obtain rfl := Option.some.inj (hc.symm.trans hr)
      exact .inl (le_max_left _ _)
    · intro r hr
      rw [working_finish] at hr
      cases hr
    · rcases max_choice raw s.clock.lastTimestamp with hmax | hmax
      · rw [hmax]
        exact .inr (h.working_mem c (List.mem_of_getElem? hi) raw hc)
      · rw [hmax]
        exact h.last_mem
  · have hcall := h.calls_ok c (List.mem_of_getElem? hi)
    refine h.set hi _ _ le_rfl ?_ (fun _ => id) (fun _ => .inl) ?_ ?_ h.last_mem
    · intro r t hr
      cases hr
      exact hcall.result_le raw ts (by rw [hpc]; rfl)
    · intro r hr
      rw [hpc] at hr
      cases hr
    · intro r hr
      cases hr

theorem inv_of_reach {C : Clocked α → Act α → Prop} (h : (machine α).ReachBy C s) : Inv s := by
  refine h.invariant (I := Inv) ?_ ?_
  · intro s hs
    obtain rfl := hs
    exact ⟨by simp [new], by simp [new], by simp [new], .inl rfl⟩
  · intro s a s' hs _ hstep
    exact hs.step hstep

/-- No call is in progress. -/
def AtRest (s : Clocked α) : Prop := ∀ c ∈ s.calls, c.pc.timestamp.isSome = true

theorem working_of_timestamp {pc : ClockPc α} (h : pc.timestamp.isSome = true) : pc.working = none := by
  cases pc <;> simp_all [ClockPc.timestamp, ClockPc.working]

/-! ### A call can return -/

/-- A call that is left alone takes effect. -/
theorem steps_settle {i raw : ℕ} {c : ClockCall α} (hi : s.calls[i]? = some c) (hpc : c.pc = .load raw) :
    (machine α).Steps s (s.settle i c raw) := by
  by_cases hmax : max raw s.clock.lastTimestamp = s.clock.lastTimestamp
  · refine .single ⟨.load i, trivial, ?_⟩
    show (s.calls[i]?.bind fun c => s.stepCall c (.load i)) = _
    rw [← settle_of_max_eq hmax, hi, Option.bind_some, stepCall, hpc]
    exact if_pos hmax
  · have hload : s.step (.load i) = some (s.goOn i c (.exchange raw s.clock.lastTimestamp)) := by
      show (s.calls[i]?.bind fun c => s.stepCall c (.load i)) = _
      rw [hi, Option.bind_some, stepCall, hpc]
      exact if_neg hmax
    have hset : (s.calls.set i { c with pc := .exchange raw s.clock.lastTimestamp })[i]? =
        some { c with pc := .exchange raw s.clock.lastTimestamp } := Threads.getElem?_set_self hi
    refine .tail (.single ⟨.load i, trivial, hload⟩) ⟨.exchange i, trivial, ?_⟩
    simp [machine, Clocked.step, Act.index, hset, stepCall, goOn, settle]

/-- A call has returned. -/
def HasReturned (s : Clocked α) (i : ℕ) : Prop :=
  ∃ c raw ts, s.calls[i]? = some c ∧ c.pc = .returned raw ts

theorem steps_returned_of_stamping {i raw ts : ℕ} {data : α} {c : ClockCall α}
    (hi : s.calls[i]? = some c) (hpc : c.pc = .stamping data raw ts) :
    ∃ s', (machine α).Steps s s' ∧ s'.HasReturned i := by
  refine ⟨s.number i c data raw ts, .single ⟨.takeSeq i, trivial, ?_⟩, ?_⟩
  · simp [machine, Clocked.step, Act.index, hi, stepCall, hpc]
  · exact ⟨_, raw, ts, Threads.getElem?_set_self hi, rfl⟩

theorem steps_returned_of_load {i raw : ℕ} {c : ClockCall α} (hi : s.calls[i]? = some c)
    (hpc : c.pc = .load raw) : ∃ s', (machine α).Steps s s' ∧ s'.HasReturned i := by
  have hsettle := steps_settle hi hpc
  have hi' : (s.settle i c raw).calls[i]? =
      some { c with pc := c.fn.finish raw (max raw s.clock.lastTimestamp) } := Threads.getElem?_set_self hi
  cases hdata : c.fn.data with
  | none =>
    refine ⟨_, hsettle, _, raw, max raw s.clock.lastTimestamp, hi', ?_⟩
    simp only [ClockFn.finish, hdata]
  | some data =>
    have hstamping : c.fn.finish raw (max raw s.clock.lastTimestamp) =
        .stamping data raw (max raw s.clock.lastTimestamp) := by simp only [ClockFn.finish, hdata]
    obtain ⟨s', hs', hreturned⟩ := steps_returned_of_stamping hi' hstamping
    exact ⟨s', hsettle.trans hs', hreturned⟩

/-- Every call can return. -/
theorem steps_returned {i : ℕ} {c : ClockCall α} (hi : s.calls[i]? = some c) :
    ∃ s', (machine α).Steps s s' ∧ s'.HasReturned i := by
  cases hpc : c.pc with
  | readRaw =>
    have hi' : ({ s.goOn i c (.load 0) with raws := s.raws ++ [0] } : Clocked α).calls[i]? =
        some { c with pc := .load 0 } := Threads.getElem?_set_self hi
    obtain ⟨s', hs', hreturned⟩ := steps_returned_of_load hi' rfl
    refine ⟨s', .head ⟨.readRaw i 0, trivial, ?_⟩ hs', hreturned⟩
    simp [machine, Clocked.step, Act.index, hi, stepCall, hpc]
  | load raw => exact steps_returned_of_load hi hpc
  | exchange raw last =>
    have hi' : (s.goOn i c (.load raw)).calls[i]? = some { c with pc := .load raw } :=
      Threads.getElem?_set_self hi
    obtain ⟨s', hs', hreturned⟩ := steps_returned_of_load hi' rfl
    refine ⟨s', .head ⟨.exchangeFails i, trivial, ?_⟩ hs', hreturned⟩
    simp [machine, Clocked.step, Act.index, hi, stepCall, hpc]
  | stamping data raw ts => exact steps_returned_of_stamping hi hpc
  | returned raw ts => exact ⟨s, .refl, c, raw, ts, hi, hpc⟩

/-! ### The clock is monotone for all threads -/

end Clocked

end SensorBridge.Timestamp
