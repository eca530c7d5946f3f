import SensorBridge.Foundation.Machine
import SensorBridge.Foundation.Threads
import SensorBridge.Backpressure.RateLimiter

/-!
# Refills by many threads

`refill` reads the clock, swaps the time of the last refill for what it has read, and adds
tokens for the time between the two. Any number of threads may be in it at once. The time is
shared out among them as long as they swap in the order in which they read the clock: what has
been credited and what is about to be is then the time of the last refill
(`sum_credited_le_clock`).

Nothing makes them do so. A thread that swaps late puts an earlier time back, and the time
after it is credited again (`not_forall_sum_credited_le`).
-/

namespace SensorBridge.Backpressure

open Foundation

/-- Where a thread is in `refill`. -/
inductive RefillPc where
  /-- `created.elapsed()` is next. -/
  | called
  /-- It has read `nowNs`; the swap is next. -/
  | read (nowNs : ℕ)
  /-- It has swapped an earlier time, `elapsedNs` before its own; adding tokens is next. -/
  | swapped (elapsedNs : ℕ)
  /-- It has returned. -/
  | returned
  deriving DecidableEq

/-- What a thread is about to credit. -/
@[simp] def RefillPc.pending : RefillPc → ℕ
  | .swapped elapsedNs => elapsedNs
  | _ => 0

/-- A limiter being refilled. -/
structure Refilling where
  /-- The limiter. -/
  limiter : RateLimiter
  /-- The largest value of the clock that was read. -/
  clock : ℕ
  /-- The calls, in the order in which they began. -/
  calls : List RefillPc
  /-- The intervals for which tokens were added. -/
  credited : List ℕ

namespace Refilling

/-- What can happen next. -/
inductive Act where
  /-- A thread calls `refill`. -/
  | call
  /-- Call `i` reads the clock. -/
  | readClock (i nowNs : ℕ)
  /-- Call `i` swaps the time of the last refill. -/
  | swap (i : ℕ)
  /-- Call `i` adds its tokens. -/
  | addTokens (i : ℕ)

/-- `last_update_ns.swap(now_ns)`, and the return when no time has passed. -/
def swapLast (s : Refilling) (i nowNs : ℕ) : Refilling :=
  { s with limiter.lastUpdateNs := nowNs
           calls := s.calls.set i (if nowNs ≤ s.limiter.lastUpdateNs then .returned
                                   else .swapped (nowNs - s.limiter.lastUpdateNs)) }

/-- The tokens for an interval are added. -/
def addInterval (s : Refilling) (i elapsedNs : ℕ) : Refilling :=
  { s with limiter.tokensFp := RateLimiter.credit s.limiter.config elapsedNs s.limiter.tokensFp
           calls := s.calls.set i .returned
           credited := s.credited ++ [elapsedNs] }

/-- One step. The clock does not go back. -/
def step (s : Refilling) : Act → Option Refilling
  | .call => some { s with calls := s.calls ++ [.called] }
  | .readClock i nowNs => match s.calls[i]? with
    | some .called =>
      if s.clock ≤ nowNs then some { s with clock := nowNs, calls := s.calls.set i (.read nowNs) } else none
    | _ => none
  | .swap i => match s.calls[i]? with
    | some (.read nowNs) => some (s.swapLast i nowNs)
    | _ => none
  | .addTokens i => match s.calls[i]? with
    | some (.swapped elapsedNs) => some (s.addInterval i elapsedNs)
    | _ => none

/-- The machine, from a fresh limiter. -/
def machine (config : RateLimiterConfig) : Machine Refilling Act where
  init s := s = ⟨.new config, 0, [], []⟩
  step := step

/-- **What it takes of a step**: a thread swaps only a time that is not after its own. -/
def inOrder (s : Refilling) : Act → Bool
  | .swap i => match s.calls[i]? with
    | some (.read nowNs) => decide (s.limiter.lastUpdateNs ≤ nowNs)
    | _ => true
  | _ => true

variable {config : RateLimiterConfig} {s s' : Refilling} {a : Act}

/-- **What a step can be.** -/
theorem step_cases (h : s.step a = some s') :
    (a = .call ∧ s' = { s with calls := s.calls ++ [.called] }) ∨
    (∃ i nowNs, a = .readClock i nowNs ∧ s.calls[i]? = some .called ∧ s.clock ≤ nowNs ∧
      s' = { s with clock := nowNs, calls := s.calls.set i (.read nowNs) }) ∨
    (∃ i nowNs, a = .swap i ∧ s.calls[i]? = some (.read nowNs) ∧ s' = s.swapLast i nowNs) ∨
    ∃ i elapsedNs, a = .addTokens i ∧ s.calls[i]? = some (.swapped elapsedNs) ∧
      s' = s.addInterval i elapsedNs := by
  cases a with
  | call =>
    cases h
    exact .inl ⟨rfl, rfl⟩
  | readClock i nowNs =>
    simp only [step] at h
    split at h
    · obtain ⟨hle, hs⟩ := Option.ite_none_right_eq_some.mp h
      exact .inr (.inl ⟨i, nowNs, rfl, ‹_›, hle, (Option.some.inj hs).symm⟩)
    · cases h
  | swap i =>
    simp only [step] at h
    split at h
    · cases h
      exact .inr (.inr (.inl ⟨i, _, rfl, ‹_›, rfl⟩))
    · cases h
  | addTokens i =>
    simp only [step] at h
    split at h
    · cases h
      exact .inr (.inr (.inr ⟨i, _, rfl, ‹_›, rfl⟩))
    · cases h

/-! ### Time is credited once -/

/-- What is about to be credited. -/
def pending (s : Refilling) : ℕ := (s.calls.map RefillPc.pending).sum

/-- What holds as long as the threads swap in order. -/
structure Inv (s : Refilling) : Prop where
  /-- The time up to the last refill is shared out. -/
  sum_eq : s.credited.sum + s.pending = s.limiter.lastUpdateNs
  /-- The last refill is not after the clock. -/
  last_le : s.limiter.lastUpdateNs ≤ s.clock
  /-- No thread has read more than the clock. -/
  read_le : ∀ nowNs, .read nowNs ∈ s.calls → nowNs ≤ s.clock

theorem pending_set {i : ℕ} {pc : RefillPc} (h : s.calls[i]? = some pc) (pc' : RefillPc) :
    ((s.calls.set i pc').map RefillPc.pending).sum + pc.pending = s.pending + pc'.pending :=
  Threads.sum_map_set_eq _ h

theorem Inv.call (h : Inv s) : Inv { s with calls := s.calls ++ [.called] } := by
  refine ⟨?_, h.last_le, ?_⟩
  · simpa [pending] using h.sum_eq
  · intro now hmem
    exact h.read_le now (by simpa using hmem)

theorem Inv.readClock (h : Inv s) {i nowNs : ℕ} (hi : s.calls[i]? = some .called)
    (hle : s.clock ≤ nowNs) : Inv { s with clock := nowNs, calls := s.calls.set i (.read nowNs) } := by
  refine ⟨?_, h.last_le.trans hle, ?_⟩
  · have hpending := pending_set hi (.read nowNs)
    exact (congrArg (s.credited.sum + ·) hpending).trans h.sum_eq
  · intro now hmem
    rcases List.mem_or_eq_of_mem_set hmem with hmem | heq
    · exact (h.read_le now hmem).trans hle
    · exact (RefillPc.read.inj heq).le

/-- The time a swap hands to the thread that makes it. -/
theorem pending_swapLast {i nowNs : ℕ} (hi : s.calls[i]? = some (.read nowNs)) :
    (s.swapLast i nowNs).pending = s.pending + (nowNs - s.limiter.lastUpdateNs) := by
  have hpending := pending_set hi
    (if nowNs ≤ s.limiter.lastUpdateNs then .returned else .swapped (nowNs - s.limiter.lastUpdateNs))
  refine hpending.trans (congrArg (s.pending + ·) ?_)
  split_ifs with hle
  · exact (Nat.sub_eq_zero_of_le hle).symm
  · rfl

theorem Inv.swapLast (h : Inv s) {i nowNs : ℕ} (hi : s.calls[i]? = some (.read nowNs))
    (hle : s.limiter.lastUpdateNs ≤ nowNs) : Inv (s.swapLast i nowNs) := by
  refine ⟨?_, h.read_le nowNs (List.mem_of_getElem? hi), ?_⟩
  · have hsum := h.sum_eq
    rw [pending_swapLast hi]
    show s.credited.sum + _ = nowNs
    omega
  · intro now hmem
    rcases List.mem_or_eq_of_mem_set hmem with hmem | heq
    · exact h.read_le now hmem
    · split_ifs at heq

/-- What was about to be credited is. -/
theorem Inv.addInterval (h : Inv s) {i elapsedNs : ℕ} (hi : s.calls[i]? = some (.swapped elapsedNs)) :
    Inv (s.addInterval i elapsedNs) := by
  refine ⟨?_, h.last_le, ?_⟩
  · have hsum := h.sum_eq
    have hpending := pending_set hi .returned
    simp only [RefillPc.pending] at hpending
    show (s.credited ++ [elapsedNs]).sum + ((s.calls.set i .returned).map RefillPc.pending).sum = _
    rw [List.sum_append, List.sum_singleton]
    show _ = s.limiter.lastUpdateNs
    omega
  · intro now hmem
    rcases List.mem_or_eq_of_mem_set hmem with hmem | heq
    · exact h.read_le now hmem
    · cases heq

theorem Inv.step (h : Inv s) (hc : s.inOrder a = true) (hs : s.step a = some s') : Inv s' := by
  rcases step_cases hs with ⟨-, rfl⟩ | ⟨i, now, -, hi, hle, rfl⟩ | ⟨i, now, rfl, hi, rfl⟩ |
    ⟨i, elapsed, -, hi, rfl⟩
  · exact h.call
  · exact h.readClock hi hle
  · simp only [inOrder, hi, decide_eq_true_eq] at hc
    exact h.swapLast hi hc
  · exact h.addInterval hi

/-- **Time is credited at most once** when the threads swap in the order in which they read. -/
theorem sum_credited_le_clock (config : RateLimiterConfig) (s : Refilling)
    (h : (machine config).ReachBy (fun s a => s.inOrder a = true) s) : s.credited.sum ≤ s.clock := by
  have hinv : Inv s := by
    refine h.invariant ?_ ?_
    · intro s hs
      obtain rfl := hs
      exact ⟨rfl, le_rfl, by simp⟩
    · intro s a s' hs hc hstep
      exact hs.step hc hstep
  have hsum := hinv.sum_eq
  have hlast := hinv.last_le
  omega

/-- Two threads swap in order, and a third after them. -/
theorem sum_credited_le_clock_shared : ∃ s, (machine .default).ReachBy (fun s a => s.inOrder a = true) s ∧
    s.credited = [10000000, 90000000, 1000000] ∧ s.credited.sum ≤ s.clock := by
  obtain ⟨s, hs, htest⟩ := Machine.exists_reachBy_of_runBy (M := machine .default)
    (C := fun s a => s.inOrder a = true) rfl
    [.call, .call, .call, .readClock 0 10000000, .readClock 1 100000000, .swap 0, .swap 1, .addTokens 0,
      .addTokens 1, .readClock 2 101000000, .swap 2, .addTokens 2]
    (fun s => decide (s.credited = [10000000, 90000000, 1000000])) (by decide +kernel)
  exact ⟨s, hs, of_decide_eq_true htest, sum_credited_le_clock .default s hs⟩

/-- A thread reads 10 ms, another reads 100 ms and swaps; when the first swaps after it, a third
at 101 ms is credited the 90 ms again. -/
theorem not_forall_sum_credited_le : ¬ ∀ (config : RateLimiterConfig) (s : Refilling),
    (machine config).Reach s → s.credited.sum ≤ s.clock := by
  intro h
  obtain ⟨s, hs, htest⟩ := Machine.exists_reach_of_run (M := machine .default) rfl
    [.call, .call, .call, .readClock 0 10000000, .readClock 1 100000000, .swap 1, .addTokens 1, .swap 0,
      .readClock 2 101000000, .swap 2, .addTokens 2]
    (fun s => decide (s.clock < s.credited.sum)) (by decide +kernel)
  exact (of_decide_eq_true htest).not_ge (h .default s hs)

/-! ### One call -/

/-- A call that no other thread interrupts is `RateLimiter::refill`. -/
theorem run_refill (s : Refilling) {nowNs : ℕ} (hnow : s.clock ≤ nowNs) :
    ∃ as s', (machine config).run s as = some s' ∧ s'.limiter = s.limiter.refill nowNs := by
  by_cases hle : nowNs ≤ s.limiter.lastUpdateNs
  · refine ⟨[.call, .readClock s.calls.length nowNs, .swap s.calls.length], ?_⟩
    simp [Machine.run, machine, Refilling.step, hnow, Refilling.swapLast, RateLimiter.refill, hle]
  · refine ⟨[.call, .readClock s.calls.length nowNs, .swap s.calls.length, .addTokens s.calls.length], ?_⟩
    simp [Machine.run, machine, Refilling.step, hnow, Refilling.swapLast, Refilling.addInterval,
      RateLimiter.refill, hle]

end Refilling

end SensorBridge.Backpressure
