import SensorBridge.Timestamp.Clock

/-!
# The clock of one thread

A sensor has its clock to itself. Then the loop of `now_ns` goes round once, and `stamp` is a
function of the clock and the raw time: `run_stamp` says that an uninterrupted call on the shared
clock does just that. `reset_seq` begins the numbers again, and leaves the time.
-/

namespace SensorBridge.Timestamp

open Foundation Foundation.Threads

universe u

variable {α : Type u}

namespace MonotonicClock

/-- `stamp`, where `raw` is what `epoch.elapsed()` is. -/
def stamp (clock : MonotonicClock) (raw : ℕ) (data : α) : MonotonicClock × Timestamped α :=
  (⟨max raw clock.lastTimestamp, (clock.sequence + 1) % 2 ^ 64⟩,
    ⟨max raw clock.lastTimestamp, clock.sequence, data⟩)

/-- `reset_seq`. -/
def resetSeq (clock : MonotonicClock) : MonotonicClock := { clock with sequence := 0 }

end MonotonicClock

namespace Timestamped

/-- `time_since`. -/
def timeSince (t other : Timestamped α) : Option ℕ :=
  if other.timestampNs ≤ t.timestampNs then some (t.timestampNs - other.timestampNs) else none

/-- `dropped_since`. -/
def droppedSince (t : Timestamped α) (expectedSeq : ℕ) : ℕ := t.seq - expectedSeq

end Timestamped

namespace Clocked

/-- **A call of `stamp` that nobody interrupts is `MonotonicClock.stamp`.** -/
theorem run_stamp (s : Clocked α) (raw : ℕ) (data : α) : ∃ as s', (machine α).run s as = some s' ∧
    s'.clock = (s.clock.stamp raw data).1 ∧ s'.stamped = s.stamped ++ [(s.clock.stamp raw data).2] := by
  have hset : ∀ c c' : ClockCall α, (s.calls ++ [c]).set s.calls.length c' = s.calls ++ [c'] := by
    intro c c'
    rw [List.set_append_right _ _ le_rfl, Nat.sub_self]
    rfl
  let call : Act α := .call (.stamp data)
  let i := s.calls.length
  by_cases hle : raw ≤ s.clock.lastTimestamp
  · refine ⟨[call, .readRaw i raw, .load i, .takeSeq i], ⟨(s.clock.stamp raw data).1, s.raws ++ [raw],
      s.calls ++ [⟨.stamp data, s.returned, .returned raw s.clock.lastTimestamp⟩],
      s.stamped ++ [(s.clock.stamp raw data).2]⟩, ?_, rfl, rfl⟩
    simp [Machine.run, machine, call, i, Act.index, step, stepCall, goOn, ClockFn.start, ClockFn.given,
      ClockFn.finish, ClockFn.data, number, hset, hle, MonotonicClock.stamp]
  · refine ⟨[call, .readRaw i raw, .load i, .exchange i, .takeSeq i], ⟨(s.clock.stamp raw data).1, s.raws ++ [raw],
      s.calls ++ [⟨.stamp data, s.returned, .returned raw (max raw s.clock.lastTimestamp)⟩],
      s.stamped ++ [(s.clock.stamp raw data).2]⟩, ?_, rfl, rfl⟩
    simp [Machine.run, machine, call, i, Act.index, step, stepCall, goOn, ClockFn.start, ClockFn.given,
      ClockFn.finish, ClockFn.data, number, hset, hle, MonotonicClock.stamp]

end Clocked

end SensorBridge.Timestamp
