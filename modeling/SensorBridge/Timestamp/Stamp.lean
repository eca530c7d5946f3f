import SensorBridge.Timestamp.Clock

/-!
# Timestamps and sequence numbers

`stamp` and `stamp_with_time` take a timestamp from the clock, and then a sequence number from
a counter. The numbers should order the values as their timestamps do (`Agrees`). They do for
one thread; but between its two steps a thread can be overtaken by one that has a later
timestamp and takes the earlier number (`not_forall_stamps_agree`). They do for any number of threads
as long as none takes its number while another still waits for one with an earlier timestamp
(`agrees_of_inTurn`).
-/

namespace SensorBridge.Timestamp

open Foundation

universe u

variable {α : Type u}

/-- The timestamp of a call that is about to take a number. -/
def ClockPc.unnumbered : ClockPc α → Option ℕ
  | stamping _ _ timestampNs => some timestampNs
  | _ => none

namespace Clocked

/-- **Numbers and timestamps agree**: the numbers handed out are those from zero on, and a value
with an earlier number has no later timestamp. -/
def Agrees (s : Clocked α) : Prop :=
  s.stamped.map Timestamped.seq = List.range s.stamped.length ∧
    ∀ a ∈ s.stamped, ∀ b ∈ s.stamped, a.seq < b.seq → a.timestampNs ≤ b.timestampNs

/-- **What it takes of a step**: a thread takes a number when no other waits for one with an
earlier timestamp, and fewer than 2⁶⁴ have been taken. -/
def inTurn (s : Clocked α) : Act α → Bool
  | .takeSeq i => match s.calls[i]?.bind fun c => c.pc.unnumbered with
    | some timestampNs => decide (s.stamped.length < 2 ^ 64) &&
        s.calls.all fun c => c.pc.unnumbered.all fun other => decide (timestampNs ≤ other)
    | none => true
  | _ => true

variable {s s' : Clocked α} {a : Act α}

/-- What holds as long as the numbers are taken in turn. -/
structure StampInv (s : Clocked α) : Prop where
  sequence_eq : s.clock.sequence = s.stamped.length % 2 ^ 64
  seq_eq : s.stamped.map Timestamped.seq = List.range s.stamped.length
  /-- The timestamps are in order. -/
  sorted : s.stamped.Pairwise fun a b => a.timestampNs ≤ b.timestampNs
  /-- None is after the time. -/
  stamped_le : ∀ a ∈ s.stamped, a.timestampNs ≤ s.clock.lastTimestamp
  /-- None is after one that waits for a number. -/
  unnumbered_ge : ∀ a ∈ s.stamped, ∀ c ∈ s.calls, ∀ ts, c.pc.unnumbered = some ts → a.timestampNs ≤ ts

theorem unnumbered_of_working {pc : ClockPc α} {raw : ℕ} (h : pc.working = some raw) :
    pc.unnumbered = none := by
  cases pc <;> simp_all [ClockPc.working, ClockPc.unnumbered]

theorem unnumbered_finish {fn : ClockFn α} {raw ts t : ℕ} (h : (fn.finish raw ts).unnumbered = some t) :
    t = ts := by
  unfold ClockFn.finish at h
  split at h <;> cases h
  rfl

theorem unnumbered_start (fn : ClockFn α) : fn.start.unnumbered = none := by
  unfold ClockFn.start
  split <;> rfl

/-- A call takes a step other than taking its number. -/
theorem StampInv.set (h : StampInv s) {i : ℕ} {c : ClockCall α} {pc : ClockPc α} {last : ℕ} {raws : List ℕ}
    (hlast : s.clock.lastTimestamp ≤ last) (hpc : ∀ ts, pc.unnumbered = some ts → last ≤ ts) :
    StampInv ⟨⟨last, s.clock.sequence⟩, raws, s.calls.set i { c with pc }, s.stamped⟩ := by
  refine ⟨h.sequence_eq, h.seq_eq, h.sorted, fun a ha => (h.stamped_le a ha).trans hlast, ?_⟩
  intro a ha d hd ts hts
  rcases List.mem_or_eq_of_mem_set hd with hd | rfl
  · exact h.unnumbered_ge a ha d hd ts hts
  · exact (h.stamped_le a ha).trans (hlast.trans (hpc ts hts))

/-- A call takes its number in turn. -/
theorem StampInv.number (h : StampInv s) (hinv : Inv s) {i raw ts : ℕ} {c : ClockCall α} {data : α}
    (hi : s.calls[i]? = some c) (hpc : c.pc = .stamping data raw ts) (hlen : s.stamped.length < 2 ^ 64)
    (hturn : ∀ d ∈ s.calls, ∀ t, d.pc.unnumbered = some t → ts ≤ t) :
    StampInv (s.number i c data raw ts) := by
  have hc := List.mem_of_getElem? hi
  have hseq : s.clock.sequence = s.stamped.length := by rw [h.sequence_eq, Nat.mod_eq_of_lt hlen]
  have hts : ts ≤ s.clock.lastTimestamp :=
    ((hinv.calls_ok c hc).result_le raw ts (by rw [hpc]; rfl)).2.2
  have hle : ∀ a ∈ s.stamped, a.timestampNs ≤ ts := by
    intro a ha
    exact h.unnumbered_ge a ha c hc ts (by rw [hpc]; rfl)
  refine ⟨?_, ?_, ?_, ?_, ?_⟩
  · show (s.clock.sequence + 1) % 2 ^ 64 = (s.stamped ++ [_]).length % 2 ^ 64
    rw [hseq, List.length_append, List.length_singleton]
  · show (s.stamped ++ [_]).map Timestamped.seq = List.range (s.stamped ++ [_]).length
    rw [List.map_append, List.length_append, List.length_singleton, List.range_succ, h.seq_eq, ← hseq]
    rfl
  · refine List.pairwise_append.mpr ⟨h.sorted, List.pairwise_singleton _ _, ?_⟩
    intro a ha b hb
    rw [List.mem_singleton.mp hb]
    exact hle a ha
  · intro a ha
    rcases List.mem_append.mp ha with ha | ha
    · exact h.stamped_le a ha
    · rw [List.mem_singleton.mp ha]
      exact hts
  · intro a ha d hd t ht
    rcases List.mem_or_eq_of_mem_set hd with hd | rfl
    · rcases List.mem_append.mp ha with ha | ha
      · exact h.unnumbered_ge a ha d hd t ht
      · rw [List.mem_singleton.mp ha]
        exact hturn d hd t ht
    · cases ht

theorem StampInv.step (h : StampInv s) (hinv : Inv s) (hc : s.inTurn a = true) (hs : s.step a = some s') :
    StampInv s' := by
  rcases step_cases hs with ⟨fn, rfl⟩ | ⟨i, c, hi, ⟨raw, hpc, rfl⟩ | ⟨raw, pc, -, hpc, rfl⟩ |
    ⟨raw, -, rfl⟩ | ⟨data, raw, ts, rfl, hpc, rfl⟩⟩
  · refine ⟨h.sequence_eq, h.seq_eq, h.sorted, h.stamped_le, ?_⟩
    intro b hb d hd ts hts
    rcases List.mem_append.mp hd with hd | hd
    · exact h.unnumbered_ge b hb d hd ts hts
    · rw [List.mem_singleton.mp hd, unnumbered_start] at hts
      cases hts
  · refine h.set le_rfl ?_
    intro ts hts
    cases hts
  · refine h.set le_rfl ?_
    intro ts hts
    rw [unnumbered_of_working hpc] at hts
    cases hts
  · refine h.set (le_max_right _ _) ?_
    intro ts hts
    exact (unnumbered_finish hts).ge
  · have hts : (s.calls[i]?.bind fun c => c.pc.unnumbered) = some ts := by
      rw [hi, Option.bind_some, hpc]
      rfl
    simp only [inTurn, hts, Bool.and_eq_true, decide_eq_true_eq, List.all_eq_true, Option.all_eq_true] at hc
    exact h.number hinv hi hpc hc.1 hc.2

theorem StampInv.agrees (h : StampInv s) : Agrees s := by
  refine ⟨h.seq_eq, ?_⟩
  intro a ha b hb hlt
  have hseq : ∀ i (hi : i < s.stamped.length), (s.stamped[i]).seq = i := by
    intro i hi
    have hmap := congrArg (·[i]?) h.seq_eq
    simpa [hi] using hmap
  obtain ⟨i, hi, rfl⟩ := List.mem_iff_getElem.mp ha
  obtain ⟨j, hj, rfl⟩ := List.mem_iff_getElem.mp hb
  rw [hseq i hi, hseq j hj] at hlt
  exact List.pairwise_iff_getElem.mp h.sorted i j hi hj hlt

/-- **Numbers and timestamps agree** when the numbers are taken in turn. -/
theorem agrees_of_inTurn (s : Clocked α) (h : (machine α).ReachBy (fun s a => s.inTurn a = true) s) :
    Agrees s := by
  have hboth : Inv s ∧ StampInv s := by
    refine h.invariant (I := fun s => Inv s ∧ StampInv s) ?_ ?_
    · intro s hs
      refine ⟨inv_of_reach (.start hs : (machine α).Reach s), ?_⟩
      obtain rfl := hs
      exact ⟨rfl, rfl, .nil, by simp [new], by simp [new]⟩
    · intro s a s' hs hc hstep
      obtain ⟨hinv, hstamp⟩ := hs
      exact ⟨hinv.step hstep, hstamp.step hinv hc hstep⟩
  exact hboth.2.agrees

/-- Two threads that both have a timestamp take their numbers in turn. -/
theorem agrees_of_inTurn_shared :
    ∃ s, (machine Char).ReachBy (fun s a => s.inTurn a = true) s ∧ Agrees s ∧
      s.stamped = [⟨10, 0, 'a'⟩, ⟨20, 1, 'b'⟩] := by
  obtain ⟨s, hs, htest⟩ := Machine.exists_reachBy_of_runBy (M := machine Char)
    (C := fun s a => s.inTurn a = true) (s := new) rfl
    [.call (.stampWithTime 'a' 10), .call (.stampWithTime 'b' 20), .load 0, .exchange 0, .load 1,
      .exchange 1, .takeSeq 0, .takeSeq 1]
    (fun s => decide (s.stamped = [⟨10, 0, 'a'⟩, ⟨20, 1, 'b'⟩])) (by decide)
  exact ⟨s, hs, agrees_of_inTurn s hs, of_decide_eq_true htest⟩

/-- The thread with the later timestamp takes the earlier number. -/
theorem not_forall_stamps_agree : ¬ ∀ s : Clocked Char, (machine Char).Reach s → Agrees s := by
  intro h
  obtain ⟨s, hs, htest⟩ := Machine.exists_reach_of_run (M := machine Char) (s := new) rfl
    [.call (.stampWithTime 'a' 10), .call (.stampWithTime 'b' 20), .load 0, .exchange 0, .load 1,
      .exchange 1, .takeSeq 1, .takeSeq 0]
    (fun s => decide (s.stamped = [⟨20, 0, 'b'⟩, ⟨10, 1, 'a'⟩])) (by decide)
  have hle := (h s hs).2 ⟨20, 0, 'b'⟩ (by simp [of_decide_eq_true htest]) ⟨10, 1, 'a'⟩
    (by simp [of_decide_eq_true htest]) (by decide)
  revert hle
  decide

end Clocked

end SensorBridge.Timestamp
