import SensorBridge.Buffer.Spsc
import SensorBridge.Foundation.Gaps
import SensorBridge.Timestamp.Single

/-!
# A sensor, its buffer and a consumer

A driver thread samples a sensor, which stamps the reading with its own clock, and pushes what it gets
into a ring buffer; when the buffer is full the sample is dropped. A consumer pops. It can tell from
the sequence numbers what it has missed, by asking each sample for `dropped_since` of the number it
expects. In every interleaving that is right: the samples arrive in order of number and time, each
one that does not is in the buffer, on its way into it or was refused, and what the consumer has
counted is how many refused ones were taken before the last that it got (`detects_of_reach`).
-/

namespace SensorBridge.Sensor

open Foundation Buffer RingBuffer Timestamp

universe u

variable {α : Type u} {N : ℕ}

/-- A driver, its sensor's clock, the buffer and the consumer. -/
structure Driver (α : Type u) where
  clock : MonotonicClock
  /-- The buffer, the driver's push and the consumer's pop. -/
  spsc : Spsc (Timestamped α)
  /-- The samples taken. -/
  samples : List (Timestamped α)

/-- What a consumer has missed that expects this number next. -/
def missed : ℕ → List (Timestamped α) → ℕ
  | _, [] => 0
  | expectedSeq, t :: ts => t.droppedSince expectedSeq + missed (t.seq + 1) ts

namespace Driver

/-- What can happen next. -/
inductive Act (α : Type u) where
  /-- The driver samples the sensor at this time, and begins to push what it gets. -/
  | sample (raw : ℕ) (reading : α)
  /-- The driver's next step in the push. -/
  | producer
  /-- The consumer begins to pop. -/
  | pop
  /-- The consumer's next step in the pop. -/
  | consumer

/-- One step. -/
def step (N : ℕ) (s : Driver α) : Act α → Option (Driver α)
  | .sample raw reading =>
    (s.spsc.step N (.push (s.clock.stamp raw reading).2)).map fun spsc =>
      ⟨(s.clock.stamp raw reading).1, spsc, s.samples ++ [(s.clock.stamp raw reading).2]⟩
  | .producer => (s.spsc.step N .producer).map fun spsc => { s with spsc }
  | .pop => (s.spsc.step N .pop).map fun spsc => { s with spsc }
  | .consumer => (s.spsc.step N .consumer).map fun spsc => { s with spsc }

/-- A new sensor and a new buffer. -/
def new : Driver α := ⟨.new, .new, []⟩

/-- The machine. -/
def machine (N : ℕ) (α : Type u) : Machine (Driver α) (Act α) where
  init := (· = new)
  step := step N

/-- The sample in the push. -/
def pushing (s : Driver α) : List (Timestamped α) := match s.spsc.push with
  | .idle => []
  | .loadedHead t _ | .checked t _ | .written t _ => [t]

/-- What a push gives back. -/
def refusal? : Except (Timestamped α) Unit → Option (Timestamped α)
  | .ok () => none
  | .error t => some t

/-- The samples that were refused. -/
def refused (s : Driver α) : List (Timestamped α) := s.spsc.pushResults.filterMap refusal?

/-- The number the consumer expects. -/
def expectedSeq (s : Driver α) : ℕ := expectedAfter 0 (s.spsc.popped.map Timestamped.seq)

/-- **The consumer can tell what it has missed.** -/
structure Detects (s : Driver α) : Prop where
  /-- The samples come in order of number. -/
  seq_lt : (s.spsc.popped.map Timestamped.seq).Pairwise (· < ·)
  /-- And in order of time. -/
  timestampNs_le : (s.spsc.popped.map Timestamped.timestampNs).Pairwise (· ≤ ·)
  /-- Each sample has come, is waiting, is being pushed or was refused. -/
  samples_perm : (s.spsc.popped ++ s.spsc.waiting ++ s.pushing ++ s.refused).Perm s.samples
  /-- What the consumer has missed is what was refused before the last that came. -/
  missed_eq : missed 0 s.spsc.popped = s.refused.countP fun t => t.seq < s.expectedSeq

/-! ### The invariant -/

/-- The samples are numbered and in order of time; each is accepted, being pushed or refused, and the
first two are in the order in which they were taken. -/
structure Inv (s : Driver α) : Prop where
  sequence_eq : s.clock.sequence = s.samples.length % 2 ^ 64
  seq_eq : s.samples.map Timestamped.seq = (List.range s.samples.length).map (· % 2 ^ 64)
  timestampNs_le : (s.samples.map Timestamped.timestampNs).Pairwise (· ≤ ·)
  le_lastTimestamp : ∀ t ∈ s.samples, t.timestampNs ≤ s.clock.lastTimestamp
  perm : (s.spsc.accepted ++ s.pushing ++ s.refused).Perm s.samples
  sublist : List.Sublist (s.spsc.accepted ++ s.pushing) s.samples

/-- What a step of the buffer does to the samples in it. -/
inductive Moves (s s' : Driver α) : Prop
  | same : s'.spsc.accepted = s.spsc.accepted → s'.pushing = s.pushing → s'.refused = s.refused → Moves s s'
  | accepts (t : Timestamped α) : s.pushing = [t] → s'.spsc.accepted = s.spsc.accepted ++ [t] → s'.pushing = [] →
      s'.refused = s.refused → Moves s s'
  | refuses (t : Timestamped α) : s.pushing = [t] → s'.spsc.accepted = s.spsc.accepted → s'.pushing = [] →
      s'.refused = s.refused ++ [t] → Moves s s'

variable {s s' : Driver α}

theorem refused_concat (results : List (Except (Timestamped α) Unit)) (r : Except (Timestamped α) Unit) :
    (results ++ [r]).filterMap refusal? = results.filterMap refusal? ++ (refusal? r).toList := by
  rw [List.filterMap_append]
  rcases r with t | ⟨⟨⟩⟩ <;> rfl

theorem moves_of_step {spsc : Spsc (Timestamped α)} {a : Spsc.Act (Timestamped α)} (ha : ∀ t, a ≠ .push t)
    (h : s.spsc.step N a = some spsc) : Moves s { s with spsc } := by
  cases Spsc.step_cases h with
  | push t => exact absurd rfl (ha t)
  | full hp hfull =>
    refine .refuses _ ?_ rfl rfl (refused_concat _ _)
    rw [pushing, hp]
  | publish hp =>
    refine .accepts _ ?_ rfl rfl ((refused_concat _ _).trans (List.append_nil _))
    rw [pushing, hp]
  | room hp | write hp =>
    refine .same rfl ?_ rfl
    simp only [pushing, hp]
  | pop | empty | item | read | release => exact .same rfl rfl rfl

theorem Inv.moves (h : Inv s) {spsc : Spsc (Timestamped α)} (hm : Moves s { s with spsc }) : Inv { s with spsc } := by
  have hperm := h.perm
  have hsublist := h.sublist
  refine ⟨h.sequence_eq, h.seq_eq, h.timestampNs_le, h.le_lastTimestamp, ?_, ?_⟩
  · cases hm with
    | same haccepted hpushing hrefused =>
      rw [haccepted, hpushing, hrefused]
      exact hperm
    | accepts t ht haccepted hpushing hrefused =>
      rw [haccepted, hpushing, hrefused, List.append_nil, ← ht]
      exact hperm
    | refuses t ht haccepted hpushing hrefused =>
      rw [ht, List.append_assoc] at hperm
      rw [haccepted, hpushing, hrefused, List.append_nil]
      exact (List.Perm.append_left _ List.perm_append_comm).trans hperm
  · cases hm with
    | same haccepted hpushing hrefused =>
      rw [haccepted, hpushing]
      exact hsublist
    | accepts t ht haccepted hpushing hrefused =>
      rw [haccepted, hpushing, List.append_nil, ← ht]
      exact hsublist
    | refuses t ht haccepted hpushing hrefused =>
      rw [haccepted, hpushing, List.append_nil]
      exact (List.sublist_append_left _ _).trans hsublist

/-- The driver takes a sample. -/
theorem Inv.sample (h : Inv s) {raw : ℕ} {reading : α} {spsc : Spsc (Timestamped α)}
    (hs : s.spsc.step N (.push (s.clock.stamp raw reading).2) = some spsc) :
    Inv ⟨(s.clock.stamp raw reading).1, spsc, s.samples ++ [(s.clock.stamp raw reading).2]⟩ := by
  cases Spsc.step_cases hs with
  | push t hidle =>
    have hpushing : s.pushing = [] := by rw [pushing, hidle]
    have hperm := h.perm
    have hsublist := h.sublist
    rw [hpushing, List.append_nil] at hperm hsublist
    refine ⟨?_, ?_, ?_, ?_, ?_, hsublist.append_right _⟩
    · show (s.clock.sequence + 1) % 2 ^ 64 = _
      rw [h.sequence_eq, Nat.mod_add_mod, List.length_append, List.length_singleton]
    · rw [List.map_append, h.seq_eq, List.length_append, List.length_singleton, List.range_succ, List.map_append,
        List.map_singleton, List.map_singleton, ← h.sequence_eq]
      rfl
    · rw [List.map_append]
      refine List.pairwise_append.2 ⟨h.timestampNs_le, List.pairwise_singleton _ _, ?_⟩
      intro x hx y hy
      obtain ⟨t, ht, rfl⟩ := List.mem_map.1 hx
      obtain rfl := List.mem_singleton.1 hy
      exact (h.le_lastTimestamp t ht).trans (le_max_right _ _)
    · intro t ht
      rcases List.mem_append.1 ht with ht | ht
      · exact (h.le_lastTimestamp t ht).trans (le_max_right _ _)
      · rw [List.mem_singleton.1 ht]
        exact le_rfl
    · show (s.spsc.accepted ++ [_] ++ s.refused).Perm _
      rw [List.append_assoc]
      refine (List.Perm.append_left _ List.perm_append_comm).trans ?_
      rw [← List.append_assoc]
      exact hperm.append_right _

theorem Inv.step (h : Inv s) {a : Act α} (hs : s.step N a = some s') : Inv s' := by
  cases a with
  | sample raw reading =>
    obtain ⟨spsc, hspsc, rfl⟩ := Option.map_eq_some_iff.1 hs
    exact h.sample hspsc
  | producer | pop | consumer =>
    obtain ⟨spsc, hspsc, rfl⟩ := Option.map_eq_some_iff.1 hs
    exact h.moves (moves_of_step (by simp) hspsc)

theorem inv_of_reach (h : (machine N α).Reach s) : Inv s := by
  refine h.invariant (fun s hs => ?_) fun _ _ _ hinv _ hs => hinv.step hs
  rw [hs]
  exact ⟨rfl, rfl, List.Pairwise.nil, fun t ht => absurd ht List.not_mem_nil, .nil, .slnil⟩

/-- The buffer is in a state that it reaches. -/
theorem spsc_of_reach (h : (machine N α).Reach s) : (Spsc.machine N (Timestamped α)).Reach s.spsc := by
  refine h.simulate (E := fun _ _ => True) Driver.spsc (fun s hs => by rw [hs]; rfl) fun s a s' _ _ hs => .inr ?_
  cases a with
  | sample raw reading =>
    obtain ⟨spsc, hspsc, rfl⟩ := Option.map_eq_some_iff.1 hs
    exact ⟨.push (s.clock.stamp raw reading).2, trivial, hspsc⟩
  | producer =>
    obtain ⟨spsc, hspsc, rfl⟩ := Option.map_eq_some_iff.1 hs
    exact ⟨.producer, trivial, hspsc⟩
  | pop =>
    obtain ⟨spsc, hspsc, rfl⟩ := Option.map_eq_some_iff.1 hs
    exact ⟨.pop, trivial, hspsc⟩
  | consumer =>
    obtain ⟨spsc, hspsc, rfl⟩ := Option.map_eq_some_iff.1 hs
    exact ⟨.consumer, trivial, hspsc⟩

/-- What has come was sampled, in the same order. -/
theorem popped_sublist (hN : AssertPowerOfTwo N) (h : (machine N α).Reach s) :
    List.Sublist s.spsc.popped s.samples := by
  have hsublist := (inv_of_reach h).sublist
  obtain ⟨waiting, hspsc⟩ := Spsc.inv_of_reach hN (spsc_of_reach h)
  rw [hspsc.accepted_eq, List.append_assoc] at hsublist
  exact (List.sublist_append_left _ _).trans hsublist

/-- And so it comes in order of time. -/
theorem timestampNs_popped (hN : AssertPowerOfTwo N) (h : (machine N α).Reach s) :
    (s.spsc.popped.map Timestamped.timestampNs).Pairwise (· ≤ ·) :=
  List.Pairwise.sublist ((popped_sublist hN h).map _) (inv_of_reach h).timestampNs_le

theorem missed_eq_skipped (expectedSeq : ℕ) (ts : List (Timestamped α)) :
    missed expectedSeq ts = skipped expectedSeq (ts.map Timestamped.seq) := by
  induction ts generalizing expectedSeq with
  | nil => rfl
  | cons t ts ih =>
    rw [missed, ih]
    rfl

/-- **The consumer can tell what it has missed**, in every interleaving, as long as the numbers do not
begin again. -/
theorem detects_of_reach (hN : AssertPowerOfTwo N) (h : (machine N α).Reach s) (hlen : s.samples.length ≤ 2 ^ 64) :
    Detects s := by
  have hinv := inv_of_reach h
  obtain ⟨waiting, hspsc⟩ := Spsc.inv_of_reach hN (spsc_of_reach h)
  have hperm := hinv.perm
  have hsublist := hinv.sublist
  rw [hspsc.accepted_eq, ← hspsc.waiting_eq] at hperm hsublist
  have hseq : s.samples.map Timestamped.seq = List.range s.samples.length := by
    rw [hinv.seq_eq]
    refine List.map_congr_left (fun i hi => Nat.mod_eq_of_lt ?_) |>.trans (List.map_id _)
    exact (List.mem_range.1 hi).trans_le hlen
  have hsorted : (s.spsc.popped.map Timestamped.seq ++
      (s.spsc.waiting ++ s.pushing).map Timestamped.seq).Pairwise (· < ·) := by
    rw [← List.map_append, ← List.append_assoc]
    refine List.Pairwise.sublist (hsublist.map _) ?_
    rw [hseq]
    exact List.pairwise_lt_range
  refine ⟨(List.pairwise_append.1 hsorted).1, timestampNs_popped hN h, hperm, ?_⟩
  have hrange := hperm.map Timestamped.seq
  rw [hseq, List.map_append, List.append_assoc s.spsc.popped, List.map_append] at hrange
  rw [missed_eq_skipped, skipped_eq_countP hsorted hrange, List.countP_map]
  rfl

/-- A buffer of one place: the second sample is refused, and the third tells so. -/
theorem detects_of_reach_refused : ∃ s : Driver ℕ, s.spsc.popped.map Timestamped.data = [70, 72] ∧
    missed 0 s.spsc.popped = 1 ∧ s.refused.length = 1 ∧ Detects s := by
  obtain ⟨s, hs, hp⟩ := Machine.exists_reach_of_run (M := machine 2 ℕ) (s := new) rfl
    [.sample 5 70, .producer, .producer, .producer, .sample 6 71, .producer,
      .pop, .consumer, .consumer, .consumer, .sample 9 72, .producer, .producer, .producer,
      .pop, .consumer, .consumer, .consumer]
    (fun s => decide (s.spsc.popped.map Timestamped.data = [70, 72] ∧ missed 0 s.spsc.popped = 1 ∧
      s.refused.length = 1 ∧ s.samples.length ≤ 2 ^ 64)) (by decide)
  obtain ⟨hpopped, hmissed, hrefused, hlen⟩ := of_decide_eq_true hp
  exact ⟨s, hpopped, hmissed, hrefused, detects_of_reach (by decide) hs hlen⟩

end Driver

end SensorBridge.Sensor
