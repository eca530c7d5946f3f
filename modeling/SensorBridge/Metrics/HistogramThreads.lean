import SensorBridge.Metrics.LatencyHistogram
import SensorBridge.Foundation.Extremum
import SensorBridge.Foundation.Machine

/-!
# A latency histogram shared by threads

Any number of threads call `record` and `percentile` at once, one atomic access to the cells at a
time. A call of `record` adds to its bucket before it adds to the count, so the buckets never come to
less than the count, and they only grow. A percentile loads the count before the buckets: what
it still has to find is in the buckets it has yet to load (`Inv.readers`), and it returns before they
are used up. When all calls have returned, every sample is where it belongs (`never_lost`).

`count * p` is exact, as it is in `f64` up to `2 ^ 53` samples and for a fraction that is exact too.
-/

namespace SensorBridge.Metrics

open Foundation Foundation.Extremum Threads

/-! ### Calls -/

/-- Where a call of `record` is: what it does next. -/
inductive RecordPc where
  /-- `buckets[bucket].fetch_add(1)`. -/
  | addBucket
  /-- `count.fetch_add(1)`. -/
  | addCount
  /-- `sum.fetch_add(latency_ns)`. -/
  | addSum
  /-- The loop that lowers the minimum. -/
  | updateMin (p : Progress ℕᵒᵈ)
  /-- The loop that raises the maximum. -/
  | updateMax (p : Progress ℕ)
  /-- It has returned. -/
  | returned
  deriving DecidableEq

/-- Where a call of `percentile` is. -/
inductive PercentilePc where
  /-- `count.load()`. -/
  | loadCount (p : ℚ)
  /-- `bucket.load()`, with what it is to come to and what it has so far. -/
  | scan (target cumulative : ℕ) (i : Fin numBuckets)
  /-- It has returned, as there were no samples. -/
  | empty
  /-- It has returned from inside the loop. -/
  | found (latencyNs : ℕ)
  /-- It has returned what comes after the loop. -/
  | fellThrough
  deriving DecidableEq

namespace RecordPc

/-- The minimum first, then the maximum. -/
def afterMin : Progress ℕᵒᵈ → RecordPc
  | .finished => .updateMax .load
  | p => .updateMin p

/-- The maximum, then nothing. -/
def afterMax : Progress ℕ → RecordPc
  | .finished => .returned
  | p => .updateMax p

/-- Whether the bucket has been added to. -/
def inBucket : RecordPc → Bool
  | .addBucket => false
  | _ => true

/-- Whether the count has been added to. -/
def inCount : RecordPc → Bool
  | .addBucket | .addCount => false
  | _ => true

/-- Whether the sum has been added to. -/
def inSum : RecordPc → Bool
  | .addBucket | .addCount | .addSum => false
  | _ => true

/-- How far the minimum has come. -/
def min : RecordPc → Progress ℕᵒᵈ
  | .addBucket | .addCount | .addSum => .load
  | .updateMin p => p
  | .updateMax _ | .returned => .finished

/-- How far the maximum has come. -/
def max : RecordPc → Progress ℕ
  | .addBucket | .addCount | .addSum | .updateMin _ => .load
  | .updateMax p => p
  | .returned => .finished

@[simp] theorem inBucket_afterMin (p : Progress ℕᵒᵈ) : (afterMin p).inBucket = true := by cases p <;> rfl

@[simp] theorem inCount_afterMin (p : Progress ℕᵒᵈ) : (afterMin p).inCount = true := by cases p <;> rfl

@[simp] theorem inSum_afterMin (p : Progress ℕᵒᵈ) : (afterMin p).inSum = true := by cases p <;> rfl

@[simp] theorem min_afterMin (p : Progress ℕᵒᵈ) : (afterMin p).min = p := by cases p <;> rfl

@[simp] theorem max_afterMin (p : Progress ℕᵒᵈ) : (afterMin p).max = .load := by cases p <;> rfl

@[simp] theorem inBucket_afterMax (p : Progress ℕ) : (afterMax p).inBucket = true := by cases p <;> rfl

@[simp] theorem inCount_afterMax (p : Progress ℕ) : (afterMax p).inCount = true := by cases p <;> rfl

@[simp] theorem inSum_afterMax (p : Progress ℕ) : (afterMax p).inSum = true := by cases p <;> rfl

@[simp] theorem min_afterMax (p : Progress ℕ) : (afterMax p).min = .finished := by cases p <;> rfl

@[simp] theorem max_afterMax (p : Progress ℕ) : (afterMax p).max = p := by cases p <;> rfl

end RecordPc

/-- A call of `record`. -/
structure RecordCall where
  latencyNs : ℕ
  pc : RecordPc
  deriving DecidableEq

namespace PercentilePc

/-- What comes after the load of the count. -/
def afterCount (count : ℕ) (p : ℚ) : PercentilePc :=
  if count = 0 then .empty else .scan (LatencyHistogram.target count p) 0 ⟨0, Nat.succ_pos _⟩

/-- What comes after the load of bucket `i`. -/
def afterBucket (target cumulative : ℕ) (i : Fin numBuckets) : PercentilePc :=
  if target ≤ cumulative then .found (LatencyHistogram.latencyForBucket i)
  else if h : (i : ℕ) + 1 < numBuckets then .scan target cumulative ⟨i + 1, h⟩
  else .fellThrough

/-- How many steps the call can still take. -/
def left : PercentilePc → ℕ
  | .loadCount _ => numBuckets + 1
  | .scan _ _ i => numBuckets - i
  | _ => 0

end PercentilePc

/-! ### The histogram in use -/

/-- A histogram, and the calls made so far. -/
structure Timing where
  histogram : LatencyHistogram
  /-- The calls of `record`, in the order in which they began. -/
  calls : List RecordCall
  /-- The calls of `percentile`. -/
  readers : List PercentilePc

namespace Timing

/-- What can happen next. -/
inductive Act where
  /-- A thread calls `record`. -/
  | record (latencyNs : ℕ)
  /-- Call `i` of `record` takes its next step; a weak exchange may fail for no reason. -/
  | step (i : ℕ) (spurious : Bool)
  /-- A thread calls `percentile`. -/
  | percentile (p : ℚ)
  /-- Call `j` of `percentile` takes its next step. -/
  | read (j : ℕ)

/-- Call `i`, with the given sample, goes on to `pc`. -/
def goto (s : Timing) (i latencyNs : ℕ) (pc : RecordPc) : Timing :=
  { s with calls := s.calls.set i ⟨latencyNs, pc⟩ }

/-- Percentile `j` goes on to `pc`. -/
def setReader (s : Timing) (j : ℕ) (pc : PercentilePc) : Timing := { s with readers := s.readers.set j pc }

/-- **What a step can be.** -/
inductive Step (s : Timing) : Act → Timing → Prop where
  | record {x : ℕ} : x < 2 ^ 64 → Step s (.record x) { s with calls := s.calls ++ [⟨x, .addBucket⟩] }
  | addBucket {i x : ℕ} {spurious : Bool} : s.calls[i]? = some ⟨x, .addBucket⟩ →
      Step s (.step i spurious)
        { s.goto i x .addCount with histogram := s.histogram.addBucket (LatencyHistogram.bucketFor x) }
  | addCount {i x : ℕ} {spurious : Bool} : s.calls[i]? = some ⟨x, .addCount⟩ →
      Step s (.step i spurious) { s.goto i x .addSum with histogram := s.histogram.addCount }
  | addSum {i x : ℕ} {spurious : Bool} : s.calls[i]? = some ⟨x, .addSum⟩ →
      Step s (.step i spurious) { s.goto i x (.updateMin .load) with histogram := s.histogram.addSum x }
  | updateMin {i x : ℕ} {p : Progress ℕᵒᵈ} {spurious : Bool} : s.calls[i]? = some ⟨x, .updateMin p⟩ →
      Step s (.step i spurious)
        { s.goto i x (.afterMin (advance (.toDual x) (.toDual s.histogram.min) spurious p).2) with
          histogram := { s.histogram with
            min := OrderDual.ofDual (advance (.toDual x) (.toDual s.histogram.min) spurious p).1 } }
  | updateMax {i x : ℕ} {p : Progress ℕ} {spurious : Bool} : s.calls[i]? = some ⟨x, .updateMax p⟩ →
      Step s (.step i spurious)
        { s.goto i x (.afterMax (advance x s.histogram.max spurious p).2) with
          histogram := { s.histogram with max := (advance x s.histogram.max spurious p).1 } }
  | percentile {p : ℚ} : 0 ≤ p → p ≤ 1 → Step s (.percentile p) { s with readers := s.readers ++ [.loadCount p] }
  | loadCount {j : ℕ} {p : ℚ} : s.readers[j]? = some (.loadCount p) →
      Step s (.read j) (s.setReader j (.afterCount s.histogram.count p))
  | loadBucket {j target cumulative : ℕ} {i : Fin numBuckets} :
      s.readers[j]? = some (.scan target cumulative i) →
      Step s (.read j) (s.setReader j (.afterBucket target (cumulative + s.histogram.buckets i) i))

/-- The next step of call `i`, which records `x`. -/
def stepCall (s : Timing) (i x : ℕ) (spurious : Bool) : RecordPc → Option Timing
  | .addBucket =>
    some { s.goto i x .addCount with histogram := s.histogram.addBucket (LatencyHistogram.bucketFor x) }
  | .addCount => some { s.goto i x .addSum with histogram := s.histogram.addCount }
  | .addSum => some { s.goto i x (.updateMin .load) with histogram := s.histogram.addSum x }
  | .updateMin p =>
    some { s.goto i x (.afterMin (advance (.toDual x) (.toDual s.histogram.min) spurious p).2) with
      histogram := { s.histogram with
        min := OrderDual.ofDual (advance (.toDual x) (.toDual s.histogram.min) spurious p).1 } }
  | .updateMax p =>
    some { s.goto i x (.afterMax (advance x s.histogram.max spurious p).2) with
      histogram := { s.histogram with max := (advance x s.histogram.max spurious p).1 } }
  | .returned => none

/-- The next step of percentile `j`. -/
def stepReader (s : Timing) (j : ℕ) : PercentilePc → Option Timing
  | .loadCount p => some (s.setReader j (.afterCount s.histogram.count p))
  | .scan target cumulative i =>
    some (s.setReader j (.afterBucket target (cumulative + s.histogram.buckets i) i))
  | .empty | .found _ | .fellThrough => none

/-- The step function. -/
def step (s : Timing) : Act → Option Timing
  | .record latencyNs =>
    if latencyNs < 2 ^ 64 then some { s with calls := s.calls ++ [⟨latencyNs, .addBucket⟩] } else none
  | .step i spurious => s.calls[i]?.bind fun call => s.stepCall i call.latencyNs spurious call.pc
  | .percentile p => if 0 ≤ p ∧ p ≤ 1 then some { s with readers := s.readers ++ [.loadCount p] } else none
  | .read j => s.readers[j]?.bind fun pc => s.stepReader j pc

/-- A new histogram. -/
def machine : Machine Timing Act where
  init s := s = ⟨.new, [], []⟩
  step := step

variable {s s' : Timing} {a : Act}

theorem step_of_eq_some (h : s.step a = some s') : Step s a s' := by
  cases a with
  | record x =>
    simp only [step, Option.ite_none_right_eq_some, Option.some.injEq] at h
    obtain ⟨hx, rfl⟩ := h
    exact .record hx
  | step i spurious =>
    obtain ⟨⟨x, pc⟩, hi, hcall⟩ := Option.bind_eq_some_iff.mp h
    cases pc with
    | addBucket => cases hcall; exact .addBucket hi
    | addCount => cases hcall; exact .addCount hi
    | addSum => cases hcall; exact .addSum hi
    | updateMin p => cases hcall; exact .updateMin hi
    | updateMax p => cases hcall; exact .updateMax hi
    | returned => cases hcall
  | percentile p =>
    simp only [step, Option.ite_none_right_eq_some, Option.some.injEq] at h
    obtain ⟨⟨hpos, hle⟩, rfl⟩ := h
    exact .percentile hpos hle
  | read j =>
    obtain ⟨pc, hj, hreader⟩ := Option.bind_eq_some_iff.mp h
    cases pc with
    | loadCount p => cases hreader; exact .loadCount hj
    | scan target cumulative i => cases hreader; exact .loadBucket hj
    | empty => cases hreader
    | found latencyNs => cases hreader
    | fellThrough => cases hreader

/-! ### What is in the buckets -/

/-- What is in the buckets from one on. -/
def remaining (buckets : Fin numBuckets → ℕ) (i : ℕ) : ℕ :=
  ∑ b ∈ Finset.univ.filter (fun b : Fin numBuckets => i ≤ b), buckets b

theorem remaining_zero (buckets : Fin numBuckets → ℕ) : remaining buckets 0 = ∑ b, buckets b := by
  simp [remaining]

theorem remaining_eq_zero (buckets : Fin numBuckets → ℕ) {i : ℕ} (h : numBuckets ≤ i) : remaining buckets i = 0 := by
  refine Finset.sum_eq_zero fun b hb => ?_
  have hle := (Finset.mem_filter.1 hb).2
  have := b.isLt
  omega

/-- A bucket, and those after it. -/
theorem remaining_succ (buckets : Fin numBuckets → ℕ) (i : Fin numBuckets) :
    remaining buckets i = buckets i + remaining buckets (i + 1) := by
  have hinsert : Finset.univ.filter (fun b : Fin numBuckets => (i : ℕ) ≤ b) =
      insert i (Finset.univ.filter fun b : Fin numBuckets => (i : ℕ) + 1 ≤ b) := by
    ext b
    simp only [Finset.mem_filter, Finset.mem_univ, true_and, Finset.mem_insert, Fin.ext_iff]
    omega
  rw [remaining, hinsert, Finset.sum_insert (by simp)]
  rfl

theorem remaining_mono {buckets buckets' : Fin numBuckets → ℕ} (h : ∀ b, buckets b ≤ buckets' b) (i : ℕ) :
    remaining buckets i ≤ remaining buckets' i := Finset.sum_le_sum fun b _ => h b

/-- What a percentile still has to find is in the buckets it has yet to load. -/
def Covered (buckets : Fin numBuckets → ℕ) : PercentilePc → Prop
  | .loadCount p => p ≤ 1
  | .scan target cumulative i => target ≤ cumulative + remaining buckets i
  | .empty | .found _ => True
  | .fellThrough => False

theorem Covered.mono {buckets buckets' : Fin numBuckets → ℕ} (h : ∀ b, buckets b ≤ buckets' b) {pc : PercentilePc}
    (hpc : Covered buckets pc) : Covered buckets' pc := by
  cases pc with
  | scan target cumulative i => exact le_trans hpc (Nat.add_le_add_left (remaining_mono h i) cumulative)
  | _ => exact hpc

theorem covered_afterCount {buckets : Fin numBuckets → ℕ} {count : ℕ} {p : ℚ} (hp : p ≤ 1)
    (hcount : count ≤ ∑ b, buckets b) : Covered buckets (.afterCount count p) := by
  unfold PercentilePc.afterCount
  split_ifs with hzero
  · trivial
  · change _ ≤ 0 + remaining buckets 0
    rw [remaining_zero, Nat.zero_add]
    exact (LatencyHistogram.target_le hp).trans hcount

/-- After the last bucket nothing is missing. -/
theorem covered_afterBucket {buckets : Fin numBuckets → ℕ} {target cumulative : ℕ} {i : Fin numBuckets}
    (h : Covered buckets (.scan target cumulative i)) :
    Covered buckets (.afterBucket target (cumulative + buckets i) i) := by
  change target ≤ cumulative + remaining buckets i at h
  rw [remaining_succ] at h
  unfold PercentilePc.afterBucket
  split_ifs with hreached hnext
  · trivial
  · change target ≤ cumulative + buckets i + remaining buckets (i + 1)
    omega
  · have hlast := remaining_eq_zero buckets (i := (i : ℕ) + 1) (by omega)
    exact absurd h (by omega)

/-! ### The cells and the calls -/

/-- Whether a call has added to a bucket. -/
def addedTo (b : Fin numBuckets) (call : RecordCall) : Bool :=
  call.pc.inBucket && decide (LatencyHistogram.bucketFor call.latencyNs = b)

/-- What a call has added to the sum. -/
def addedToSum (call : RecordCall) : ℕ := if call.pc.inSum then call.latencyNs else 0

/-- A call, as the loop that lowers the minimum sees it. -/
def lowering (call : RecordCall) : ℕᵒᵈ × Progress ℕᵒᵈ := (.toDual call.latencyNs, call.pc.min)

/-- A call, as the loop that raises the maximum sees it. -/
def raising (call : RecordCall) : ℕ × Progress ℕ := (call.latencyNs, call.pc.max)

/-- The cells hold what the calls have done to them so far. -/
structure Inv (s : Timing) : Prop where
  bucket_eq : ∀ b, s.histogram.buckets b = s.calls.countP (addedTo b)
  count_eq : s.histogram.count = s.calls.countP fun call => call.pc.inCount
  sum_eq : s.histogram.sum = (s.calls.map addedToSum).sum % 2 ^ 64
  min : Raised (OrderDual.toDual (2 ^ 64 - 1)) (OrderDual.toDual s.histogram.min) (s.calls.map lowering)
  max : Raised 0 s.histogram.max (s.calls.map raising)
  readers : ∀ pc ∈ s.readers, Covered s.histogram.buckets pc
  lt_max : ∀ call ∈ s.calls, call.latencyNs < 2 ^ 64

theorem inv_new : Inv ⟨.new, [], []⟩ where
  bucket_eq _ := rfl
  count_eq := rfl
  sum_eq := rfl
  min := Raised.nil _
  max := Raised.nil _
  readers := by simp
  lt_max := by simp

/-- The buckets come to the number of calls that have added to theirs. -/
theorem Inv.sum_buckets (h : Inv s) : ∑ b, s.histogram.buckets b = s.calls.countP fun call => call.pc.inBucket := by
  have hcounted := OrderStatistic.sum_countP_eq (fun call : RecordCall => LatencyHistogram.bucketFor call.latencyNs)
    (s.calls.filter fun call => call.pc.inBucket) (List.nodup_finRange numBuckets)
  have hbuckets : (List.finRange numBuckets).map s.histogram.buckets = (List.finRange numBuckets).map fun b =>
      (s.calls.filter fun call => call.pc.inBucket).countP fun call =>
        decide (LatencyHistogram.bucketFor call.latencyNs = b) := by
    refine List.map_congr_left fun b _ => ?_
    rw [h.bucket_eq b, List.countP_filter]
    exact List.countP_congr fun call _ => by rw [addedTo, Bool.and_comm]
  rw [Fin.sum_univ_def, hbuckets, hcounted]
  simp [List.countP_eq_length_filter]

/-- A call is counted only when it is in its bucket. -/
theorem Inv.count_le (h : Inv s) : s.histogram.count ≤ ∑ b, s.histogram.buckets b := by
  rw [h.sum_buckets, h.count_eq]
  refine List.countP_mono_left fun call _ hcount => ?_
  cases hpc : call.pc <;> simp_all [RecordPc.inCount, RecordPc.inBucket]

/-- A call of `record` begins. -/
theorem Inv.record (h : Inv s) {x : ℕ} (hx : x < 2 ^ 64) : Inv { s with calls := s.calls ++ [⟨x, .addBucket⟩] } where
  bucket_eq b := by simp [h.bucket_eq b, addedTo, RecordPc.inBucket]
  count_eq := by simp [h.count_eq, RecordPc.inCount]
  sum_eq := by simp [h.sum_eq, addedToSum, RecordPc.inSum]
  min := by
    rw [List.map_append]
    exact h.min.concat _
  max := by
    rw [List.map_append]
    exact h.max.concat _
  readers := h.readers
  lt_max call hcall := by
    rcases List.mem_append.1 hcall with hcall | hcall
    · exact h.lt_max call hcall
    · obtain rfl := List.mem_singleton.1 hcall
      exact hx

/-- A call of `record` takes a step that adds what it should to each cell. -/
theorem Inv.move (h : Inv s) {i x : ℕ} {pc pc' : RecordPc} {m : LatencyHistogram} (hi : s.calls[i]? = some ⟨x, pc⟩)
    (hbuckets : ∀ b, m.buckets b + (if addedTo b ⟨x, pc⟩ then 1 else 0) =
      s.histogram.buckets b + if addedTo b ⟨x, pc'⟩ then 1 else 0)
    (hle : ∀ b, s.histogram.buckets b ≤ m.buckets b)
    (hcount : m.count + (if pc.inCount then 1 else 0) = s.histogram.count + if pc'.inCount then 1 else 0)
    (hsum : ∀ total total', total' + addedToSum ⟨x, pc⟩ = total + addedToSum ⟨x, pc'⟩ →
      s.histogram.sum = total % 2 ^ 64 → m.sum = total' % 2 ^ 64)
    (hmin : Raised (OrderDual.toDual (2 ^ 64 - 1)) (OrderDual.toDual m.min)
      ((s.calls.map lowering).set i (lowering ⟨x, pc'⟩)))
    (hmax : Raised 0 m.max ((s.calls.map raising).set i (raising ⟨x, pc'⟩))) :
    Inv { s.goto i x pc' with histogram := m } where
  bucket_eq b := by
    have hset := countP_set_eq (a := (⟨x, pc'⟩ : RecordCall)) (addedTo b) hi
    have hbucket := h.bucket_eq b
    have hadd := hbuckets b
    simp only [goto]
    omega
  count_eq := by
    have hset := countP_set_eq (a := (⟨x, pc'⟩ : RecordCall)) (fun call => call.pc.inCount) hi
    have heq := h.count_eq
    simp only [goto] at hset ⊢
    omega
  sum_eq := hsum _ _ (sum_map_set_eq addedToSum hi) h.sum_eq
  min := by
    rw [goto, List.map_set]
    exact hmin
  max := by
    rw [goto, List.map_set]
    exact hmax
  readers pc hpc := (h.readers pc hpc).mono hle
  lt_max call hcall := by
    rcases List.mem_or_eq_of_mem_set hcall with hcall | rfl
    · exact h.lt_max call hcall
    · exact h.lt_max ⟨x, pc⟩ (List.mem_of_getElem? hi)

/-- The loop for the minimum does not see a step that leaves it where it is. -/
theorem Inv.min_same (h : Inv s) {i x : ℕ} {pc pc' : RecordPc} (hi : s.calls[i]? = some ⟨x, pc⟩)
    (hpc : pc'.min = pc.min) : Raised (OrderDual.toDual (2 ^ 64 - 1)) (OrderDual.toDual s.histogram.min)
      ((s.calls.map lowering).set i (lowering ⟨x, pc'⟩)) := by
  have hsame : lowering ⟨x, pc'⟩ = lowering ⟨x, pc⟩ := by rw [lowering, lowering, hpc]
  rw [← List.map_set, map_set_eq_self hi hsame]
  exact h.min

/-- Nor the loop for the maximum. -/
theorem Inv.max_same (h : Inv s) {i x : ℕ} {pc pc' : RecordPc} (hi : s.calls[i]? = some ⟨x, pc⟩)
    (hpc : pc'.max = pc.max) : Raised 0 s.histogram.max ((s.calls.map raising).set i (raising ⟨x, pc'⟩)) := by
  have hsame : raising ⟨x, pc'⟩ = raising ⟨x, pc⟩ := by rw [raising, raising, hpc]
  rw [← List.map_set, map_set_eq_self hi hsame]
  exact h.max

/-- A call adds to its bucket. -/
theorem Inv.addBucket (h : Inv s) {i x : ℕ} (hi : s.calls[i]? = some ⟨x, .addBucket⟩) :
    Inv { s.goto i x .addCount with histogram := s.histogram.addBucket (LatencyHistogram.bucketFor x) } := by
  have hbucket : ∀ b, (s.histogram.addBucket (LatencyHistogram.bucketFor x)).buckets b =
      s.histogram.buckets b + if addedTo b ⟨x, .addCount⟩ then 1 else 0 := by
    intro b
    by_cases hb : LatencyHistogram.bucketFor x = b
    · subst hb
      simp [LatencyHistogram.addBucket, addedTo, RecordPc.inBucket]
    · simp [LatencyHistogram.addBucket, addedTo, RecordPc.inBucket, Function.update_of_ne (Ne.symm hb), hb]
  refine h.move hi hbucket ?_ rfl ?_ (h.min_same hi rfl) (h.max_same hi rfl)
  · intro b
    rw [hbucket b]
    exact Nat.le_add_right _ _
  · intro total total' heq hsum
    obtain rfl : total' = total := heq
    exact hsum

/-- A call takes a step of one of its loops, and leaves the buckets, the count and the sum. -/
theorem Inv.loop (h : Inv s) {i x : ℕ} {pc pc' : RecordPc} {m : LatencyHistogram}
    (hi : s.calls[i]? = some ⟨x, pc⟩)
    (hpc : pc.inBucket = pc'.inBucket ∧ pc.inCount = pc'.inCount ∧ pc.inSum = pc'.inSum)
    (hm : m.buckets = s.histogram.buckets ∧ m.count = s.histogram.count ∧ m.sum = s.histogram.sum)
    (hmin : Raised (OrderDual.toDual (2 ^ 64 - 1)) (OrderDual.toDual m.min)
      ((s.calls.map lowering).set i (lowering ⟨x, pc'⟩)))
    (hmax : Raised 0 m.max ((s.calls.map raising).set i (raising ⟨x, pc'⟩))) :
    Inv { s.goto i x pc' with histogram := m } := by
  obtain ⟨hin, hcount, hsum⟩ := hpc
  refine h.move hi ?_ ?_ ?_ ?_ hmin hmax
  · intro b
    have hadded : addedTo b ⟨x, pc⟩ = addedTo b ⟨x, pc'⟩ := by rw [addedTo, addedTo, hin]
    rw [hm.1, hadded]
  · intro b
    rw [hm.1]
  · rw [hm.2.1, hcount]
  · intro total total' heq htotal
    simp only [addedToSum, hsum] at heq
    obtain rfl : total' = total := Nat.add_right_cancel heq
    exact hm.2.2.trans htotal

theorem Inv.step (h : Inv s) (hs : Step s a s') : Inv s' := by
  cases hs with
  | record hx => exact h.record hx
  | addBucket hi => exact h.addBucket hi
  | addCount hi =>
    refine h.move hi (fun b => rfl) (fun b => le_rfl) rfl ?_ (h.min_same hi rfl) (h.max_same hi rfl)
    intro total total' heq hsum
    obtain rfl : total' = total := heq
    exact hsum
  | @addSum i x _ hi =>
    refine h.move hi (fun b => rfl) (fun b => le_rfl) rfl ?_ (h.min_same hi rfl) (h.max_same hi rfl)
    intro total total' heq hsum
    obtain rfl : total' = total + x := heq
    change (s.histogram.sum + x) % 2 ^ 64 = _
    rw [hsum, Nat.mod_add_mod]
  | @updateMin i x p spurious hi =>
    refine h.loop hi ⟨(RecordPc.inBucket_afterMin _).symm, (RecordPc.inCount_afterMin _).symm,
      (RecordPc.inSum_afterMin _).symm⟩ ⟨rfl, rfl, rfl⟩ ?_ (h.max_same hi (RecordPc.max_afterMin _))
    have hi' : (s.calls.map lowering)[i]? = some (OrderDual.toDual x, p) := by
      rw [List.getElem?_map, hi]
      rfl
    have hadvance := h.min.advance hi' spurious
    rw [lowering, RecordPc.min_afterMin]
    exact hadvance
  | @updateMax i x p spurious hi =>
    refine h.loop hi ⟨(RecordPc.inBucket_afterMax _).symm, (RecordPc.inCount_afterMax _).symm,
      (RecordPc.inSum_afterMax _).symm⟩ ⟨rfl, rfl, rfl⟩ (h.min_same hi (RecordPc.min_afterMax _)) ?_
    have hi' : (s.calls.map raising)[i]? = some (x, p) := by
      rw [List.getElem?_map, hi]
      rfl
    have hadvance := h.max.advance hi' spurious
    rw [raising, RecordPc.max_afterMax]
    exact hadvance
  | percentile _ hle =>
    refine { h with readers := fun pc hpc => ?_ }
    rcases List.mem_append.1 hpc with hpc | hpc
    · exact h.readers pc hpc
    · obtain rfl := List.mem_singleton.1 hpc
      exact hle
  | loadCount hj =>
    have hp := h.readers _ (List.mem_of_getElem? hj)
    refine { h with readers := fun pc hpc => ?_ }
    rcases List.mem_or_eq_of_mem_set hpc with hpc | rfl
    · exact h.readers pc hpc
    · exact covered_afterCount hp h.count_le
  | loadBucket hj =>
    have hcovered := h.readers _ (List.mem_of_getElem? hj)
    refine { h with readers := fun pc hpc => ?_ }
    rcases List.mem_or_eq_of_mem_set hpc with hpc | rfl
    · exact h.readers pc hpc
    · exact covered_afterBucket hcovered

theorem inv_of_reach (h : machine.Reach s) : Inv s := by
  refine h.invariant ?_ ?_
  · intro s hs
    obtain rfl := hs
    exact inv_new
  · intro s a s' hs _ hstep
    exact hs.step (step_of_eq_some hstep)

/-! ### Percentiles -/

/-- Whether a call of `percentile` has returned. -/
def returned : PercentilePc → Bool
  | .loadCount _ | .scan _ _ _ => false
  | _ => true

theorem left_afterCount_lt (count : ℕ) (p : ℚ) : (PercentilePc.afterCount count p).left < numBuckets + 1 := by
  unfold PercentilePc.afterCount
  split_ifs
  · exact Nat.succ_pos _
  · exact Nat.lt_succ_of_le (Nat.sub_le _ _)

theorem left_afterBucket_lt (target cumulative : ℕ) (i : Fin numBuckets) :
    (PercentilePc.afterBucket target cumulative i).left < numBuckets - i := by
  have := i.isLt
  unfold PercentilePc.afterBucket
  split_ifs with hreached hnext
  · exact Nat.sub_pos_of_lt i.isLt
  · change numBuckets - ((i : ℕ) + 1) < numBuckets - i
    omega
  · exact Nat.sub_pos_of_lt i.isLt

/-- **A percentile goes on** as long as it has not returned, and has fewer steps left. -/
theorem exists_read {j : ℕ} {pc : PercentilePc} (hj : s.readers[j]? = some pc) (hpc : returned pc = false) :
    ∃ s' pc', s.step (.read j) = some s' ∧ s'.readers[j]? = some pc' ∧ pc'.left < pc.left := by
  cases pc with
  | loadCount p =>
    refine ⟨s.setReader j (.afterCount s.histogram.count p), _, ?_, getElem?_set_self hj, left_afterCount_lt _ p⟩
    rw [step, hj]
    rfl
  | scan target cumulative i =>
    refine ⟨s.setReader j (.afterBucket target (cumulative + s.histogram.buckets i) i), _, ?_,
      getElem?_set_self hj, left_afterBucket_lt _ _ i⟩
    rw [step, hj]
    rfl
  | empty => cases hpc
  | found latencyNs => cases hpc
  | fellThrough => cases hpc

/-- What the load of the count makes of a percentile. -/
theorem eq_of_loadCount {j : ℕ} {p : ℚ} (hj : s.readers[j]? = some (.loadCount p)) (h : s.step (.read j) = some s') :
    s' = s.setReader j (.afterCount s.histogram.count p) := by
  rw [step, hj] at h
  exact (Option.some.inj h).symm

/-- Whether the call has come to its loop. -/
def inLoop : PercentilePc → Bool
  | .scan _ _ _ | .found _ | .fellThrough => true
  | _ => false

theorem inLoop_afterCount {count : ℕ} (hpos : 0 < count) (p : ℚ) : inLoop (.afterCount count p) = true := by
  rw [PercentilePc.afterCount, if_neg hpos.ne']
  rfl

theorem inLoop_afterBucket (target cumulative : ℕ) (i : Fin numBuckets) :
    inLoop (.afterBucket target cumulative i) = true := by
  unfold PercentilePc.afterBucket
  split_ifs <;> rfl

/-- A percentile that has come to its loop does not return 0 before it any more, whatever happens. -/
theorem Step.inLoop (h : Step s a s') {j : ℕ} {pc : PercentilePc} (hj : s.readers[j]? = some pc)
    (hpc : Timing.inLoop pc = true) : ∃ pc', s'.readers[j]? = some pc' ∧ Timing.inLoop pc' = true := by
  cases h with
  | percentile => exact ⟨pc, getElem?_concat_of_some hj, hpc⟩
  | @loadCount k p hk =>
    by_cases hkj : k = j
    · subst hkj
      rw [hj] at hk
      obtain rfl := Option.some.inj hk
      cases hpc
    · exact ⟨pc, (List.getElem?_set_ne hkj).trans hj, hpc⟩
  | @loadBucket k target cumulative i hk =>
    by_cases hkj : k = j
    · subst hkj
      exact ⟨_, getElem?_set_self hj, inLoop_afterBucket _ _ i⟩
    · exact ⟨pc, (List.getElem?_set_ne hkj).trans hj, hpc⟩
  | _ => exact ⟨pc, hj, hpc⟩

/-- **A percentile that loads a count that is not 0** has returned from inside its loop when it has
returned. -/
theorem found_of_loadCount {s₁ s₂ : Timing} {j : ℕ} {p : ℚ} (h : machine.Reach s)
    (hj : s.readers[j]? = some (.loadCount p)) (hpos : 0 < s.histogram.count)
    (hload : machine.step s (.read j) = some s₁) (hsteps : machine.Steps s₁ s₂) :
    ∃ pc, s₂.readers[j]? = some pc ∧ (returned pc = true → ∃ latencyNs, pc = .found latencyNs) := by
  have hlast : machine.Reach s₂ ∧ ∃ pc, s₂.readers[j]? = some pc ∧ inLoop pc = true := by
    refine hsteps.keeps (P := fun s => machine.Reach s ∧ ∃ pc, s.readers[j]? = some pc ∧ inLoop pc = true) ?_
      ⟨.next h trivial hload, ?_⟩
    · rintro s a s' ⟨hs, pc, hpc, hin⟩ - hstep
      exact ⟨.next hs trivial hstep, (step_of_eq_some hstep).inLoop hpc hin⟩
    · obtain rfl := eq_of_loadCount hj hload
      exact ⟨_, getElem?_set_self hj, inLoop_afterCount hpos p⟩
  obtain ⟨hreach, pc, hpc, hin⟩ := hlast
  refine ⟨pc, hpc, fun hreturned => ?_⟩
  cases pc with
  | loadCount p => cases hin
  | scan target cumulative i => cases hreturned
  | empty => cases hin
  | found latencyNs => exact ⟨latencyNs, rfl⟩
  | fellThrough => exact ((inv_of_reach hreach).readers _ (List.mem_of_getElem? hpc)).elim

/-! ### No sample is lost -/

/-- All calls of `record` have returned. -/
def AtRest (s : Timing) : Prop := ∀ call ∈ s.calls, call.pc = .returned

instance (s : Timing) : Decidable s.AtRest := inferInstanceAs (Decidable (∀ call ∈ s.calls, call.pc = .returned))

/-- Once all calls have returned, the cells hold their samples. -/
theorem Inv.tallies (h : Inv s) (hrest : s.AtRest) : s.histogram.Tallies (s.calls.map RecordCall.latencyNs) := by
  have hcount : s.histogram.count = s.calls.length := by
    rw [h.count_eq, List.countP_eq_length]
    intro call hcall
    rw [hrest call hcall]
    rfl
  have hmins : ∀ t ∈ s.calls.map lowering, t.2 = .finished := by
    intro t ht
    obtain ⟨call, hcall, rfl⟩ := List.mem_map.1 ht
    rw [lowering, hrest call hcall]
    rfl
  have hmaxs : ∀ t ∈ s.calls.map raising, t.2 = .finished := by
    intro t ht
    obtain ⟨call, hcall, rfl⟩ := List.mem_map.1 ht
    rw [raising, hrest call hcall]
    rfl
  have hmax := h.max
  have hmin := h.min
  constructor
  · rw [hcount, List.length_map]
  · rw [h.sum_buckets, h.count_eq]
    exact List.countP_congr fun call hcall => by rw [hrest call hcall]; rfl
  · intro b
    rw [h.bucket_eq b, List.countP_map]
    refine List.countP_congr fun call hcall => ?_
    simp [addedTo, hrest call hcall, RecordPc.inBucket]
  · have hsums : s.calls.map addedToSum = s.calls.map RecordCall.latencyNs := by
      refine List.map_congr_left fun call hcall => ?_
      rw [addedToSum, hrest call hcall]
      rfl
    rw [h.sum_eq, hsums]
  · intro hnil
    rw [List.map_eq_nil_iff] at hnil
    rw [hnil] at hmin
    exact hmin.eq_start
  · intro hnil
    rw [List.map_eq_nil_iff] at hnil
    rw [hnil] at hmax
    exact hmax.eq_start
  · intro hne
    have hgreatest := hmin.isGreatest hmins (fun t ht => ?_) fun hnil => hne (by simpa using hnil)
    · constructor
      · have hmem := hgreatest.1
        simp only [lowering, List.map_map, Set.mem_ofPred_eq, List.mem_map, Function.comp_apply] at hmem
        obtain ⟨call, hcall, heq⟩ := hmem
        exact List.mem_map.2 ⟨call, hcall, OrderDual.toDual_inj.1 heq⟩
      · intro x hx
        obtain ⟨call, hcall, rfl⟩ := List.mem_map.1 hx
        have hmem : OrderDual.toDual call.latencyNs ∈ {v | v ∈ (s.calls.map lowering).map Prod.fst} :=
          List.mem_map.2 ⟨lowering call, List.mem_map_of_mem hcall, rfl⟩
        exact OrderDual.toDual_le_toDual.1 (hgreatest.2 hmem)
    · obtain ⟨call, hcall, rfl⟩ := List.mem_map.1 ht
      exact OrderDual.toDual_le_toDual.2 (Nat.le_sub_one_of_lt (h.lt_max call hcall))
  · intro hne
    have hgreatest := hmax.isGreatest hmaxs (fun t _ => Nat.zero_le t.1) fun hnil => hne (by simpa using hnil)
    have hfst : (s.calls.map raising).map Prod.fst = s.calls.map RecordCall.latencyNs := by
      rw [List.map_map]
      rfl
    rw [hfst] at hgreatest
    exact hgreatest

/-- **No sample is lost**: the buckets never come to less than the count, so that a percentile that
loads a count that is not 0 returns from inside its loop; and once all calls of `record` have
returned, the cells hold their samples. -/
theorem never_lost (s : Timing) (h : machine.Reach s) :
    s.histogram.count ≤ ∑ b, s.histogram.buckets b ∧
      (∀ pc ∈ s.readers, pc ≠ .fellThrough) ∧
      (∀ (j : ℕ) (pc : PercentilePc), s.readers[j]? = some pc → returned pc = false →
        ∃ s' pc', machine.step s (.read j) = some s' ∧ s'.readers[j]? = some pc' ∧ pc'.left < pc.left) ∧
      (∀ (j : ℕ) (p : ℚ) (s₁ s₂ : Timing), s.readers[j]? = some (.loadCount p) → 0 < s.histogram.count →
        machine.step s (.read j) = some s₁ → machine.Steps s₁ s₂ →
        ∃ pc, s₂.readers[j]? = some pc ∧ (returned pc = true → ∃ latencyNs, pc = .found latencyNs)) ∧
      (s.AtRest → s.histogram.Tallies (s.calls.map RecordCall.latencyNs)) := by
  have hinv := inv_of_reach h
  refine ⟨hinv.count_le, ?_, fun j pc hj hpc => exists_read hj hpc,
    fun j p s₁ s₂ hj hpos hload hsteps => found_of_loadCount h hj hpos hload hsteps, hinv.tallies⟩
  rintro pc hpc rfl
  exact hinv.readers _ hpc

/-- Two threads record 100 and 7, a third asks for the median in between; an exchange fails for no
reason. -/
theorem never_lost_shared : ∃ s, machine.Reach s ∧ s.histogram.count = 2 ∧ s.histogram.min = 7 ∧
    s.AtRest ∧ s.histogram.Tallies (s.calls.map RecordCall.latencyNs) := by
  obtain ⟨s, hs, htest⟩ := Machine.exists_reach_of_run (M := machine) rfl
    (List.flatten [[.record 100, .record 7, .step 0 false, .step 1 false, .step 0 false, .percentile (1 / 2), .read 0],
      .replicate 7 (.read 0), .replicate 3 (.step 0 false), .replicate 4 (.step 1 false),
      [.step 0 false, .step 0 true, .step 0 false, .step 1 false]])
    (fun s => decide (s.histogram.count = 2 ∧ s.histogram.min = 7 ∧ s.AtRest)) (by decide +kernel)
  obtain ⟨hcount, hmin, hrest⟩ := of_decide_eq_true htest
  exact ⟨s, hs, hcount, hmin, hrest, (never_lost s hs).2.2.2.2 hrest⟩

/-- The interleaving does not matter: they are what one thread would have made of them. -/
theorem eq_recordAll (h : machine.Reach s) (hrest : s.AtRest) :
    s.histogram = LatencyHistogram.recordAll (s.calls.map RecordCall.latencyNs) := by
  have hinv := inv_of_reach h
  refine (hinv.tallies hrest).unique (LatencyHistogram.tallies_recordAll fun x hx => ?_)
  obtain ⟨call, hcall, rfl⟩ := List.mem_map.1 hx
  exact hinv.lt_max call hcall

end Timing

end SensorBridge.Metrics
