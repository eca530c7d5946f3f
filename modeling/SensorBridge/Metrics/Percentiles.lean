import SensorBridge.Metrics.LatencyHistogram
import Mathlib.Tactic.NormNum.OfScientific

/-!
# The order of percentiles

A snapshot of a histogram lists four percentiles and the greatest latency. They come in order:
a greater percentile asks for a greater rank, the sample that has it is no smaller, and neither
is its bucket, nor what is reported for that (`percentile_mono`); and what is reported for the
bucket of a sample is no more than the sample (`latencyForBucket_bucketFor_le`), so that no
percentile is more than the greatest.
-/

namespace SensorBridge.Metrics

open Foundation OrderStatistic

/-- A snapshot of the statistics. -/
structure LatencySnapshot where
  count : ℕ
  meanNs : ℚ
  minNs : Option ℕ
  maxNs : Option ℕ
  p50Ns : ℕ
  p95Ns : ℕ
  p99Ns : ℕ
  p999Ns : ℕ

namespace LatencyHistogram

/-- `mean`. -/
def mean (h : LatencyHistogram) : ℚ := if h.count = 0 then 0 else h.sum / h.count

/-- `min()`. -/
def min? (h : LatencyHistogram) : Option ℕ := if h.min = 2 ^ 64 - 1 then none else some h.min

/-- `max()`. -/
def max? (h : LatencyHistogram) : Option ℕ := if h.max = 0 ∧ h.count = 0 then none else some h.max

/-- `p50`. -/
def p50 (h : LatencyHistogram) : Option ℕ := h.percentile 0.50

/-- `p95`. -/
def p95 (h : LatencyHistogram) : Option ℕ := h.percentile 0.95

/-- `p99`. -/
def p99 (h : LatencyHistogram) : Option ℕ := h.percentile 0.99

/-- `p999`. -/
def p999 (h : LatencyHistogram) : Option ℕ := h.percentile 0.999

/-- `snapshot`, with nothing in between. -/
def snapshot (h : LatencyHistogram) : Option LatencySnapshot := do
  let p50Ns ← h.p50
  let p95Ns ← h.p95
  let p99Ns ← h.p99
  let p999Ns ← h.p999
  return ⟨h.count, h.mean, h.min?, h.max?, p50Ns, p95Ns, p99Ns, p999Ns⟩

theorem latencyForBucket_mono {b c : ℕ} (h : b ≤ c) : latencyForBucket b ≤ latencyForBucket c := by
  unfold latencyForBucket
  split_ifs with hb hc
  · exact le_rfl
  · exact Nat.zero_le _
  · omega
  · exact Nat.pow_le_pow_right Nat.two_pos (by omega)

/-- What is reported for a latency is no more than it. -/
theorem latencyForBucket_bucketFor_le (x : ℕ) : latencyForBucket (bucketFor x) ≤ x := by
  by_cases hx : x = 0
  · subst hx
    exact le_rfl
  · have hle : 2 ^ x.log2 ≤ x := (Nat.le_log2 hx).1 le_rfl
    rw [val_bucketFor hx]
    by_cases hmagnitude : x.log2 ≤ 18
    · exact (latencyForBucket_of_le hmagnitude).1.trans hle
    · rw [latencyForBucket_of_lt (by omega)]
      exact (Nat.pow_le_pow_right Nat.two_pos (by omega)).trans hle

theorem le_max_recordAll {samples : List ℕ} {x : ℕ} (hx : x ∈ samples) : x ≤ (recordAll samples).max := by
  induction samples using List.reverseRecOn with
  | nil => cases hx
  | append_singleton samples y ih =>
    rw [max_recordAll_concat]
    rcases List.mem_append.1 hx with hx | hx
    · exact (ih hx).trans (Nat.le_max_left _ _)
    · rw [List.mem_singleton.1 hx]
      exact Nat.le_max_right _ _

/-- A greater percentile asks for a greater rank. -/
theorem target_mono (count : ℕ) {p q : ℚ} (h : p ≤ q) : target count p ≤ target count q :=
  Nat.ceil_mono (mul_le_mul_of_nonneg_left h (Nat.cast_nonneg count))

/-- What a percentile reports, also at zero, which asks for no rank. -/
def reported (samples : List ℕ) (rank : ℕ) : ℕ :=
  if rank = 0 then 0 else latencyForBucket (bucketFor (kth samples (rank - 1)))

theorem reported_mono {samples : List ℕ} {m n : ℕ} (hmn : m ≤ n) (hn : n ≤ samples.length) :
    reported samples m ≤ reported samples n := by
  unfold reported
  split_ifs with hm hzero
  · exact le_rfl
  · exact Nat.zero_le _
  · omega
  · have hsample : kth samples (m - 1) ≤ kth samples (n - 1) := kth_mono (by omega) (by omega)
    exact latencyForBucket_mono (bucketFor_mono hsample)

theorem reported_le {samples : List ℕ} {rank : ℕ} (h : rank ≤ samples.length) :
    reported samples rank ≤ (recordAll samples).max := by
  unfold reported
  split_ifs with hrank
  · exact Nat.zero_le _
  · have hmem : kth samples (rank - 1) ∈ samples := kth_mem (by omega)
    exact (latencyForBucket_bucketFor_le _).trans (le_max_recordAll hmem)

theorem percentile_eq_reported (samples : List ℕ) {p : ℚ} (h0 : 0 ≤ p) (h1 : p ≤ 1) :
    (recordAll samples).percentile p = some (reported samples (target samples.length p)) := by
  rcases eq_or_ne samples [] with rfl | hne
  · have hrank : target 0 p = 0 := Nat.le_zero.1 (target_le h1)
    rw [percentile, if_pos ⟨h0, h1⟩, List.length_nil, hrank]
    rfl
  · rcases h0.eq_or_lt with rfl | hpos
    · -- no rank is asked for, and the loop stops at the first bucket
      have hrank : target samples.length 0 = 0 := by rw [target, mul_zero, Nat.ceil_zero]
      have hlength := List.length_pos_iff.2 hne
      rw [percentile, if_pos ⟨le_rfl, h1⟩, count_recordAll, if_neg (by omega), hrank]
      rfl
    · have hproduct : (0 : ℚ) < (samples.length : ℚ) * p :=
        mul_pos (Nat.cast_pos.2 (List.length_pos_iff.2 hne)) hpos
      have htarget : target samples.length p ≠ 0 := (Nat.ceil_pos.2 hproduct).ne'
      rw [percentile_eq hne hpos h1, reported, if_neg htarget]

/-- **Percentiles are ordered**: whatever has been recorded, a greater percentile reports no less,
and no percentile of what is not empty reports more than the greatest latency. -/
theorem percentile_mono (samples : List ℕ) {p q : ℚ} (h0 : 0 ≤ p) (hpq : p ≤ q) (h1 : q ≤ 1) :
    ∃ v w, (recordAll samples).percentile p = some v ∧ (recordAll samples).percentile q = some w ∧ v ≤ w ∧
      w ≤ (recordAll samples).max :=
  ⟨_, _, percentile_eq_reported samples h0 (hpq.trans h1), percentile_eq_reported samples (h0.trans hpq) h1,
    reported_mono (target_mono _ hpq) (target_le h1), reported_le (target_le h1)⟩

theorem max?_recordAll {samples : List ℕ} (hne : samples ≠ []) :
    (recordAll samples).max? = some (recordAll samples).max := by
  have hlength := List.length_pos_iff.2 hne
  exact if_neg fun h => absurd ((count_recordAll samples).symm.trans h.2) hlength.ne'

theorem snapshot_eq {h : LatencyHistogram} {p50Ns p95Ns p99Ns p999Ns : ℕ} (hp50 : h.percentile 0.50 = some p50Ns)
    (hp95 : h.percentile 0.95 = some p95Ns) (hp99 : h.percentile 0.99 = some p99Ns)
    (hp999 : h.percentile 0.999 = some p999Ns) :
    h.snapshot = some ⟨h.count, h.mean, h.min?, h.max?, p50Ns, p95Ns, p99Ns, p999Ns⟩ := by
  rw [snapshot, p50, p95, p99, p999, hp50, hp95, hp99, hp999]
  rfl

/-- **Percentiles and snapshots are ordered**: a greater percentile reports no less, and no more than
the greatest latency that was recorded; so a snapshot lists its percentiles in order, and no
more than the maximum. -/
theorem snapshot_ordered (samples : List ℕ) :
    (∀ p q : ℚ, 0 ≤ p → p ≤ q → q ≤ 1 → ∃ v w, (recordAll samples).percentile p = some v ∧
      (recordAll samples).percentile q = some w ∧ v ≤ w ∧
        (samples ≠ [] → ∃ m, (recordAll samples).max? = some m ∧ w ≤ m)) ∧
      ∃ t, (recordAll samples).snapshot = some t ∧ t.p50Ns ≤ t.p95Ns ∧ t.p95Ns ≤ t.p99Ns ∧
        t.p99Ns ≤ t.p999Ns ∧ (samples ≠ [] → ∃ m, t.maxNs = some m ∧ t.p999Ns ≤ m) := by
  constructor
  · intro p q h0 hpq h1
    obtain ⟨v, w, hp, hq, hvw, hmax⟩ := percentile_mono samples h0 hpq h1
    exact ⟨v, w, hp, hq, hvw, fun hne => ⟨_, max?_recordAll hne, hmax⟩⟩
  · obtain ⟨p50Ns, p95Ns, hp50, hp95, h95, -⟩ :=
      percentile_mono samples (p := 0.50) (q := 0.95) (by norm_num) (by norm_num) (by norm_num)
    obtain ⟨p99Ns, p999Ns, hp99, hp999, h999, hmax⟩ :=
      percentile_mono samples (p := 0.99) (q := 0.999) (by norm_num) (by norm_num) (by norm_num)
    obtain ⟨_, _, hp95', hp99', h99, -⟩ :=
      percentile_mono samples (p := 0.95) (q := 0.99) (by norm_num) (by norm_num) (by norm_num)
    obtain rfl := Option.some.inj (hp95.symm.trans hp95')
    obtain rfl := Option.some.inj (hp99.symm.trans hp99')
    exact ⟨_, snapshot_eq hp50 hp95 hp99 hp999, h95, h99, h999, fun hne => ⟨_, max?_recordAll hne, hmax⟩⟩

end LatencyHistogram

end SensorBridge.Metrics
