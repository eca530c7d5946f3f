import SensorBridge.Foundation.OrderStatistic
import Mathlib.Algebra.BigOperators.Fin
import Mathlib.Algebra.Order.BigOperators.Group.Finset
import Mathlib.Data.Rat.Floor
import Mathlib.Tactic.IntervalCases

/-!
# The latency histogram

A `LatencyHistogram` counts the samples in 64 buckets by the magnitude of their latency. A
percentile is found by adding the buckets up until they come to its rank, and is reported as
the least latency of the bucket in which that happens, or half of it.

That bucket is the one of the sample which has the rank (`percentile_eq`), so the report is off by
no more than a factor of four as long as the bucket is one of a single magnitude. The last
bucket is not: it takes all latencies from `2 ^ 19` ns on, for which `2 ^ 18` is reported
(`percentile_accurate_iff`). `f64` is exact.
-/

namespace SensorBridge.Metrics

open Foundation OrderStatistic

/-- `NUM_BUCKETS`. -/
def numBuckets : ℕ := 64

/-- The cells of a `LatencyHistogram`. -/
structure LatencyHistogram where
  /-- Histogram buckets. -/
  buckets : Fin numBuckets → ℕ
  /-- Total number of samples. -/
  count : ℕ
  /-- Sum of all samples, which wraps. -/
  sum : ℕ
  /-- Minimum value seen. -/
  min : ℕ
  /-- Maximum value seen. -/
  max : ℕ

namespace LatencyHistogram

/-- `LatencyHistogram::new`. -/
def new : LatencyHistogram := ⟨fun _ => 0, 0, 0, 2 ^ 64 - 1, 0⟩

/-- `u64::leading_zeros`. -/
def leadingZeros (x : ℕ) : ℕ := if x = 0 then 64 else 63 - x.log2

/-- `bucket_for`: roughly 10 buckets for each order of magnitude. -/
def bucketFor (latencyNs : ℕ) : Fin numBuckets :=
  if latencyNs = 0 then ⟨0, by decide⟩
  else
    let magnitude := 63 - leadingZeros latencyNs
    ⟨Min.min (magnitude * 10 / 3) (numBuckets - 1), by
      have := Nat.min_le_right (magnitude * 10 / 3) (numBuckets - 1)
      unfold numBuckets at *
      omega⟩

/-- `latency_for_bucket`. -/
def latencyForBucket (bucket : ℕ) : ℕ := if bucket = 0 then 0 else 2 ^ (bucket * 3 / 10)

/-- `buckets[bucket].fetch_add(1)`. -/
def addBucket (h : LatencyHistogram) (bucket : Fin numBuckets) : LatencyHistogram :=
  { h with buckets := Function.update h.buckets bucket (h.buckets bucket + 1) }

/-- `count.fetch_add(1)`. -/
def addCount (h : LatencyHistogram) : LatencyHistogram := { h with count := h.count + 1 }

/-- `sum.fetch_add(latency_ns)`. -/
def addSum (h : LatencyHistogram) (latencyNs : ℕ) : LatencyHistogram :=
  { h with sum := (h.sum + latencyNs) % 2 ^ 64 }

/-- `record`, with nothing in between. -/
def record (h : LatencyHistogram) (latencyNs : ℕ) : LatencyHistogram :=
  { ((h.addBucket (bucketFor latencyNs)).addCount.addSum latencyNs) with
    min := Min.min h.min latencyNs
    max := Max.max h.max latencyNs }

/-- The rank that a percentile asks for. -/
def target (count : ℕ) (p : ℚ) : ℕ := ⌈(count : ℚ) * p⌉₊

/-- The loop of `percentile`, over the buckets that are left. -/
def scan (buckets : Fin numBuckets → ℕ) (target : ℕ) : ℕ → List (Fin numBuckets) → ℕ
  | _, [] => latencyForBucket (numBuckets - 1)
  | cumulative, i :: is =>
    if target ≤ cumulative + buckets i then latencyForBucket i
    else scan buckets target (cumulative + buckets i) is

/-- `percentile`, with nothing in between; it panics unless `p` is between 0 and 1. -/
def percentile (h : LatencyHistogram) (p : ℚ) : Option ℕ :=
  if 0 ≤ p ∧ p ≤ 1 then
    if h.count = 0 then some 0
    else some (scan h.buckets (target h.count p) 0 (List.finRange numBuckets))
  else none

/-- A histogram that has recorded a list of samples. -/
def recordAll (samples : List ℕ) : LatencyHistogram := samples.foldl record new

theorem recordAll_concat (samples : List ℕ) (latencyNs : ℕ) :
    recordAll (samples ++ [latencyNs]) = record (recordAll samples) latencyNs := by
  rw [recordAll, List.foldl_append]
  rfl

theorem count_recordAll (samples : List ℕ) : (recordAll samples).count = samples.length := by
  induction samples using List.reverseRecOn with
  | nil => rfl
  | append_singleton samples x ih =>
    rw [recordAll_concat, List.length_append, List.length_singleton, ← ih]
    rfl

theorem buckets_recordAll (samples : List ℕ) (b : Fin numBuckets) :
    (recordAll samples).buckets b = samples.countP fun x => decide (bucketFor x = b) := by
  induction samples using List.reverseRecOn with
  | nil => rfl
  | append_singleton samples x ih =>
    rw [recordAll_concat, List.countP_append, ← ih]
    change Function.update _ _ _ b = _
    by_cases hx : bucketFor x = b
    · subst hx
      simp
    · rw [Function.update_of_ne (Ne.symm hx)]
      simp [hx]

theorem sum_recordAll (samples : List ℕ) : (recordAll samples).sum = samples.sum % 2 ^ 64 := by
  induction samples using List.reverseRecOn with
  | nil => rfl
  | append_singleton samples x ih =>
    rw [recordAll_concat, List.sum_append, List.sum_singleton]
    change ((recordAll samples).sum + x) % 2 ^ 64 = _
    rw [ih, Nat.mod_add_mod]

theorem min_recordAll_concat (samples : List ℕ) (x : ℕ) :
    (recordAll (samples ++ [x])).min = Min.min (recordAll samples).min x := by
  rw [recordAll_concat]
  rfl

theorem max_recordAll_concat (samples : List ℕ) (x : ℕ) :
    (recordAll (samples ++ [x])).max = Max.max (recordAll samples).max x := by
  rw [recordAll_concat]
  rfl

/-- The cells hold exactly the samples of a list. -/
structure Tallies (h : LatencyHistogram) (samples : List ℕ) : Prop where
  count_eq : h.count = samples.length
  sum_buckets : ∑ b, h.buckets b = h.count
  bucket_eq : ∀ b, h.buckets b = samples.countP fun x => decide (bucketFor x = b)
  sum_eq : h.sum = samples.sum % 2 ^ 64
  min_eq : samples = [] → h.min = 2 ^ 64 - 1
  max_eq : samples = [] → h.max = 0
  isLeast : samples ≠ [] → IsLeast {x | x ∈ samples} h.min
  isGreatest : samples ≠ [] → IsGreatest {x | x ∈ samples} h.max

/-- Every sample is in one of the buckets. -/
theorem sum_countP_bucketFor (samples : List ℕ) :
    ∑ b, samples.countP (fun x => decide (bucketFor x = b)) = samples.length := by
  rw [Fin.sum_univ_def, sum_countP_eq bucketFor samples (List.nodup_finRange numBuckets)]
  simp

theorem setOf_mem_concat (samples : List ℕ) (x : ℕ) : {y | y ∈ samples ++ [x]} = insert x {y | y ∈ samples} := by
  ext y
  simp [or_comm]

/-- A histogram that has recorded a list holds its samples. -/
theorem tallies_recordAll {samples : List ℕ} (h : ∀ x ∈ samples, x < 2 ^ 64) :
    Tallies (recordAll samples) samples where
  count_eq := count_recordAll samples
  sum_buckets := by
    simp only [buckets_recordAll, count_recordAll]
    exact sum_countP_bucketFor samples
  bucket_eq := buckets_recordAll samples
  sum_eq := sum_recordAll samples
  min_eq := by
    rintro rfl
    rfl
  max_eq := by
    rintro rfl
    rfl
  isLeast hne := by
    induction samples using List.reverseRecOn with
    | nil => exact absurd rfl hne
    | append_singleton samples x ih =>
      rw [min_recordAll_concat]
      rcases eq_or_ne samples [] with rfl | hsamples
      · have hx := h x (by simp)
        have hmin : Min.min (recordAll []).min x = x := Nat.min_eq_right (by change x ≤ 2 ^ 64 - 1; omega)
        rw [hmin]
        simp
      · have hleast := ih (fun y hy => h y (List.mem_append_left _ hy)) hsamples
        rw [setOf_mem_concat, min_comm]
        exact hleast.insert x
  isGreatest hne := by
    induction samples using List.reverseRecOn with
    | nil => exact absurd rfl hne
    | append_singleton samples x ih =>
      rw [max_recordAll_concat]
      rcases eq_or_ne samples [] with rfl | hsamples
      · have hmax : Max.max (recordAll []).max x = x := Nat.max_eq_right (Nat.zero_le x)
        rw [hmax]
        simp
      · have hgreatest := ih (fun y hy => h y (List.mem_append_left _ hy)) hsamples
        rw [setOf_mem_concat, max_comm]
        exact hgreatest.insert x

/-- The samples say what all the cells hold. -/
theorem Tallies.unique {h h' : LatencyHistogram} {samples : List ℕ} (hh : h.Tallies samples)
    (hh' : h'.Tallies samples) : h = h' := by
  have hbuckets : h.buckets = h'.buckets := by
    funext b
    rw [hh.bucket_eq b, hh'.bucket_eq b]
  have hcount : h.count = h'.count := hh.count_eq.trans hh'.count_eq.symm
  have hsum : h.sum = h'.sum := hh.sum_eq.trans hh'.sum_eq.symm
  have hextremes : h.min = h'.min ∧ h.max = h'.max := by
    by_cases hne : samples = []
    · exact ⟨(hh.min_eq hne).trans (hh'.min_eq hne).symm, (hh.max_eq hne).trans (hh'.max_eq hne).symm⟩
    · exact ⟨(hh.isLeast hne).unique (hh'.isLeast hne), (hh.isGreatest hne).unique (hh'.isGreatest hne)⟩
  cases h
  cases h'
  simp_all

/-! ### Buckets -/

theorem val_bucketFor {x : ℕ} (hx : x ≠ 0) : (bucketFor x : ℕ) = Min.min ((63 - (63 - x.log2)) * 10 / 3) 63 := by
  simp [bucketFor, leadingZeros, hx, numBuckets]

/-- A greater latency is in no smaller bucket. -/
theorem bucketFor_mono {x y : ℕ} (h : x ≤ y) : bucketFor x ≤ bucketFor y := by
  by_cases hx : x = 0
  · subst hx
    exact Nat.zero_le _
  · have hy : y ≠ 0 := by omega
    have hlog : x.log2 ≤ y.log2 := (Nat.le_log2 hy).2 (((Nat.le_log2 hx).1 le_rfl).trans h)
    rw [Fin.le_def, val_bucketFor hx, val_bucketFor hy]
    omega

/-- In the first 19 magnitudes a bucket is given back as its magnitude, or the one below. -/
theorem latencyForBucket_of_le {magnitude : ℕ} (h : magnitude ≤ 18) :
    latencyForBucket (Min.min ((63 - (63 - magnitude)) * 10 / 3) 63) ≤ 2 ^ magnitude ∧
      2 ^ (magnitude + 1) ≤ 4 * (latencyForBucket (Min.min ((63 - (63 - magnitude)) * 10 / 3) 63) + 1) := by
  interval_cases magnitude <;> decide

/-- The magnitudes above are all in the last bucket. -/
theorem latencyForBucket_of_lt {magnitude : ℕ} (h : 18 < magnitude) :
    latencyForBucket (Min.min ((63 - (63 - magnitude)) * 10 / 3) 63) = 2 ^ 18 := by
  rw [Nat.min_eq_right (by omega)]
  decide

/-- **The report is within a factor of four** exactly up to about `2 ^ 20` ns. -/
theorem latencyForBucket_accurate_iff (x : ℕ) :
    (latencyForBucket (bucketFor x) ≤ x ∧ x < 4 * (latencyForBucket (bucketFor x) + 1)) ↔ x < 2 ^ 20 + 4 := by
  by_cases hx : x = 0
  · subst hx
    decide
  · have hle : 2 ^ x.log2 ≤ x := (Nat.le_log2 hx).1 le_rfl
    have hlt : x < 2 ^ (x.log2 + 1) := (Nat.log2_lt hx).1 (Nat.lt_succ_self _)
    rw [val_bucketFor hx]
    by_cases hmagnitude : x.log2 ≤ 18
    · obtain ⟨hreport, hreport'⟩ := latencyForBucket_of_le hmagnitude
      have hsmall : 2 ^ (x.log2 + 1) ≤ 2 ^ 19 := Nat.pow_le_pow_right (by decide) (by omega)
      have hbound : x < 2 ^ 20 + 4 := by omega
      exact iff_of_true ⟨hreport.trans hle, by omega⟩ hbound
    · have hlarge : 2 ^ 19 ≤ 2 ^ x.log2 := Nat.pow_le_pow_right (by decide) (by omega)
      rw [latencyForBucket_of_lt (by omega)]
      omega

/-! ### Ranks -/

/-- The loop returns from the bucket in which the rank is reached. -/
theorem scan_eq {buckets : Fin numBuckets → ℕ} {target : ℕ} {b : Fin numBuckets}
    {before rest : List (Fin numBuckets)} {cumulative : ℕ} (hbefore : cumulative + (before.map buckets).sum < target)
    (hreached : target ≤ cumulative + (before.map buckets).sum + buckets b) :
    scan buckets target cumulative (before ++ b :: rest) = latencyForBucket b := by
  induction before generalizing cumulative with
  | nil =>
    rw [List.nil_append, scan, if_pos (by simpa using hreached)]
  | cons i before ih =>
    rw [List.map_cons, List.sum_cons] at hbefore hreached
    rw [List.cons_append, scan, if_neg (by omega)]
    exact ih (by omega) (by omega)

/-- The buckets before one, in order. -/
theorem exists_finRange_eq (b : Fin numBuckets) :
    ∃ before rest, List.finRange numBuckets = before ++ b :: rest ∧ before.Nodup ∧ ∀ i, i ∈ before ↔ i < b := by
  obtain ⟨before, rest, heq⟩ := List.append_of_mem (List.mem_finRange b)
  have hpairwise := List.pairwise_lt_finRange numBuckets
  have hnodup := List.nodup_finRange numBuckets
  rw [heq] at hpairwise hnodup
  obtain ⟨-, hrest, hcross⟩ := List.pairwise_append.1 hpairwise
  refine ⟨before, rest, heq, (List.nodup_append.1 hnodup).1, fun i => ⟨fun hi => ?_, fun hi => ?_⟩⟩
  · exact hcross i hi b (List.mem_cons_self ..)
  · have hmem : i ∈ before ++ b :: rest := heq ▸ List.mem_finRange i
    rcases List.mem_append.1 hmem with hmem | hmem
    · exact hmem
    · rcases List.mem_cons.1 hmem with rfl | hmem
      · exact absurd hi (lt_irrefl _)
      · exact absurd hi (not_lt.2 ((List.pairwise_cons.1 hrest).1 i hmem).le)

/-- **A rank is found in the bucket of the sample that has it.** -/
theorem scan_recordAll {samples : List ℕ} {rank : ℕ} (hpos : 0 < rank) (hrank : rank ≤ samples.length) :
    scan (recordAll samples).buckets rank 0 (List.finRange numBuckets) =
      latencyForBucket (bucketFor (kth samples (rank - 1))) := by
  have hk : rank - 1 < samples.length := by omega
  obtain ⟨before, rest, heq, hnodup, hmem⟩ := exists_finRange_eq (bucketFor (kth samples (rank - 1)))
  have hsum : (before.map (recordAll samples).buckets).sum =
      samples.countP fun x => decide (bucketFor x ∈ before) := by
    rw [← sum_countP_eq bucketFor samples hnodup]
    exact congrArg List.sum (List.map_congr_left fun b _ => buckets_recordAll samples b)
  rw [heq]
  refine scan_eq ?_ ?_
  · -- what is before has a smaller latency
    have hle : (samples.countP fun x => decide (bucketFor x ∈ before)) ≤
        samples.countP fun x => decide (x < kth samples (rank - 1)) := by
      refine List.countP_mono_left fun x _ hx => ?_
      have hlt := (hmem _).1 (of_decide_eq_true hx)
      exact decide_eq_true (lt_of_not_ge fun hge => absurd (bucketFor_mono hge) (not_le.2 hlt))
    have := countP_lt_kth hk
    omega
  · -- and what has no greater latency is there or before
    have hnot : bucketFor (kth samples (rank - 1)) ∉ before := fun h => absurd ((hmem _).1 h) (lt_irrefl _)
    have hsum' := sum_countP_eq bucketFor samples (List.nodup_cons.2 ⟨hnot, hnodup⟩)
    rw [List.map_cons, List.sum_cons, sum_countP_eq bucketFor samples hnodup, ← buckets_recordAll] at hsum'
    have hle : (samples.countP fun x => decide (x ≤ kth samples (rank - 1))) ≤
        samples.countP fun x => decide (bucketFor x ∈ bucketFor (kth samples (rank - 1)) :: before) := by
      refine List.countP_mono_left fun x _ hx => decide_eq_true ?_
      rcases (bucketFor_mono (of_decide_eq_true hx)).eq_or_lt with heq | hlt
      · exact List.mem_cons.2 (.inl heq)
      · exact List.mem_cons_of_mem _ ((hmem _).2 hlt)
    have := lt_countP_le_kth hk
    omega

/-- The rank asked for is no more than the count. -/
theorem target_le {count : ℕ} {p : ℚ} (h : p ≤ 1) : target count p ≤ count :=
  Nat.ceil_le.2 (mul_le_of_le_one_right (Nat.cast_nonneg count) h)

/-- **What a percentile reports**: the bucket of the sample that has the rank. -/
theorem percentile_eq {samples : List ℕ} (hne : samples ≠ []) {p : ℚ} (hpos : 0 < p) (hle : p ≤ 1) :
    (recordAll samples).percentile p =
      some (latencyForBucket (bucketFor (kth samples (target samples.length p - 1)))) := by
  have hlength : 0 < samples.length := List.length_pos_iff.2 hne
  have hproduct : (0 : ℚ) < (samples.length : ℚ) * p := mul_pos (by exact_mod_cast hlength) hpos
  have htarget : 0 < target samples.length p := Nat.ceil_pos.2 hproduct
  rw [percentile, if_pos ⟨hpos.le, hle⟩, count_recordAll, if_neg (by omega), scan_recordAll htarget (target_le hle)]

/-- **When a percentile is accurate**: when the latency that has the rank is below about `2 ^ 20` ns. -/
theorem percentile_accurate_iff (samples : List ℕ) (hne : samples ≠ []) (p : ℚ) (hpos : 0 < p) (hle : p ≤ 1) :
    (∃ v, (recordAll samples).percentile p = some v ∧
      v ≤ kth samples (target samples.length p - 1) ∧ kth samples (target samples.length p - 1) < 4 * (v + 1)) ↔
      kth samples (target samples.length p - 1) < 2 ^ 20 + 4 := by
  rw [percentile_eq hne hpos hle, ← latencyForBucket_accurate_iff]
  constructor
  · rintro ⟨v, hv, haccurate⟩
    cases hv
    exact haccurate
  · exact fun h => ⟨_, rfl, h⟩

/-- The 99th percentile of the latencies 100, 200 and 300. -/
theorem percentile_accurate : ∃ v, (recordAll [100, 200, 300]).percentile (99 / 100) = some v ∧
    v ≤ kth [100, 200, 300] (target 3 (99 / 100) - 1) ∧ kth [100, 200, 300] (target 3 (99 / 100) - 1) < 4 * (v + 1) :=
  (percentile_accurate_iff [100, 200, 300] (by decide) (99 / 100) (by decide +kernel) (by decide +kernel)).2
    (by decide +kernel)

/-- A latency of 10 ms is reported as `2 ^ 18` ns, which is a quarter of a millisecond. -/
theorem not_forall_percentile_accurate :
    ¬ ∀ samples : List ℕ, (∀ x ∈ samples, x < 2 ^ 64) → samples ≠ [] → ∀ p : ℚ, 0 < p → p ≤ 1 →
      ∃ v, (recordAll samples).percentile p = some v ∧ v ≤ kth samples (target samples.length p - 1) ∧
        kth samples (target samples.length p - 1) < 4 * (v + 1) := by
  intro h
  obtain ⟨v, hv, hle, hlt⟩ := h [10000000] (by decide) (by decide) 1 (by decide) (by decide)
  have hreport : (recordAll [10000000]).percentile 1 = some (2 ^ 18) := by decide +kernel
  have hkth : kth [10000000] (target [10000000].length 1 - 1) = 10000000 := by decide +kernel
  obtain rfl : 2 ^ 18 = v := Option.some.inj (hreport.symm.trans hv)
  rw [hkth] at hlt
  omega

end LatencyHistogram

end SensorBridge.Metrics
