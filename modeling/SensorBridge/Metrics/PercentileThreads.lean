import SensorBridge.Metrics.HistogramThreads
import SensorBridge.Metrics.Percentiles

/-!
# Percentiles while samples are recorded

A percentile loads the count and then the buckets one by one, and samples are recorded all the while. It
has loaded at least what was in the buckets when it loaded the count, and at most what is in them
now (`Between`). So what it reports is between the two: the rank it looks for has a sample among those
in the buckets before and one among those in them after, and it reports no more than for the first
and no less than for the second (`percentile_between`).
-/

namespace SensorBridge.Metrics

open Foundation Foundation.OrderStatistic Threads LatencyHistogram

namespace Timing

variable {s s' : Timing} {a : Act}

/-! ### The samples in the buckets -/

/-- The samples whose calls have added to their buckets. -/
def binned (s : Timing) : List ℕ := (s.calls.filter fun call => call.pc.inBucket).map RecordCall.latencyNs

theorem countP_binned (s : Timing) (p : ℕ → Bool) :
    s.binned.countP p = s.calls.countP fun call => call.pc.inBucket && p call.latencyNs := by
  rw [binned, List.countP_map, List.countP_filter]
  exact List.countP_congr fun call _ => by simp [and_comm]

theorem length_binned (s : Timing) : s.binned.length = s.calls.countP fun call => call.pc.inBucket := by
  rw [binned, List.length_map, List.countP_eq_length_filter]

theorem Inv.bucket_eq_binned (h : Inv s) (b : Fin numBuckets) :
    s.histogram.buckets b = s.binned.countP fun x => decide (bucketFor x = b) := by
  rw [h.bucket_eq b, countP_binned]
  rfl

theorem Inv.count_le_binned (h : Inv s) : s.histogram.count ≤ s.binned.length := by
  rw [length_binned, ← h.sum_buckets]
  exact h.count_le

/-- A call that goes on stays in its bucket. -/
theorem countP_binned_goto {i x : ℕ} {pc pc' : RecordPc} (hi : s.calls[i]? = some ⟨x, pc⟩)
    (hpc : pc.inBucket = true → pc'.inBucket = true) (p : ℕ → Bool) {m : LatencyHistogram} :
    s.binned.countP p ≤ ({ s.goto i x pc' with histogram := m } : Timing).binned.countP p := by
  rw [countP_binned, countP_binned]
  have hset := countP_set_eq (a := (⟨x, pc'⟩ : RecordCall)) (fun call => call.pc.inBucket && p call.latencyNs) hi
  have hle : (if (pc.inBucket && p x) = true then 1 else 0) ≤ (if (pc'.inBucket && p x) = true then 1 else 0) := by
    cases hold : pc.inBucket with
    | false => simp
    | true => rw [hpc hold]
  simp only [goto] at hset ⊢
  omega

/-- **Samples stay in their buckets.** -/
theorem Step.countP_binned_le (h : Step s a s') (p : ℕ → Bool) : s.binned.countP p ≤ s'.binned.countP p := by
  cases h with
  | record =>
    rw [countP_binned, countP_binned, List.countP_append]
    exact Nat.le_add_right _ _
  | addBucket hi => exact countP_binned_goto hi (fun _ => rfl) p
  | addCount hi => exact countP_binned_goto hi (fun _ => rfl) p
  | addSum hi => exact countP_binned_goto hi (fun _ => rfl) p
  | updateMin hi => exact countP_binned_goto hi (fun _ => RecordPc.inBucket_afterMin _) p
  | updateMax hi => exact countP_binned_goto hi (fun _ => RecordPc.inBucket_afterMax _) p
  | percentile => exact le_rfl
  | loadCount => exact le_rfl
  | loadBucket => exact le_rfl

/-! ### Ranks -/

/-- How many of the samples are in buckets before one. -/
def below (i : ℕ) (samples : List ℕ) : ℕ := samples.countP fun x => decide ((bucketFor x : ℕ) < i)

theorem below_zero (samples : List ℕ) : below 0 samples = 0 := by simp [below]

theorem below_succ (i : Fin numBuckets) (samples : List ℕ) :
    below (i + 1) samples = below i samples + samples.countP fun x => decide (bucketFor x = i) := by
  induction samples with
  | nil => rfl
  | cons x samples ih =>
    simp only [below, List.countP_cons, decide_eq_true_eq, Fin.ext_iff] at ih ⊢
    split_ifs <;> omega

variable {samples : List ℕ} {rank i : ℕ}

/-- A sample has the rank that is in no bucket after the one in which the rank is reached. -/
theorem bucketFor_kth_le (hpos : 0 < rank) (hrank : rank ≤ samples.length) (h : rank ≤ below (i + 1) samples) :
    (bucketFor (kth samples (rank - 1)) : ℕ) ≤ i := by
  have hk : rank - 1 < samples.length := by omega
  by_contra hlt
  have hle : below (i + 1) samples ≤ samples.countP fun x => decide (x < kth samples (rank - 1)) := by
    refine List.countP_mono_left fun x _ hx => decide_eq_true (lt_of_not_ge fun hge => ?_)
    have hbucket : (bucketFor (kth samples (rank - 1)) : ℕ) ≤ bucketFor x := bucketFor_mono hge
    have hx := of_decide_eq_true hx
    omega
  have := countP_lt_kth hk
  omega

/-- And in none before. -/
theorem le_bucketFor_kth (hpos : 0 < rank) (hrank : rank ≤ samples.length) (h : below i samples < rank) :
    i ≤ bucketFor (kth samples (rank - 1)) := by
  have hk : rank - 1 < samples.length := by omega
  by_contra hlt
  have hle : (samples.countP fun x => decide (x ≤ kth samples (rank - 1))) ≤ below i samples := by
    refine List.countP_mono_left fun x _ hx => decide_eq_true ?_
    have hbucket : (bucketFor x : ℕ) ≤ bucketFor (kth samples (rank - 1)) := bucketFor_mono (of_decide_eq_true hx)
    omega
  have := lt_countP_le_kth hk
  omega

/-! ### What a percentile has loaded -/

/-- A percentile that looks for a rank has loaded what was there, and no more than is there now. -/
def Between (before now : List ℕ) (rank : ℕ) : PercentilePc → Prop
  | .loadCount _ => False
  | .scan target cumulative i => target = rank ∧ below i before ≤ cumulative ∧ cumulative ≤ below i now ∧
      ((i : ℕ) = 0 ∨ cumulative < rank)
  | .found latencyNs => ∃ i : Fin numBuckets, latencyNs = latencyForBucket i ∧ rank ≤ below (i + 1) now ∧
      ((i : ℕ) = 0 ∨ below i before < rank)
  | .empty | .fellThrough => True

theorem Between.mono {before now now' : List ℕ} {pc : PercentilePc} (h : Between before now rank pc)
    (hle : ∀ p : ℕ → Bool, now.countP p ≤ now'.countP p) : Between before now' rank pc := by
  cases pc with
  | loadCount => exact h
  | scan target cumulative i =>
    obtain ⟨htarget, hbefore, hnow, hlt⟩ := h
    exact ⟨htarget, hbefore, hnow.trans (hle _), hlt⟩
  | found latencyNs =>
    obtain ⟨i, rfl, hreached, hlt⟩ := h
    exact ⟨i, rfl, hreached.trans (hle _), hlt⟩
  | empty => trivial
  | fellThrough => trivial

theorem between_afterCount (before : List ℕ) (count : ℕ) (p : ℚ) :
    Between before before (target count p) (.afterCount count p) := by
  unfold PercentilePc.afterCount
  split_ifs
  · trivial
  · refine ⟨rfl, ?_, Nat.zero_le _, .inl rfl⟩
    rw [below_zero]

/-- It loads a bucket, in which there is at least what was there. -/
theorem Between.afterBucket {before now : List ℕ} {target cumulative : ℕ} {i : Fin numBuckets}
    (h : Between before now rank (.scan target cumulative i))
    (hle : ∀ p : ℕ → Bool, before.countP p ≤ now.countP p) :
    Between before now rank
      (.afterBucket target (cumulative + now.countP fun x => decide (bucketFor x = i)) i) := by
  obtain ⟨rfl, hbefore, hnow, hlt⟩ := h
  have hreached := below_succ i now
  have hwas := below_succ i before
  have hin := hle fun x => decide (bucketFor x = i)
  unfold PercentilePc.afterBucket
  split_ifs with hfound hnext
  · refine ⟨i, rfl, by omega, ?_⟩
    rcases hlt with hzero | hlt
    · exact .inl hzero
    · exact .inr (by omega)
  · refine ⟨rfl, ?_, ?_, .inr (by omega)⟩
    · change below (i + 1) before ≤ _
      omega
    · change _ ≤ below (i + 1) now
      omega
  · trivial

/-- Every step keeps it. -/
theorem Step.between {before : List ℕ} (h : Step s a s') (hinv : Inv s) {j : ℕ} {pc : PercentilePc}
    (hj : s.readers[j]? = some pc) (hbefore : ∀ p : ℕ → Bool, before.countP p ≤ s.binned.countP p)
    (hpc : Between before s.binned rank pc) :
    ∃ pc', s'.readers[j]? = some pc' ∧ Between before s'.binned rank pc' := by
  have hmono := hpc.mono h.countP_binned_le
  cases h with
  | percentile => exact ⟨pc, getElem?_concat_of_some hj, hmono⟩
  | @loadCount k p hk =>
    by_cases hkj : k = j
    · subst hkj
      rw [hj] at hk
      obtain rfl := Option.some.inj hk
      exact hpc.elim
    · exact ⟨pc, (List.getElem?_set_ne hkj).trans hj, hmono⟩
  | @loadBucket k target cumulative i hk =>
    by_cases hkj : k = j
    · subst hkj
      rw [hj] at hk
      obtain rfl := Option.some.inj hk
      refine ⟨_, getElem?_set_self hj, ?_⟩
      rw [hinv.bucket_eq_binned]
      exact hpc.afterBucket hbefore
    · exact ⟨pc, (List.getElem?_set_ne hkj).trans hj, hmono⟩
  | _ => exact ⟨pc, hj, hmono⟩

/-- From the load of the count on. -/
theorem between_of_steps {s₀ s₁ s₂ : Timing} {p : ℚ} {j : ℕ} (h : machine.Reach s₀)
    (hj : s₀.readers[j]? = some (.loadCount p)) (hload : machine.step s₀ (.read j) = some s₁)
    (hsteps : machine.Steps s₁ s₂) :
    machine.Reach s₂ ∧ (∀ q : ℕ → Bool, s₀.binned.countP q ≤ s₂.binned.countP q) ∧
      ∃ pc, s₂.readers[j]? = some pc ∧ Between s₀.binned s₂.binned (target s₀.histogram.count p) pc := by
  have hfirst : s₁ = s₀.setReader j (.afterCount s₀.histogram.count p) := eq_of_loadCount hj hload
  refine hsteps.keeps (P := fun s => machine.Reach s ∧ (∀ q : ℕ → Bool, s₀.binned.countP q ≤ s.binned.countP q) ∧
    ∃ pc, s.readers[j]? = some pc ∧ Between s₀.binned s.binned (target s₀.histogram.count p) pc) ?_
    ⟨.next h trivial hload, ?_⟩
  · rintro s a s' ⟨hs, hle, pc, hpc, hbetween⟩ - hstep
    have hstep' : Step s a s' := step_of_eq_some hstep
    exact ⟨.next hs trivial hstep, fun q => (hle q).trans (hstep'.countP_binned_le q),
      hstep'.between (inv_of_reach hs) hpc hle hbetween⟩
  · subst hfirst
    exact ⟨fun q => le_rfl, _, getElem?_set_self hj, between_afterCount _ _ _⟩

/-- **A percentile is between what was there and what is there**: it reports no less than the samples
now in the buckets would have for its rank, and no more than those that were there when it
loaded the count. -/
theorem percentile_between {s₀ s₁ s₂ : Timing} {p : ℚ} {j v : ℕ} (h : machine.Reach s₀)
    (hj : s₀.readers[j]? = some (.loadCount p)) (hload : machine.step s₀ (.read j) = some s₁)
    (hsteps : machine.Steps s₁ s₂) (hfound : s₂.readers[j]? = some (.found v)) :
    reported s₂.binned (target s₀.histogram.count p) ≤ v ∧
      v ≤ reported s₀.binned (target s₀.histogram.count p) := by
  have hinv := inv_of_reach h
  have hrank : target s₀.histogram.count p ≤ s₀.binned.length :=
    (target_le (hinv.readers _ (List.mem_of_getElem? hj))).trans hinv.count_le_binned
  obtain ⟨-, hle, pc, hpc, hbetween⟩ := between_of_steps h hj hload hsteps
  rw [hfound] at hpc
  obtain rfl := Option.some.inj hpc
  obtain ⟨i, rfl, hreached, hlt⟩ := hbetween
  have hlength : s₀.binned.length ≤ s₂.binned.length := by simpa using hle fun _ => true
  generalize target s₀.histogram.count p = rank at *
  unfold reported
  split_ifs with hzero
  · -- the rank 0 is found in the first bucket
    have hfirst : (i : ℕ) = 0 := by omega
    rw [hfirst]
    exact ⟨Nat.zero_le _, le_rfl⟩
  · refine ⟨latencyForBucket_mono ?_, latencyForBucket_mono ?_⟩
    · exact bucketFor_kth_le (by omega) (by omega) hreached
    · rcases hlt with hzero | hlt
      · rw [hzero]
        exact Nat.zero_le _
      · exact le_bucketFor_kth (by omega) hrank hlt

/-- Two slow samples are in their buckets when the median begins, and a fast one comes before it has
passed the bucket of that. -/
theorem percentile_between_overtaken : ∃ s₀ s₂ : Timing, machine.Reach s₀ ∧ machine.Steps s₀ s₂ ∧
    s₂.readers[0]? = some (.found 1) ∧ reported s₂.binned (target s₀.histogram.count (1 / 2)) ≤ 1 ∧
    1 ≤ reported s₀.binned (target s₀.histogram.count (1 / 2)) := by
  have hrun : ((machine.run ⟨.new, [], []⟩ [.record 1000, .step 0 false, .step 0 false, .record 1000, .step 1 false,
      .step 1 false, .record 3, .percentile (1 / 2)]).any fun s₀ => (machine.step s₀ (.read 0)).any fun s₁ =>
        (machine.run s₁ ([.read 0, .read 0, .step 2 false] ++ .replicate 2 (.read 0))).any fun s₂ =>
          decide (s₀.readers[0]? = some (.loadCount (1 / 2)) ∧ s₂.readers[0]? = some (.found 1))) = true := by
    decide +kernel
  obtain ⟨s₀, hs₀, hrun⟩ := (Option.any_eq_true _ _).1 hrun
  obtain ⟨s₁, hs₁, hrun⟩ := (Option.any_eq_true _ _).1 hrun
  obtain ⟨s₂, hs₂, hrun⟩ := (Option.any_eq_true _ _).1 hrun
  obtain ⟨hloads, hfound⟩ := of_decide_eq_true hrun
  have hreach := Machine.reach_of_run (.start rfl) hs₀
  have hsteps := Machine.steps_of_run hs₂
  exact ⟨s₀, s₂, hreach, .head ⟨_, trivial, hs₁⟩ hsteps, hfound, percentile_between hreach hloads hs₁ hsteps hfound⟩

end Timing

end SensorBridge.Metrics
