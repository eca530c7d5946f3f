import SensorBridge.Metrics.HistogramThreads

/-!
# A latency histogram that is reset while it is used

`reset` stores to the cells one by one, the buckets first and then the count, while other threads are in
`record` and `percentile`. A call of `record` that has added to its bucket and not yet to the count when
the bucket is cleared is counted without being in a bucket, and stays so: the reset *collides* with
it. When no reset is between its first bucket and its count, the count exceeds what is in the buckets by
no more than the number of collisions so far, whatever the interleaving (`short_of_reach`).

So where there has been no collision, a percentile that loads the count then, and has no bucket
cleared under it, returns from inside its loop, as it does without resets.
-/

namespace SensorBridge.Metrics

open Foundation Threads LatencyHistogram

/-! ### What the steps of the others do to the count and the buckets -/

theorem RecordPc.afterMin_ne (p : Extremum.Progress ℕᵒᵈ) : afterMin p ≠ .addCount := by cases p <;> simp [afterMin]

theorem RecordPc.afterMax_ne (p : Extremum.Progress ℕ) : afterMax p ≠ .addCount := by cases p <;> simp [afterMax]

namespace Timing

variable {s s' : Timing} {a : Act}

/-- Whether a call has added to a bucket and not yet to the count. -/
def owes (b : Fin numBuckets) (call : RecordCall) : Bool :=
  decide (call.pc = .addCount) && decide (bucketFor call.latencyNs = b)

/-- How many calls have added to a bucket and not yet to the count. -/
def owed (s : Timing) (b : Fin numBuckets) : ℕ := s.calls.countP (owes b)

/-- One for the one bucket. -/
def one (b c : Fin numBuckets) : ℕ := if b = c then 1 else 0

theorem sum_one (b : Fin numBuckets) : ∑ c, one b c = 1 := by simp [one]

theorem owes_addCount (b : Fin numBuckets) (x : ℕ) :
    (if owes b ⟨x, .addCount⟩ = true then 1 else 0) = one (bucketFor x) b := by
  simp [owes, one]

theorem owes_of_ne {pc : RecordPc} (h : pc ≠ .addCount) (b : Fin numBuckets) (x : ℕ) : owes b ⟨x, pc⟩ = false := by
  simp [owes, h]

/-- **What a step does to the count and the buckets**: a call adds to its bucket, or to the count, or neither. -/
inductive Cells (s s' : Timing) : Prop where
  | same : s'.histogram.buckets = s.histogram.buckets → s'.histogram.count = s.histogram.count →
      s'.owed = s.owed → Cells s s'
  | addBucket (b : Fin numBuckets) : (∀ c, s'.histogram.buckets c = s.histogram.buckets c + one b c) →
      s'.histogram.count = s.histogram.count → (∀ c, s'.owed c = s.owed c + one b c) → Cells s s'
  | addCount (b : Fin numBuckets) : s'.histogram.buckets = s.histogram.buckets →
      s'.histogram.count = s.histogram.count + 1 → (∀ c, s'.owed c + one b c = s.owed c) → Cells s s'

/-- A call that goes from a step that is not `addCount` to another owes what it did. -/
theorem owed_goto {i x : ℕ} {pc pc' : RecordPc} (hi : s.calls[i]? = some ⟨x, pc⟩) (hpc : pc ≠ .addCount)
    (hpc' : pc' ≠ .addCount) {m : LatencyHistogram} :
    ({ s.goto i x pc' with histogram := m } : Timing).owed = s.owed := by
  funext b
  have hset := countP_set_eq (a := (⟨x, pc'⟩ : RecordCall)) (owes b) hi
  rw [owes_of_ne hpc, owes_of_ne hpc'] at hset
  exact Nat.add_right_cancel hset

theorem Step.cells (h : Step s a s') : Cells s s' := by
  cases h with
  | record =>
    refine .same rfl rfl (funext fun b => ?_)
    simp [owed, owes]
  | @addBucket i x _ hi =>
    refine .addBucket (bucketFor x) (fun c => ?_) rfl fun c => ?_
    · by_cases hc : bucketFor x = c
      · subst hc
        simp [LatencyHistogram.addBucket, one]
      · simp [LatencyHistogram.addBucket, one, hc, Function.update_of_ne (Ne.symm hc)]
    · have hset := countP_set_eq (a := (⟨x, .addCount⟩ : RecordCall)) (owes c) hi
      rw [owes_of_ne (by simp), owes_addCount] at hset
      exact hset
  | @addCount i x _ hi =>
    refine .addCount (bucketFor x) rfl rfl fun c => ?_
    have hset := countP_set_eq (a := (⟨x, .addSum⟩ : RecordCall)) (owes c) hi
    rw [owes_addCount, owes_of_ne (by simp)] at hset
    exact hset
  | addSum hi => exact .same rfl rfl (owed_goto hi (by simp) (by simp))
  | updateMin hi => exact .same rfl rfl (owed_goto hi (by simp) (RecordPc.afterMin_ne _))
  | updateMax hi => exact .same rfl rfl (owed_goto hi (by simp) (RecordPc.afterMax_ne _))
  | percentile => exact .same rfl rfl rfl
  | loadCount => exact .same rfl rfl rfl
  | loadBucket => exact .same rfl rfl rfl

/-- No bucket loses anything by a step of theirs. -/
theorem Cells.buckets_le (h : Cells s s') (b : Fin numBuckets) : s.histogram.buckets b ≤ s'.histogram.buckets b := by
  cases h with
  | same hbuckets => rw [hbuckets]
  | addBucket c hbuckets => rw [hbuckets]; exact Nat.le_add_right _ _
  | addCount c hbuckets => rw [hbuckets]

/-- What comes to be owed on a bucket is in it. -/
theorem Cells.owed_add_le (h : Cells s s') (b : Fin numBuckets) :
    s'.owed b + s.histogram.buckets b ≤ s.owed b + s'.histogram.buckets b := by
  cases h with
  | same hbuckets _ howed => rw [hbuckets, howed]
  | addBucket c hbuckets _ howed => rw [hbuckets, howed]; omega
  | addCount c hbuckets _ howed => rw [hbuckets, ← howed]; omega

/-- The count, with what is owed to it, grows as the buckets do. -/
theorem Cells.count_add_le (h : Cells s s') :
    s'.histogram.count + ∑ b, s'.owed b + ∑ b, s.histogram.buckets b ≤
      s.histogram.count + ∑ b, s.owed b + ∑ b, s'.histogram.buckets b := by
  cases h with
  | same hbuckets hcount howed => rw [hbuckets, hcount, howed]
  | addBucket c hbuckets hcount howed =>
    simp only [hbuckets, hcount, howed, Finset.sum_add_distrib, sum_one]
    omega
  | addCount c hbuckets hcount howed =>
    simp only [hbuckets, hcount, ← howed, Finset.sum_add_distrib, sum_one]
    omega

/-- A percentile past its load of the count has yet to find what is in the buckets it has yet to load. -/
def Loaded (buckets : Fin numBuckets → ℕ) (pc : PercentilePc) : Prop := Covered buckets pc ∧ ∀ p, pc ≠ .loadCount p

theorem Loaded.mono {buckets buckets' : Fin numBuckets → ℕ} (h : ∀ b, buckets b ≤ buckets' b) {pc : PercentilePc}
    (hpc : Loaded buckets pc) : Loaded buckets' pc := ⟨hpc.1.mono h, hpc.2⟩

theorem loaded_afterCount {buckets : Fin numBuckets → ℕ} {count : ℕ} {p : ℚ} (hp : p ≤ 1)
    (hcount : count ≤ ∑ b, buckets b) : Loaded buckets (.afterCount count p) := by
  refine ⟨covered_afterCount hp hcount, fun q => ?_⟩
  unfold PercentilePc.afterCount
  split_ifs <;> simp

theorem Loaded.afterBucket {buckets : Fin numBuckets → ℕ} {target cumulative : ℕ} {i : Fin numBuckets}
    (h : Loaded buckets (.scan target cumulative i)) :
    Loaded buckets (.afterBucket target (cumulative + buckets i) i) := by
  refine ⟨covered_afterBucket h.1, fun q => ?_⟩
  unfold PercentilePc.afterBucket
  split_ifs <;> simp

/-- No step of theirs takes anything from under it. -/
theorem Step.loaded (h : Step s a s') {j : ℕ} {pc : PercentilePc} (hj : s.readers[j]? = some pc)
    (hpc : Loaded s.histogram.buckets pc) :
    ∃ pc', s'.readers[j]? = some pc' ∧ Loaded s'.histogram.buckets pc' := by
  have hmono := hpc.mono h.cells.buckets_le
  cases h with
  | percentile => exact ⟨pc, getElem?_concat_of_some hj, hmono⟩
  | @loadCount k p hk =>
    by_cases hkj : k = j
    · subst hkj
      rw [hj] at hk
      obtain rfl := Option.some.inj hk
      exact absurd rfl (hpc.2 p)
    · exact ⟨pc, (List.getElem?_set_ne hkj).trans hj, hmono⟩
  | @loadBucket k target cumulative i hk =>
    by_cases hkj : k = j
    · subst hkj
      rw [hj] at hk
      obtain rfl := Option.some.inj hk
      exact ⟨_, getElem?_set_self hj, hpc.afterBucket⟩
    · exact ⟨pc, (List.getElem?_set_ne hkj).trans hj, hmono⟩
  | _ => exact ⟨pc, hj, hmono⟩

/-- A percentile asks for no more than all samples. -/
def Asks (s : Timing) : Prop := ∀ p, .loadCount p ∈ s.readers → p ≤ 1

theorem Step.asks (h : Step s a s') (hasks : s.Asks) : s'.Asks := by
  intro q hq
  cases h with
  | percentile _ hle =>
    rcases List.mem_append.1 hq with hq | hq
    · exact hasks q hq
    · cases List.mem_singleton.1 hq
      exact hle
  | @loadCount k p hk =>
    rcases List.mem_or_eq_of_mem_set hq with hq | heq
    · exact hasks q hq
    · unfold PercentilePc.afterCount at heq
      split_ifs at heq
  | loadBucket hk =>
    rcases List.mem_or_eq_of_mem_set hq with hq | heq
    · exact hasks q hq
    · unfold PercentilePc.afterBucket at heq
      split_ifs at heq
  | _ => exact hasks q hq

end Timing

/-! ### Resets -/

/-- Where a call of `reset` is: what it does next. -/
inductive ResetPc where
  /-- `bucket.store(0)`. -/
  | clearBucket (b : Fin numBuckets)
  /-- `count.store(0)`. -/
  | clearCount
  /-- `sum.store(0)`. -/
  | clearSum
  /-- `min.store(u64::MAX)`. -/
  | clearMin
  /-- `max.store(0)`. -/
  | clearMax
  /-- It has returned. -/
  | returned
  deriving DecidableEq

namespace ResetPc

/-- What comes after the store to a bucket. -/
def afterBucket (b : Fin numBuckets) : ResetPc :=
  if h : (b : ℕ) + 1 < numBuckets then .clearBucket ⟨b + 1, h⟩ else .clearCount

/-- Whether the call has cleared a bucket and not yet the count. -/
def midway : ResetPc → Bool
  | .clearBucket b => decide (0 < (b : ℕ))
  | .clearCount => true
  | _ => false

theorem midway_afterBucket (b : Fin numBuckets) : (afterBucket b).midway = true := by
  unfold afterBucket
  split_ifs <;> simp [midway]

end ResetPc

/-- A histogram in use, and the calls of `reset`. -/
structure Resetting where
  timing : Timing
  /-- The calls of `reset`, in the order in which they began. -/
  resets : List ResetPc
  /-- How many calls of `record` a bucket has been cleared under that had yet to add to the count; read by
  proofs only. -/
  collided : Fin numBuckets → ℕ

namespace Resetting

/-- What can happen next. -/
inductive Act where
  /-- Something happens that is not a reset. -/
  | timing (a : Timing.Act)
  /-- A thread calls `reset`. -/
  | reset
  /-- Call `k` of `reset` takes its next step. -/
  | clear (k : ℕ)

/-- Call `k` of `reset` leaves the histogram so, and goes on to `pc`. -/
def store (s : Resetting) (k : ℕ) (pc : ResetPc) (histogram : LatencyHistogram) : Resetting :=
  { s with timing := { s.timing with histogram }, resets := s.resets.set k pc }

/-- A bucket is cleared. -/
def clearBucket (s : Resetting) (k : ℕ) (b : Fin numBuckets) : Resetting :=
  { s.store k (.afterBucket b)
      { s.timing.histogram with buckets := Function.update s.timing.histogram.buckets b 0 } with
    collided := Function.update s.collided b (s.collided b + s.timing.owed b) }

/-- The next step of call `k` of `reset`. -/
def stepReset (s : Resetting) (k : ℕ) : ResetPc → Option Resetting
  | .clearBucket b => some (s.clearBucket k b)
  | .clearCount => some (s.store k .clearSum { s.timing.histogram with count := 0 })
  | .clearSum => some (s.store k .clearMin { s.timing.histogram with sum := 0 })
  | .clearMin => some (s.store k .clearMax { s.timing.histogram with min := 2 ^ 64 - 1 })
  | .clearMax => some (s.store k .returned { s.timing.histogram with max := 0 })
  | .returned => none

theorem numBuckets_pos : 0 < numBuckets := Nat.succ_pos _

/-- The step function. -/
def step (s : Resetting) : Act → Option Resetting
  | .timing a => (s.timing.step a).map fun timing => { s with timing }
  | .reset => some { s with resets := s.resets ++ [.clearBucket ⟨0, numBuckets_pos⟩] }
  | .clear k => s.resets[k]?.bind (s.stepReset k)

/-- A new histogram. -/
def machine : Machine Resetting Act where
  init s := s = ⟨⟨.new, [], []⟩, [], fun _ => 0⟩
  step := step

/-- **What a step can be.** -/
inductive Step (s : Resetting) : Act → Resetting → Prop where
  | timing {a : Timing.Act} {t : Timing} : Timing.Step s.timing a t → Step s (.timing a) { s with timing := t }
  | reset : Step s .reset { s with resets := s.resets ++ [.clearBucket ⟨0, numBuckets_pos⟩] }
  | clearBucket {k : ℕ} {b : Fin numBuckets} : s.resets[k]? = some (.clearBucket b) →
      Step s (.clear k) (s.clearBucket k b)
  | clearCount {k : ℕ} : s.resets[k]? = some .clearCount →
      Step s (.clear k) (s.store k .clearSum { s.timing.histogram with count := 0 })
  | clearRest {k : ℕ} {pc pc' : ResetPc} {m : LatencyHistogram} : s.resets[k]? = some pc → pc.midway = false →
      pc'.midway = false → m.buckets = s.timing.histogram.buckets → m.count = s.timing.histogram.count →
      Step s (.clear k) (s.store k pc' m)

variable {s s' : Resetting} {a : Act}

theorem step_of_eq_some (h : s.step a = some s') : Step s a s' := by
  cases a with
  | timing a =>
    obtain ⟨t, ht, rfl⟩ := Option.map_eq_some_iff.1 h
    exact .timing (Timing.step_of_eq_some ht)
  | reset =>
    cases h
    exact .reset
  | clear k =>
    obtain ⟨pc, hk, hpc⟩ := Option.bind_eq_some_iff.1 h
    cases pc with
    | clearBucket b => cases hpc; exact .clearBucket hk
    | clearCount => cases hpc; exact .clearCount hk
    | clearSum => cases hpc; exact .clearRest hk rfl rfl rfl rfl
    | clearMin => cases hpc; exact .clearRest hk rfl rfl rfl rfl
    | clearMax => cases hpc; exact .clearRest hk rfl rfl rfl rfl
    | returned => cases hpc

/-! ### Collisions -/

/-- No reset is between its first bucket and its count. -/
def Settled (s : Resetting) : Prop := ∀ pc ∈ s.resets, pc.midway = false

instance (s : Resetting) : Decidable s.Settled := inferInstanceAs (Decidable (∀ pc ∈ s.resets, pc.midway = false))

/-- A call that was not midway was not what a reset has to settle. -/
theorem settled_of_set {k : ℕ} {pc pc' : ResetPc} (hk : s.resets[k]? = some pc) (hpc : pc.midway = false)
    (h : ∀ pc ∈ s.resets.set k pc', pc.midway = false) : s.Settled := by
  intro q hq
  rcases mem_set_of_mem (a := pc') hk hq with rfl | hmem
  · exact hpc
  · exact h q hmem

structure Inv (s : Resetting) : Prop where
  asks : s.timing.Asks
  /-- What is owed on a bucket is in it, or it was cleared under the call. -/
  owed_le : ∀ b, s.timing.owed b ≤ s.timing.histogram.buckets b + s.collided b
  /-- The count, with what is owed to it, is in the buckets, but for the collisions. -/
  count_le : s.Settled → s.timing.histogram.count + ∑ b, s.timing.owed b ≤
    ∑ b, s.timing.histogram.buckets b + ∑ b, s.collided b

theorem inv_new : Inv ⟨⟨.new, [], []⟩, [], fun _ => 0⟩ where
  asks p hp := absurd hp List.not_mem_nil
  owed_le b := Nat.zero_le _
  count_le _ := by simp [Timing.owed, LatencyHistogram.new]

/-- A bucket is cleared: what was owed on it has collided. -/
theorem Inv.clearBucket (h : Inv s) (k : ℕ) (b : Fin numBuckets) (hk : k < s.resets.length) :
    Inv (s.clearBucket k b) where
  asks := h.asks
  owed_le c := by
    by_cases hc : c = b
    · subst hc
      have hself : (s.clearBucket k c).collided c = s.collided c + s.timing.owed c := Function.update_self ..
      rw [hself]
      change s.timing.owed c ≤ _
      omega
    · have hbucket : (s.clearBucket k b).timing.histogram.buckets c = s.timing.histogram.buckets c :=
        Function.update_of_ne hc _ _
      have hcollided : (s.clearBucket k b).collided c = s.collided c := Function.update_of_ne hc _ _
      rw [hbucket, hcollided]
      exact h.owed_le c
  count_le hsettled := by
    have hmidway := hsettled (.afterBucket b) (List.mem_of_getElem? (i := k) ?_)
    · rw [ResetPc.midway_afterBucket] at hmidway
      cases hmidway
    · exact List.getElem?_set_self hk

theorem Inv.step (h : Inv s) (hs : Step s a s') : Inv s' := by
  cases hs with
  | @timing a t ht =>
    have hcells := ht.cells
    refine ⟨ht.asks h.asks, fun b => ?_, fun hsettled => ?_⟩
    · have howed := hcells.owed_add_le b
      have hle := h.owed_le b
      change t.owed b ≤ t.histogram.buckets b + s.collided b
      omega
    · have hcount := hcells.count_add_le
      have hle := h.count_le hsettled
      change t.histogram.count + ∑ b, t.owed b ≤ ∑ b, t.histogram.buckets b + ∑ b, s.collided b
      omega
  | reset =>
    refine ⟨h.asks, h.owed_le, fun hsettled => h.count_le fun pc hpc => ?_⟩
    exact hsettled pc (List.mem_append_left _ hpc)
  | clearBucket hk => exact h.clearBucket _ _ (List.getElem?_eq_some_iff.1 hk).1
  | clearCount hk =>
    refine ⟨h.asks, h.owed_le, fun _ => ?_⟩
    have hsum := Finset.sum_le_sum fun b (_ : b ∈ Finset.univ) => h.owed_le b
    rw [Finset.sum_add_distrib] at hsum
    exact (Nat.zero_add _).trans_le hsum
  | clearRest hk hpc hpc' hbuckets hcount =>
    refine ⟨h.asks, fun b => ?_, fun hsettled => ?_⟩
    · have hle := h.owed_le b
      rw [← hbuckets] at hle
      exact hle
    · have hle := h.count_le (settled_of_set hk hpc hsettled)
      rw [← hbuckets, ← hcount] at hle
      exact hle

theorem inv_of_reach (h : machine.Reach s) : Inv s := by
  refine h.invariant ?_ fun s a s' hs _ hstep => hs.step (step_of_eq_some hstep)
  rintro s rfl
  exact inv_new

/-! ### Percentiles -/

/-- Whether an action clears a bucket. -/
def clears (s : Resetting) : Act → Bool
  | .clear k => s.resets[k]?.any fun pc => match pc with
    | .clearBucket _ => true
    | _ => false
  | _ => false

/-- What is not a clear of a bucket takes nothing from under a percentile. -/
theorem Step.loaded (h : Step s a s') (hclears : s.clears a = false) {j : ℕ}
    (hj : ∃ pc, s.timing.readers[j]? = some pc ∧ Timing.Loaded s.timing.histogram.buckets pc) :
    ∃ pc, s'.timing.readers[j]? = some pc ∧ Timing.Loaded s'.timing.histogram.buckets pc := by
  obtain ⟨pc, hpc, hloaded⟩ := hj
  cases h with
  | timing ht => exact ht.loaded hpc hloaded
  | reset => exact ⟨pc, hpc, hloaded⟩
  | clearBucket hk => simp [clears, hk] at hclears
  | clearCount => exact ⟨pc, hpc, hloaded⟩
  | clearRest _ _ _ hbuckets => exact ⟨pc, hpc, hbuckets ▸ hloaded⟩

/-- The load of the count, when it is no more than what is in the buckets. -/
theorem loaded_of_read {j : ℕ} {p : ℚ} (hp : p ≤ 1) (hj : s.timing.readers[j]? = some (.loadCount p))
    (hcount : s.timing.histogram.count ≤ ∑ b, s.timing.histogram.buckets b)
    (hload : s.step (.timing (.read j)) = some s') :
    ∃ pc, s'.timing.readers[j]? = some pc ∧ Timing.Loaded s'.timing.histogram.buckets pc := by
  obtain ⟨t, ht, rfl⟩ := Option.map_eq_some_iff.1 hload
  have hfirst : t = s.timing.setReader j (.afterCount s.timing.histogram.count p) := by
    rw [Timing.step, hj] at ht
    exact (Option.some.inj ht).symm
  subst hfirst
  exact ⟨_, getElem?_set_self hj, Timing.loaded_afterCount hp hcount⟩

/-- **What a reset can break**: when none is between its first bucket and its count, the count is short of
the buckets or exceeds them by no more than the collisions there have been. Without collisions, a
percentile that loads the count then, and has no bucket cleared under it, does not fall through its loop. -/
theorem short_of_reach (h : machine.Reach s) (hsettled : s.Settled) :
    s.timing.histogram.count ≤ ∑ b, s.timing.histogram.buckets b + ∑ b, s.collided b ∧
      (∑ b, s.collided b = 0 → ∀ (j : ℕ) (p : ℚ) (s₁ s₂ : Resetting), s.timing.readers[j]? = some (.loadCount p) →
        s.step (.timing (.read j)) = some s₁ → machine.StepsBy (fun s a => s.clears a = false) s₁ s₂ →
        s₂.timing.readers[j]? ≠ some .fellThrough) := by
  have hinv := inv_of_reach h
  have hle := hinv.count_le hsettled
  refine ⟨by omega, fun hnone j p s₁ s₂ hj hload hsteps hfell => ?_⟩
  have hp : p ≤ 1 := hinv.asks p (List.mem_of_getElem? hj)
  obtain ⟨pc, hpc, hloaded⟩ := hsteps.keeps
    (P := fun s => ∃ pc, s.timing.readers[j]? = some pc ∧ Timing.Loaded s.timing.histogram.buckets pc)
    (fun s a s' hs hclears hstep => (step_of_eq_some hstep).loaded hclears hs)
    (loaded_of_read hp hj (by omega) hload)
  rw [hfell] at hpc
  cases hpc
  exact hloaded.1

/-- A sample is recorded, the histogram is reset, another is recorded, and the median is asked for. -/
theorem short_of_reach_reused : ∃ s s₂, machine.Reach s ∧ s.timing.histogram.count = 1 ∧
    s.timing.histogram.count ≤ ∑ b, s.timing.histogram.buckets b + ∑ b, s.collided b ∧
    machine.Steps s s₂ ∧ s₂.timing.readers[0]? ≠ some .fellThrough := by
  have hrun : ((machine.run ⟨⟨.new, [], []⟩, [], fun _ => 0⟩ ([.timing (.record 100)] ++
      .replicate 3 (.timing (.step 0 false)) ++ [.reset] ++ .replicate (numBuckets + 4) (.clear 0) ++
      [.timing (.record 7), .timing (.step 1 false), .timing (.step 1 false), .timing (.percentile (1 / 2))])).any
        fun s => (machine.step s (.timing (.read 0))).any fun s₁ => decide (s.Settled ∧ s.timing.histogram.count = 1 ∧
          ∑ b, s.collided b = 0 ∧ s.timing.readers[0]? = some (.loadCount (1 / 2)))) = true := by
    decide +kernel
  obtain ⟨s, hs, hrun⟩ := (Option.any_eq_true _ _).1 hrun
  obtain ⟨s₁, hs₁, htest⟩ := (Option.any_eq_true _ _).1 hrun
  obtain ⟨hsettled, hcount, hcollided, hloads⟩ := of_decide_eq_true htest
  have hreach := Machine.reach_of_run (.start rfl) hs
  have hshort := short_of_reach hreach hsettled
  exact ⟨s, s₁, hreach, hcount, hshort.1, .single ⟨_, trivial, hs₁⟩,
    hshort.2 hcollided 0 (1 / 2) s₁ s₁ hloads hs₁ .refl⟩

/-- Collisions do happen: a sample is in its bucket and not in the count when a reset passes, and is
then counted without being in a bucket. -/
theorem exists_collided : ∃ s, machine.Reach s ∧ s.Settled ∧ s.timing.histogram.count = 1 ∧
    ∑ b, s.timing.histogram.buckets b = 0 := by
  obtain ⟨s, hs, htest⟩ := Machine.exists_reach_of_run (M := machine) rfl
    ([.timing (.record 100), .timing (.step 0 false), .reset] ++ .replicate (numBuckets + 4) (.clear 0) ++
      [.timing (.step 0 false)])
    (fun s => decide (s.Settled ∧ s.timing.histogram.count = 1 ∧ ∑ b, s.timing.histogram.buckets b = 0))
    (by decide +kernel)
  exact ⟨s, hs, of_decide_eq_true htest⟩

end Resetting

end SensorBridge.Metrics
