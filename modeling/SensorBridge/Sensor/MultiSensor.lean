import SensorBridge.Sensor.Driver
import SensorBridge.Stage.Synced

/-!
# Two sensors and a thread that matches them

An IMU and a barometer have a driver thread and a ring buffer each, and one fusion thread consumes both
buffers: it pops the barometer's readings until there is none, feeding each to a `TimestampSync`, then the
IMU's until there is none, matching each, and begins again. The drivers run at their own pace, and the
buffers may drop samples.

Whatever the interleaving, each reading of the IMU that has come is answered once and in order, with the
closest of the last readings of the barometer that had come by then, if one is within the tolerance.
The synchronizer counts its misses and the readings it keeps (`fuses_of_reach`).
-/

namespace SensorBridge.Sensor

open Foundation Buffer RingBuffer Timestamp Stage

universe u

variable {α β : Type u} {N M capacity toleranceNs : ℕ}

namespace Driver

/-- The consumer's next step, and what its pop returns if it does with this step. -/
def consume (N : ℕ) (s : Driver α) : Option (Driver α × Option (Option (Timestamped α))) :=
  match s.spsc.pop with
  | .idle => (s.step N .pop).map fun s' => (s', none)
  | _ => (s.step N .consumer).map fun s' => (s', s'.spsc.popResults[s.spsc.popResults.length]?)

variable {s s' : Driver α}

theorem step_consumer_popped (h : s.step N .consumer = some s') : s'.spsc.popped =
    s.spsc.popped ++ (s'.spsc.popResults[s.spsc.popResults.length]?).join.toList := by
  obtain ⟨spsc, hspsc, rfl⟩ := Option.map_eq_some_iff.1 h
  cases Spsc.step_cases hspsc with
  | empty | item | read | release => simp [Spsc.popped]

/-- **What a step of the consumer does**: a reading that its pop returns has come. -/
theorem consume_spec {returned : Option (Option (Timestamped α))} (h : s.consume N = some (s', returned)) :
    (∃ a, s.step N a = some s') ∧ s'.spsc.popped = s.spsc.popped ++ returned.join.toList := by
  unfold consume at h
  split at h
  · obtain ⟨t, ht, heq⟩ := Option.map_eq_some_iff.1 h
    obtain ⟨rfl, rfl⟩ := Prod.mk.inj heq
    refine ⟨⟨_, ht⟩, ?_⟩
    obtain ⟨spsc, hspsc, rfl⟩ := Option.map_eq_some_iff.1 ht
    cases Spsc.step_cases hspsc with
    | pop => exact (List.append_nil _).symm
  · obtain ⟨t, ht, heq⟩ := Option.map_eq_some_iff.1 h
    obtain ⟨rfl, rfl⟩ := Prod.mk.inj heq
    exact ⟨⟨_, ht⟩, step_consumer_popped ht⟩

/-- What the driver does is not seen by the consumer. -/
theorem popped_sample {raw : ℕ} {reading : α} (h : s.step N (.sample raw reading) = some s') :
    s'.spsc.popped = s.spsc.popped := by
  obtain ⟨spsc, hspsc, rfl⟩ := Option.map_eq_some_iff.1 h
  cases Spsc.step_cases hspsc with
  | push => rfl

theorem popped_producer (h : s.step N .producer = some s') : s'.spsc.popped = s.spsc.popped := by
  obtain ⟨spsc, hspsc, rfl⟩ := Option.map_eq_some_iff.1 h
  cases Spsc.step_cases hspsc with
  | full | room | write | publish => rfl

end Driver

/-- The loop the fusion thread is in. -/
inductive FusionLoop where
  /-- `while let Some(baro) = baro_consumer.pop()`. -/
  | feeding
  /-- `while let Some(imu) = imu_consumer.pop()`. -/
  | matching
  deriving DecidableEq

/-- The two sensors with their drivers and buffers, and the fusion thread. -/
structure MultiSensor (α β : Type u) (capacity : ℕ) where
  imu : Driver α
  baro : Driver β
  sync : TimestampSync β capacity
  loop : FusionLoop
  /-- What the synchronizer has answered. -/
  answers : List (Answer α β)

namespace MultiSensor

/-- What can happen next. -/
inductive Act (α β : Type u) where
  /-- The IMU is sampled. -/
  | imuSample (raw : ℕ) (reading : α)
  /-- The IMU's driver takes its next step in a push. -/
  | imuPush
  /-- The barometer is sampled. -/
  | baroSample (raw : ℕ) (reading : β)
  /-- The barometer's driver takes its next step in a push. -/
  | baroPush
  /-- The fusion thread takes its next step. -/
  | fusion

section
variable [NeZero capacity]

/-- The fusion thread's next step in a pop, with what it does when the pop returns. -/
def fuse (N M : ℕ) (s : MultiSensor α β capacity) : Option (MultiSensor α β capacity) :=
  match s.loop with
  | .feeding => (s.baro.consume M).map fun
    | (baro, none) => { s with baro }
    | (baro, some none) => { s with baro, loop := .matching }
    | (baro, some (some reading)) => { s with baro, sync := s.sync.pushSecondary reading }
  | .matching => (s.imu.consume N).map fun
    | (imu, none) => { s with imu }
    | (imu, some none) => { s with imu, loop := .feeding }
    | (imu, some (some reading)) =>
      { s with imu, sync := (s.sync.matchPrimary reading).1,
               answers := s.answers ++ [⟨reading, s.baro.spsc.popped, (s.sync.matchPrimary reading).2⟩] }

/-- One step. -/
def step (N M : ℕ) (s : MultiSensor α β capacity) : Act α β → Option (MultiSensor α β capacity)
  | .imuSample raw reading => (s.imu.step N (.sample raw reading)).map fun imu => { s with imu }
  | .imuPush => (s.imu.step N .producer).map fun imu => { s with imu }
  | .baroSample raw reading => (s.baro.step M (.sample raw reading)).map fun baro => { s with baro }
  | .baroPush => (s.baro.step M .producer).map fun baro => { s with baro }
  | .fusion => s.fuse N M

/-- New sensors, new buffers and a new synchronizer. -/
def new (toleranceNs : ℕ) : MultiSensor α β capacity := ⟨.new, .new, .new toleranceNs, .feeding, []⟩

/-- The machine. -/
def machine (N M toleranceNs : ℕ) (α β : Type u) (capacity : ℕ) [NeZero capacity] :
    Machine (MultiSensor α β capacity) (Act α β) where
  init := (· = new toleranceNs)
  step := step N M

/-- **The fusion thread does as it should.** -/
structure Fuses (toleranceNs : ℕ) (s : MultiSensor α β capacity) : Prop where
  /-- What is answered was sampled, in this order. -/
  sampled : List.Sublist (s.answers.map Answer.primary) s.imu.samples
  /-- Each reading of the IMU that has come is answered once. -/
  answered : s.answers.map Answer.primary = s.imu.spsc.popped
  /-- What had been fed for an answer had come, for a later one more. -/
  fed : (s.answers.map Answer.fed ++ [s.baro.spsc.popped]).Pairwise (· <+: ·)
  /-- Each answer is the closest of the last that had been fed, if one is within the tolerance. -/
  right : ∀ a ∈ s.answers, a.Right capacity toleranceNs
  /-- The misses are counted. -/
  unmatchedCount_eq : s.sync.unmatchedCount = s.answers.countP fun a => a.pair.isNone
  /-- The last readings are kept, apart from those that the last match made useless. -/
  stored_perm : s.sync.secondaryBuffer.stored.Perm
    ((s.baro.spsc.popped.rtake capacity).filter fun t => decide (cutoff toleranceNs s.answers ≤ t.timestampNs))
  /-- And they are counted. -/
  bufferLen_eq : s.sync.bufferLen = s.sync.secondaryBuffer.stored.length

/-! ### The invariant -/

/-- The synchronizer has been fed what has come from the barometer, and answered what has come from the IMU. -/
structure Inv (toleranceNs : ℕ) (s : MultiSensor α β capacity) : Prop where
  answered : s.answers.map Answer.primary = s.imu.spsc.popped
  fed : (s.answers.map Answer.fed ++ [s.baro.spsc.popped]).Pairwise (· <+: ·)
  synced : Synced toleranceNs s.baro.spsc.popped s.sync s.answers

variable {s s' : MultiSensor α β capacity}

/-- What a step is for the rest: nothing that it sees, a reading that is fed, or one that is matched. -/
inductive Moves (s s' : MultiSensor α β capacity) : Prop
  | same : s'.imu.spsc.popped = s.imu.spsc.popped → s'.baro.spsc.popped = s.baro.spsc.popped → s'.sync = s.sync →
      s'.answers = s.answers → Moves s s'
  | fed (t : Timestamped β) : s'.imu.spsc.popped = s.imu.spsc.popped →
      s'.baro.spsc.popped = s.baro.spsc.popped ++ [t] → s'.sync = s.sync.pushSecondary t → s'.answers = s.answers →
      Moves s s'
  | matched (t : Timestamped α) : s'.imu.spsc.popped = s.imu.spsc.popped ++ [t] →
      s'.baro.spsc.popped = s.baro.spsc.popped → s'.sync = (s.sync.matchPrimary t).1 →
      s'.answers = s.answers ++ [⟨t, s.baro.spsc.popped, (s.sync.matchPrimary t).2⟩] → Moves s s'

/-- **What a step does**: to each driver at most one step, and one of the three to the rest. -/
theorem step_spec {a : Act α β} (h : s.step N M a = some s') :
    (s'.imu = s.imu ∨ ∃ b, s.imu.step N b = some s'.imu) ∧
      (s'.baro = s.baro ∨ ∃ b, s.baro.step M b = some s'.baro) ∧ Moves s s' := by
  cases a with
  | imuSample raw reading =>
    obtain ⟨imu, himu, rfl⟩ := Option.map_eq_some_iff.1 h
    exact ⟨.inr ⟨_, himu⟩, .inl rfl, .same (Driver.popped_sample himu) rfl rfl rfl⟩
  | imuPush =>
    obtain ⟨imu, himu, rfl⟩ := Option.map_eq_some_iff.1 h
    exact ⟨.inr ⟨_, himu⟩, .inl rfl, .same (Driver.popped_producer himu) rfl rfl rfl⟩
  | baroSample raw reading =>
    obtain ⟨baro, hbaro, rfl⟩ := Option.map_eq_some_iff.1 h
    exact ⟨.inl rfl, .inr ⟨_, hbaro⟩, .same rfl (Driver.popped_sample hbaro) rfl rfl⟩
  | baroPush =>
    obtain ⟨baro, hbaro, rfl⟩ := Option.map_eq_some_iff.1 h
    exact ⟨.inl rfl, .inr ⟨_, hbaro⟩, .same rfl (Driver.popped_producer hbaro) rfl rfl⟩
  | fusion =>
    simp only [step, fuse] at h
    split at h
    · obtain ⟨⟨baro, returned⟩, hbaro, rfl⟩ := Option.map_eq_some_iff.1 h
      obtain ⟨hstep, hpopped⟩ := Driver.consume_spec hbaro
      rcases returned with _ | _ | reading
      · exact ⟨.inl rfl, .inr hstep, .same rfl (hpopped.trans (List.append_nil _)) rfl rfl⟩
      · exact ⟨.inl rfl, .inr hstep, .same rfl (hpopped.trans (List.append_nil _)) rfl rfl⟩
      · exact ⟨.inl rfl, .inr hstep, .fed reading rfl hpopped rfl rfl⟩
    · obtain ⟨⟨imu, returned⟩, himu, rfl⟩ := Option.map_eq_some_iff.1 h
      obtain ⟨hstep, hpopped⟩ := Driver.consume_spec himu
      rcases returned with _ | _ | reading
      · exact ⟨.inr hstep, .inl rfl, .same (hpopped.trans (List.append_nil _)) rfl rfl rfl⟩
      · exact ⟨.inr hstep, .inl rfl, .same (hpopped.trans (List.append_nil _)) rfl rfl rfl⟩
      · exact ⟨.inr hstep, .inl rfl, .matched reading hpopped rfl rfl rfl⟩

/-- The drivers and their buffers are in states that they reach by themselves. -/
theorem imu_of_reach (h : (machine N M toleranceNs α β capacity).Reach s) : (Driver.machine N α).Reach s.imu := by
  refine h.simulate (E := fun _ _ => True) imu (fun s hs => by rw [hs]; rfl) fun s a s' _ _ hs => ?_
  rcases (step_spec hs).1 with heq | ⟨b, hb⟩
  · exact .inl heq
  · exact .inr ⟨b, trivial, hb⟩

theorem baro_of_reach (h : (machine N M toleranceNs α β capacity).Reach s) : (Driver.machine M β).Reach s.baro := by
  refine h.simulate (E := fun _ _ => True) baro (fun s hs => by rw [hs]; rfl) fun s a s' _ _ hs => ?_
  rcases (step_spec hs).2.1 with heq | ⟨b, hb⟩
  · exact .inl heq
  · exact .inr ⟨b, trivial, hb⟩

/-- A reading that comes last is no older than the others. -/
theorem forall_le_of_concat {γ : Type u} {ts : List (Timestamped γ)} {t : Timestamped γ}
    (h : ((ts ++ [t]).map Timestamped.timestampNs).Pairwise (· ≤ ·)) : ∀ x ∈ ts, x.timestampNs ≤ t.timestampNs := by
  rw [List.map_append] at h
  intro x hx
  exact (List.pairwise_append.1 h).2.2 _ (List.mem_map_of_mem hx) _ (by simp)

/-- **Every step keeps the invariant.** -/
theorem Inv.moves (h : Inv toleranceNs s) (htolerance : toleranceNs < 2 ^ 64 - 1) (hm : Moves s s')
    (himu : (s'.imu.spsc.popped.map Timestamped.timestampNs).Pairwise (· ≤ ·))
    (hbaro : (s'.baro.spsc.popped.map Timestamped.timestampNs).Pairwise (· ≤ ·)) : Inv toleranceNs s' := by
  cases hm with
  | same hi hb hsync hanswers =>
    refine ⟨?_, ?_, ?_⟩
    · rw [hanswers, hi, h.answered]
    · rw [hanswers, hb]
      exact h.fed
    · rw [hanswers, hb, hsync]
      exact h.synced
  | fed t hi hb hsync hanswers =>
    refine ⟨?_, ?_, ?_⟩
    · rw [hanswers, hi, h.answered]
    · rw [hanswers, hb]
      obtain ⟨hfed, -, hlast⟩ := List.pairwise_append.1 h.fed
      refine List.pairwise_append.2 ⟨hfed, List.pairwise_singleton _ _, fun x hx y hy => ?_⟩
      rw [List.mem_singleton.1 hy]
      exact (hlast x hx _ (List.mem_singleton_self _)).trans (List.prefix_append _ _)
    · rw [hb] at hbaro
      rw [hanswers, hb, hsync]
      exact h.synced.push (forall_le_of_concat hbaro)
  | matched t hi hb hsync hanswers =>
    refine ⟨?_, ?_, ?_⟩
    · rw [hanswers, hi, List.map_append, h.answered]
      rfl
    · rw [hanswers, hb, List.map_append]
      refine List.pairwise_append.2 ⟨h.fed, List.pairwise_singleton _ _, fun x hx y hy => ?_⟩
      rw [List.mem_singleton.1 hy]
      rcases List.mem_append.1 hx with hx | hx
      · exact (List.pairwise_append.1 h.fed).2.2 x hx _ (List.mem_singleton_self _)
      · rw [List.mem_singleton.1 hx]
    · rw [hanswers, hb, hsync]
      refine h.synced.match htolerance fun a ha => ?_
      rw [hi, ← h.answered] at himu
      exact forall_le_of_concat himu _ (List.mem_map_of_mem ha)

theorem inv_of_reach (hN : AssertPowerOfTwo N) (hM : AssertPowerOfTwo M) (htolerance : toleranceNs < 2 ^ 64 - 1)
    (h : (machine N M toleranceNs α β capacity).Reach s) : Inv toleranceNs s := by
  induction h with
  | start hs =>
    obtain rfl : _ = new toleranceNs := hs
    exact ⟨rfl, List.pairwise_singleton _ _, synced_new⟩
  | next hr hc hs ih =>
    have hnext := Machine.ReachBy.next hr hc hs
    exact ih.moves htolerance (step_spec hs).2.2 (Driver.timestampNs_popped hN (imu_of_reach hnext))
      (Driver.timestampNs_popped hM (baro_of_reach hnext))

/-- **The fusion thread does as it should**, in every interleaving, unless the tolerance is `u64::MAX`. -/
theorem fuses_of_reach (hN : AssertPowerOfTwo N) (hM : AssertPowerOfTwo M) (htolerance : toleranceNs < 2 ^ 64 - 1)
    (h : (machine N M toleranceNs α β capacity).Reach s) : Fuses toleranceNs s := by
  obtain ⟨hanswered, hfed, hsynced⟩ := inv_of_reach hN hM htolerance h
  refine ⟨?_, hanswered, hfed, hsynced.right, hsynced.unmatchedCount_eq, hsynced.stored_perm, ?_⟩
  · rw [hanswered]
    exact Driver.popped_sublist hN (imu_of_reach h)
  · exact hsynced.counts.1.trans (length_stored _).symm

/-- Of three readings of the IMU the second is too far from both of the barometer's, and the third makes the
first of these useless. -/
theorem fuses_of_reach_three : ∃ s : MultiSensor ℕ ℕ 2, s.answers.map (fun a => a.pair.map fun p => p.secondary.data) =
    [some 1, none, some 2] ∧ s.sync.unmatchedCount = 1 ∧ s.sync.bufferLen = 1 ∧ Fuses 10 s := by
  let sampling : List (Act ℕ ℕ) := [.baroSample 100 1, .imuSample 105 7, .baroPush, .imuPush, .baroPush, .baroPush,
    .imuPush, .imuPush, .fusion, .fusion, .fusion, .fusion, .imuSample 118 8, .baroSample 130 2, .imuPush, .imuPush,
    .imuPush]
  let matching : List (Act ℕ ℕ) := List.replicate 12 .fusion ++
    [.imuSample 135 9, .baroPush, .baroPush, .baroPush, .imuPush, .imuPush, .imuPush] ++ List.replicate 12 .fusion
  obtain ⟨s, hs, hp⟩ := Machine.exists_reach_of_run (M := machine 4 4 10 ℕ ℕ 2) (s := new 10) rfl
    (sampling ++ matching)
    (fun s => decide (s.answers.map (fun a => a.pair.map fun p => p.secondary.data) = [some 1, none, some 2] ∧
      s.sync.unmatchedCount = 1 ∧ s.sync.bufferLen = 1)) (by decide)
  obtain ⟨hanswers, hunmatched, hlen⟩ := of_decide_eq_true hp
  exact ⟨s, hanswers, hunmatched, hlen, fuses_of_reach (by decide) (by decide) (by decide) hs⟩

end

end MultiSensor

end SensorBridge.Sensor
