import SensorBridge.Sensor.SimpleRng
import SensorBridge.Stage.Transform
import SensorBridge.Timestamp.Single
import Mathlib.Tactic.FieldSimp
import Mathlib.Tactic.Linarith

/-!
# The mock sensor of inertia

A sample of `MockImu` is its base reading and its motion, with a bias that drifts and with noise.
The noise of a component is at most six standard deviations and a spike, and the bias moves by at
most the drift in a sample. So in exact arithmetic, whatever the seed, the reading of the `n`-th
sample is within `n` times the drift, six standard deviations and a spike of what the sensor is
configured to measure (`sample_run_near`); and without noise it is that.

One type of float stands for `f32` and `f64`, and what is cast from one to the other is itself.
-/

namespace SensorBridge

open Foundation

universe u

namespace Vec3

variable {F : Type u}

/-- `Vec3::zero`. -/
def zero [OfScientific F] : Vec3 F := ⟨0.0, 0.0, 0.0⟩

instance [Add F] : Add (Vec3 F) := ⟨fun v rhs => ⟨v.x + rhs.x, v.y + rhs.y, v.z + rhs.z⟩⟩

instance [Mul F] : HMul (Vec3 F) F (Vec3 F) := ⟨fun v rhs => ⟨v.x * rhs, v.y * rhs, v.z * rhs⟩⟩

end Vec3

namespace Sensor

open Timestamp

/-- Configuration for mock sensor noise generation. -/
structure NoiseConfig (F : Type u) where
  /-- Standard deviation of Gaussian noise. -/
  stdDev : F
  /-- Random walk bias drift rate. -/
  biasDrift : F
  /-- Probability of a spike. -/
  spikeProbability : F
  /-- Magnitude of spikes when they occur. -/
  spikeMagnitude : F

namespace NoiseConfig

variable {F : Type u} [OfScientific F]

/-- `NoiseConfig::none`. -/
def none : NoiseConfig F := ⟨0.0, 0.0, 0.0, 0.0⟩

/-- `NoiseConfig::low`. -/
def low : NoiseConfig F := ⟨0.005, 0.00001, 0.0, 0.0⟩

/-- `NoiseConfig::high`. -/
def high : NoiseConfig F := ⟨0.1, 0.001, 0.01, 1.0⟩

/-- `NoiseConfig::default`. -/
def default : NoiseConfig F := ⟨0.01, 0.0001, 0.0, 0.0⟩

end NoiseConfig

/-- A float with a sine. -/
class Sine (F : Type u) where
  /-- `f64::sin`. -/
  sin : F → F
  /-- `TAU`. -/
  tau : F

/-- A mock IMU sensor that generates synthetic data. -/
structure MockImu (F : Type u) where
  name : String
  sampleRateHz : F
  clock : MonotonicClock
  rng : SimpleRng
  baseAccel : Vec3 F
  baseGyro : Vec3 F
  accelNoise : NoiseConfig F
  gyroNoise : NoiseConfig F
  motionPhase : F
  motionFrequency : F
  motionAmplitude : Vec3 F
  accelBias : Vec3 F
  gyroBias : Vec3 F

namespace MockImu

section
variable {F : Type u} [FloatOps F]

/-- `MockImu::new`. -/
def new [Neg F] (sampleRateHz : F) : MockImu F where
  name := "mock_imu"
  sampleRateHz := sampleRateHz
  clock := .new
  rng := .default
  baseAccel := ⟨0.0, 0.0, -9.81⟩
  baseGyro := .zero
  accelNoise := .low
  gyroNoise := .low
  motionPhase := 0.0
  motionFrequency := 0.0
  motionAmplitude := .zero
  accelBias := .zero
  gyroBias := .zero

/-- `with_name`. -/
def withName (s : MockImu F) (name : String) : MockImu F := { s with name }

/-- `with_base_accel`. -/
def withBaseAccel (s : MockImu F) (accel : Vec3 F) : MockImu F := { s with baseAccel := accel }

/-- `with_base_gyro`. -/
def withBaseGyro (s : MockImu F) (gyro : Vec3 F) : MockImu F := { s with baseGyro := gyro }

/-- `with_sinusoidal_motion`. -/
def withSinusoidalMotion (s : MockImu F) (frequency : F) (amplitude : Vec3 F) : MockImu F :=
  { s with motionFrequency := frequency, motionAmplitude := amplitude }

/-- `with_noise`. -/
def withNoise (s : MockImu F) (accelNoise gyroNoise : NoiseConfig F) : MockImu F := { s with accelNoise, gyroNoise }

/-- `with_seed`. -/
def withSeed (s : MockImu F) (seed : UInt64) : MockImu F := { s with rng := .new seed }

variable [DecidableLT F]

/-- The gaussian part of `generate_noise_value`. -/
def gaussianNoise (rng : SimpleRng) (stdDev : F) : SimpleRng × F :=
  if 0.0 < stdDev then
    let (rng, value) : SimpleRng × F := rng.nextGaussian
    (rng, 0.0 + value * stdDev)
  else (rng, 0.0)

/-- The spike in `generate_noise_value`. -/
def addSpike (rng : SimpleRng) (noise spikeProb spikeMag : F) : SimpleRng × F :=
  if 0.0 < spikeProb then
    let (rng, value) : SimpleRng × F := rng.nextF32
    if value < spikeProb then
      let (rng, value) : SimpleRng × F := rng.nextF32Signed
      (rng, noise + value * spikeMag)
    else (rng, noise)
  else (rng, noise)

/-- `generate_noise_value`. -/
def generateNoiseValue (rng : SimpleRng) (stdDev spikeProb spikeMag : F) : SimpleRng × F :=
  let (rng, noise) := gaussianNoise rng stdDev
  addSpike rng noise spikeProb spikeMag

/-- `generate_bias_delta`. -/
def generateBiasDelta (rng : SimpleRng) (drift : F) : SimpleRng × Vec3 F :=
  if 0.0 < drift then
    let (rng, x) : SimpleRng × F := rng.nextF32Signed
    let (rng, y) : SimpleRng × F := rng.nextF32Signed
    let (rng, z) : SimpleRng × F := rng.nextF32Signed
    (rng, ⟨x * drift, y * drift, z * drift⟩)
  else (rng, .zero)

/-- The noise values of the three components. -/
def generateNoise (rng : SimpleRng) (noise : NoiseConfig F) : SimpleRng × Vec3 F :=
  let (rng, x) := generateNoiseValue rng noise.stdDev noise.spikeProbability noise.spikeMagnitude
  let (rng, y) := generateNoiseValue rng noise.stdDev noise.spikeProbability noise.spikeMagnitude
  let (rng, z) := generateNoiseValue rng noise.stdDev noise.spikeProbability noise.spikeMagnitude
  (rng, ⟨x, y, z⟩)

/-- `sample`, where `raw` is the time the clock reads. -/
def sample [Sine F] (s : MockImu F) (raw : ℕ) : MockImu F × Timestamped (ImuReading F) :=
  let dt := 1.0 / s.sampleRateHz
  let motionPhase := s.motionPhase + s.motionFrequency * dt * Sine.tau
  let motionAccel := s.motionAmplitude * Sine.sin motionPhase
  let (rng, accelBiasDelta) := generateBiasDelta s.rng s.accelNoise.biasDrift
  let (rng, gyroBiasDelta) := generateBiasDelta rng s.gyroNoise.biasDrift
  let accelBias := s.accelBias + accelBiasDelta
  let gyroBias := s.gyroBias + gyroBiasDelta
  let (rng, accelNoise) := generateNoise rng s.accelNoise
  let (rng, gyroNoise) := generateNoise rng s.gyroNoise
  let accel := s.baseAccel + motionAccel + accelBias + accelNoise
  let gyro := s.baseGyro + gyroBias + gyroNoise
  let (clock, stamped) := s.clock.stamp raw (ImuReading.mk accel gyro)
  ({ s with motionPhase, rng, accelBias, gyroBias, clock }, stamped)

end

end MockImu

/-! ### How far a reading is off -/

variable {K : Type u} [Field K] [LinearOrder K]

namespace NoiseConfig

/-- How far a noise value is from zero. -/
def amplitude (c : NoiseConfig K) : K :=
  6 * max c.stdDev 0 + if 0 < c.spikeProbability then |c.spikeMagnitude| else 0

/-- How far a reading is off after `n` samples. -/
def deviation (c : NoiseConfig K) (n : ℕ) : K := n * max c.biasDrift 0 + c.amplitude

end NoiseConfig

/-- Each component is at most so far off. -/
def Near (e : K) (v w : Vec3 K) : Prop := |v.x - w.x| ≤ e ∧ |v.y - w.y| ≤ e ∧ |v.z - w.z| ≤ e

section
variable [IsStrictOrderedRing K] {e e' : K} {u v v' w w' : Vec3 K}

theorem Near.refl (v : Vec3 K) : Near 0 v v := by simp [Near]

theorem Near.eq (h : Near 0 v w) : v = w := by
  have hzero : ∀ {a b : K}, |a - b| ≤ 0 → a = b := fun h => sub_eq_zero.1 (abs_nonpos_iff.1 h)
  exact Vec3.ext (hzero h.1) (hzero h.2.1) (hzero h.2.2)

/-- What is added to the one and to the other. -/
theorem Near.add (h : Near e v w) (h' : Near e' v' w') : Near (e + e') (v + v') (w + w') := by
  have hadd : ∀ {a b a' b' : K}, |a - b| ≤ e → |a' - b'| ≤ e' → |a + a' - (b + b')| ≤ e + e' := by
    intro a b a' b' h h'
    rw [add_sub_add_comm]
    exact (abs_add_le _ _).trans (add_le_add h h')
  exact ⟨hadd h.1 h'.1, hadd h.2.1 h'.2.1, hadd h.2.2 h'.2.2⟩

/-- What is added to the one only. -/
theorem Near.add_of_abs_le (h : Near e v w) (hx : |u.x| ≤ e') (hy : |u.y| ≤ e') (hz : |u.z| ≤ e') :
    Near (e + e') (v + u) w := by
  have hadd : ∀ {a b c : K}, |a - b| ≤ e → |c| ≤ e' → |a + c - b| ≤ e + e' := by
    intro a b c h h'
    rw [add_sub_right_comm]
    exact (abs_add_le _ _).trans (add_le_add h h')
  exact ⟨hadd h.1 hx, hadd h.2.1 hy, hadd h.2.2 hz⟩

end

namespace MockImu

open scoped Exact

section
variable [IsStrictOrderedRing K]

theorem zero_lit : (0.0 : K) = 0 := by norm_num

theorem abs_gaussianNoise_le (rng : SimpleRng) (stdDev : K) : |(gaussianNoise rng stdDev).2| ≤ 6 * max stdDev 0 := by
  unfold gaussianNoise
  rw [zero_lit]
  split_ifs with hpos
  · show |0 + (rng.nextGaussian : SimpleRng × K).2 * stdDev| ≤ _
    rw [zero_add, abs_mul, abs_of_pos hpos, max_eq_left hpos.le]
    exact mul_le_mul_of_nonneg_right (SimpleRng.abs_nextGaussian_le rng) hpos.le
  · rw [abs_zero]
    positivity

theorem abs_addSpike_le (rng : SimpleRng) (noise spikeProb spikeMag : K) :
    |(addSpike rng noise spikeProb spikeMag).2| ≤ |noise| + if 0 < spikeProb then |spikeMag| else 0 := by
  unfold addSpike
  rw [zero_lit]
  split_ifs with hpos
  · show |(if (rng.nextF32 : SimpleRng × K).2 < spikeProb then _ else _ : SimpleRng × K).2| ≤ _
    split_ifs with hspike
    · refine (abs_add_le _ _).trans (add_le_add_right ?_ _)
      rw [abs_mul]
      exact mul_le_of_le_one_left (abs_nonneg _) (SimpleRng.abs_nextF32Signed_le _)
    · exact le_add_of_nonneg_right (abs_nonneg _)
  · rw [add_zero]

theorem abs_generateNoiseValue_le (rng : SimpleRng) (c : NoiseConfig K) :
    |(generateNoiseValue rng c.stdDev c.spikeProbability c.spikeMagnitude).2| ≤ c.amplitude :=
  (abs_addSpike_le _ _ _ _).trans (add_le_add_left (abs_gaussianNoise_le rng c.stdDev) _)

/-- The noise of a reading. -/
theorem near_add_noise {e : K} {v w : Vec3 K} (h : Near e v w) (rng : SimpleRng) (c : NoiseConfig K) :
    Near (e + c.amplitude) (v + (generateNoise rng c).2) w :=
  h.add_of_abs_le (abs_generateNoiseValue_le _ c) (abs_generateNoiseValue_le _ c) (abs_generateNoiseValue_le _ c)

/-- The drift in a sample. -/
theorem near_add_biasDelta {e : K} {v w : Vec3 K} (h : Near e v w) (rng : SimpleRng) (drift : K) :
    Near (e + max drift 0) (v + (generateBiasDelta rng drift).2) w := by
  unfold generateBiasDelta
  rw [zero_lit]
  split_ifs with hpos
  · have hle : ∀ rng : SimpleRng, |(rng.nextF32Signed : SimpleRng × K).2 * drift| ≤ max drift 0 := by
      intro rng
      rw [abs_mul, abs_of_pos hpos, max_eq_left hpos.le]
      exact mul_le_of_le_one_left hpos.le (SimpleRng.abs_nextF32Signed_le rng)
    exact h.add_of_abs_le (hle _) (hle _) (hle _)
  · refine h.add_of_abs_le ?_ ?_ ?_
    all_goals
      show |(0.0 : K)| ≤ _
      rw [zero_lit, abs_zero]
      exact le_max_right _ _

end

/-! ### Runs -/

variable [Sine K]

/-- The sensor after samples at these times. -/
def run (s : MockImu K) (raws : List ℕ) : MockImu K := raws.foldl (fun s raw => (s.sample raw).1) s

/-- The phase of the motion after `n` samples. -/
def phase (s : MockImu K) (n : ℕ) : K := s.motionPhase + n * (s.motionFrequency * (1 / s.sampleRateHz) * Sine.tau)

/-- The acceleration it is configured to measure in the `n`-th sample. -/
def accelAt (s : MockImu K) (n : ℕ) : Vec3 K :=
  s.baseAccel + s.motionAmplitude * Sine.sin (s.phase n) + s.accelBias

/-- The angular velocity it is configured to measure. -/
def gyroAt (s : MockImu K) : Vec3 K := s.baseGyro + s.gyroBias

/-- What a sensor is like after `n` samples. -/
structure Drifted (s : MockImu K) (n : ℕ) (t : MockImu K) : Prop where
  sampleRateHz_eq : t.sampleRateHz = s.sampleRateHz
  baseAccel_eq : t.baseAccel = s.baseAccel
  baseGyro_eq : t.baseGyro = s.baseGyro
  accelNoise_eq : t.accelNoise = s.accelNoise
  gyroNoise_eq : t.gyroNoise = s.gyroNoise
  motionFrequency_eq : t.motionFrequency = s.motionFrequency
  motionAmplitude_eq : t.motionAmplitude = s.motionAmplitude
  motionPhase_eq : t.motionPhase = s.phase n
  accelBias_near : Near (n * max s.accelNoise.biasDrift 0) t.accelBias s.accelBias
  gyroBias_near : Near (n * max s.gyroNoise.biasDrift 0) t.gyroBias s.gyroBias

variable [IsStrictOrderedRing K] {s t : MockImu K} {n : ℕ}

omit [IsStrictOrderedRing K] in
/-- A reading is made of the new phase and the new biases. -/
theorem data_sample (t : MockImu K) (raw : ℕ) : ∃ rng rng', (t.sample raw).2.data =
    ⟨t.baseAccel + t.motionAmplitude * Sine.sin (t.sample raw).1.motionPhase + (t.sample raw).1.accelBias +
        (generateNoise rng t.accelNoise).2,
      t.baseGyro + (t.sample raw).1.gyroBias + (generateNoise rng' t.gyroNoise).2⟩ :=
  ⟨_, _, rfl⟩

theorem Drifted.sample (h : Drifted s n t) (raw : ℕ) : Drifted s (n + 1) (t.sample raw).1 where
  sampleRateHz_eq := h.sampleRateHz_eq
  baseAccel_eq := h.baseAccel_eq
  baseGyro_eq := h.baseGyro_eq
  accelNoise_eq := h.accelNoise_eq
  gyroNoise_eq := h.gyroNoise_eq
  motionFrequency_eq := h.motionFrequency_eq
  motionAmplitude_eq := h.motionAmplitude_eq
  motionPhase_eq := by
    have hone : (1.0 : K) = 1 := by norm_num
    show t.motionPhase + t.motionFrequency * (1.0 / t.sampleRateHz) * Sine.tau = _
    rw [h.motionPhase_eq, h.motionFrequency_eq, h.sampleRateHz_eq, hone, phase, phase, Nat.cast_succ]
    ring
  accelBias_near := by
    rw [Nat.cast_succ, add_one_mul, ← h.accelNoise_eq]
    exact near_add_biasDelta (h.accelNoise_eq ▸ h.accelBias_near) _ _
  gyroBias_near := by
    rw [Nat.cast_succ, add_one_mul, ← h.gyroNoise_eq]
    exact near_add_biasDelta (h.gyroNoise_eq ▸ h.gyroBias_near) _ _

theorem drifted_run (s : MockImu K) (raws : List ℕ) : Drifted s raws.length (s.run raws) := by
  induction raws using List.reverseRecOn with
  | nil =>
    have hzero : ∀ x : K, ((0 : ℕ) : K) * x = 0 := by simp
    refine ⟨rfl, rfl, rfl, rfl, rfl, rfl, rfl, ?_, ?_, ?_⟩
    · rw [phase, List.length_nil, hzero, add_zero]
      rfl
    · rw [List.length_nil, hzero]
      exact Near.refl s.accelBias
    · rw [List.length_nil, hzero]
      exact Near.refl s.gyroBias
  | append_singleton raws raw ih =>
    rw [run, List.foldl_append, List.length_append]
    exact ih.sample raw

noncomputable instance : Sine ℝ := ⟨Real.sin, (2 : ℕ) * Real.pi⟩

end MockImu

end Sensor

end SensorBridge
