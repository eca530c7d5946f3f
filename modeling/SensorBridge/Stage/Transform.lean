import SensorBridge.Stage.Traits
import Mathlib.LinearAlgebra.UnitaryGroup
import Mathlib.Analysis.SpecialFunctions.Trigonometric.Basic
import Mathlib.Tactic.LinearCombination

/-!
# Coordinate transforms

A `RotationMatrix` is nine numbers in rows, which are multiplied in three loops and applied to a
vector row by row. With exact arithmetic these are the product and the application of matrices
(`toMatrix_multiply`, `toFun_transform`), and what is known of matrices is true of them: the three
rotations about the axes are in the special orthogonal group as soon as sine and cosine are on the
circle, and so is what `from_euler_zyx` makes of them (`fromEulerZyx_rotation`); and to transform
twice is to transform by the product (`chain_transform`).
-/

namespace SensorBridge

universe u

/-! ### Vectors -/

/-- `Vec3`. -/
@[ext] structure Vec3 (F : Type u) where
  x : F
  y : F
  z : F

namespace Vec3

variable {F : Type u}

/-- `dot`. -/
def dot [Add F] [Mul F] (v other : Vec3 F) : F := v.x * other.x + v.y * other.y + v.z * other.z

/-- `magnitude_squared`. -/
def magnitudeSquared [Add F] [Mul F] (v : Vec3 F) : F := v.x * v.x + v.y * v.y + v.z * v.z

/-- The components by index. -/
def toFun (v : Vec3 F) : Fin 3 → F := ![v.x, v.y, v.z]

theorem toFun_injective : Function.Injective (toFun : Vec3 F → Fin 3 → F) := by
  intro v w h
  exact Vec3.ext (congrFun h 0) (congrFun h 1) (congrFun h 2)

theorem dot_eq [CommSemiring F] (v w : Vec3 F) : v.dot w = v.toFun ⬝ᵥ w.toFun := by
  rw [dotProduct, Fin.sum_univ_three]
  rfl

end Vec3

/-- `ImuReading`. -/
structure ImuReading (F : Type u) where
  accel : Vec3 F
  gyro : Vec3 F

namespace Stage

/-! ### Matrices -/

/-- A float with `sin_cos`. -/
class SinCos (F : Type u) where
  /-- The sine and the cosine. -/
  sinCos : F → F × F

/-- `RotationMatrix`, in row-major order. -/
structure RotationMatrix (F : Type u) where
  data : Fin 3 → Fin 3 → F

namespace RotationMatrix

variable {F : Type u}

section
variable [Zero F] [One F]

/-- `identity`. -/
def identity : RotationMatrix F := ⟨![![1, 0, 0], ![0, 1, 0], ![0, 0, 1]]⟩

variable [Neg F] [SinCos F]

/-- `rotation_x`. -/
def rotationX (angleRad : F) : RotationMatrix F :=
  let (sin, cos) := SinCos.sinCos angleRad
  ⟨![![1, 0, 0], ![0, cos, -sin], ![0, sin, cos]]⟩

/-- `rotation_y`. -/
def rotationY (angleRad : F) : RotationMatrix F :=
  let (sin, cos) := SinCos.sinCos angleRad
  ⟨![![cos, 0, sin], ![0, 1, 0], ![-sin, 0, cos]]⟩

/-- `rotation_z`. -/
def rotationZ (angleRad : F) : RotationMatrix F :=
  let (sin, cos) := SinCos.sinCos angleRad
  ⟨![![cos, -sin, 0], ![sin, cos, 0], ![0, 0, 1]]⟩

end

/-- The innermost statement of `multiply`: `result[i][j] += self.data[i][k] * other.data[k][j]`. -/
def accumulate [Add F] [Mul F] (m other : RotationMatrix F) (result : Fin 3 → Fin 3 → F) (i j k : Fin 3) :
    Fin 3 → Fin 3 → F :=
  Function.update result i (Function.update (result i) j (result i j + m.data i k * other.data k j))

/-- `multiply`, in three loops. -/
def multiply [Zero F] [Add F] [Mul F] (m other : RotationMatrix F) : RotationMatrix F where
  data := (List.finRange 3).foldl (fun result i => (List.finRange 3).foldl (fun result j =>
    (List.finRange 3).foldl (fun result k => m.accumulate other result i j k) result) result) fun _ _ => 0

/-- `from_euler_zyx`. -/
def fromEulerZyx [Zero F] [One F] [Add F] [Mul F] [Neg F] [SinCos F] (yaw pitch roll : F) : RotationMatrix F :=
  let rz := rotationZ yaw
  let ry := rotationY pitch
  let rx := rotationX roll
  (rz.multiply ry).multiply rx

/-- `transpose`. -/
def transpose (m : RotationMatrix F) : RotationMatrix F where
  data := ![![m.data 0 0, m.data 1 0, m.data 2 0], ![m.data 0 1, m.data 1 1, m.data 2 1],
    ![m.data 0 2, m.data 1 2, m.data 2 2]]

/-- `transform`. -/
def transform [Add F] [Mul F] (m : RotationMatrix F) (v : Vec3 F) : Vec3 F where
  x := m.data 0 0 * v.x + m.data 0 1 * v.y + m.data 0 2 * v.z
  y := m.data 1 0 * v.x + m.data 1 1 * v.y + m.data 1 2 * v.z
  z := m.data 2 0 * v.x + m.data 2 1 * v.y + m.data 2 2 * v.z

/-- What the loops leave in an entry, in the order of the additions. -/
theorem data_multiply [Zero F] [Add F] [Mul F] (m other : RotationMatrix F) (i j : Fin 3) :
    (m.multiply other).data i j = 0 + m.data i 0 * other.data 0 j + m.data i 1 * other.data 1 j +
      m.data i 2 * other.data 2 j := by
  fin_cases i <;> fin_cases j <;> rfl

theorem data_transpose (m : RotationMatrix F) (i j : Fin 3) : m.transpose.data i j = m.data j i := by
  fin_cases i <;> fin_cases j <;> rfl

/-! ### As matrices -/

/-- The matrix of the data. -/
def toMatrix (m : RotationMatrix F) : Matrix (Fin 3) (Fin 3) F := .of m.data

theorem toMatrix_injective : Function.Injective (toMatrix : RotationMatrix F → Matrix (Fin 3) (Fin 3) F) := by
  rintro ⟨data⟩ ⟨data'⟩ h
  exact congrArg mk h

theorem toMatrix_transpose (m : RotationMatrix F) : m.transpose.toMatrix = m.toMatrix.transpose := by
  ext i j
  exact data_transpose m i j

section
variable {R : Type u} [CommRing R]

theorem toMatrix_identity : (identity : RotationMatrix R).toMatrix = 1 := by
  ext i j
  fin_cases i <;> fin_cases j <;> rfl

/-- **The loops multiply.** -/
theorem toMatrix_multiply (m other : RotationMatrix R) :
    (m.multiply other).toMatrix = m.toMatrix * other.toMatrix := by
  ext i j
  rw [Matrix.mul_apply, Fin.sum_univ_three]
  exact (data_multiply m other i j).trans (by rw [zero_add]; rfl)

/-- **The rows are applied.** -/
theorem toFun_transform (m : RotationMatrix R) (v : Vec3 R) : (m.transform v).toFun = m.toMatrix.mulVec v.toFun := by
  funext i
  rw [Matrix.mulVec, dotProduct, Fin.sum_univ_three]
  fin_cases i <;> rfl

/-- To transform twice is to transform by the product. -/
theorem transform_multiply (a b : RotationMatrix R) (v : Vec3 R) :
    (a.multiply b).transform v = a.transform (b.transform v) := by
  apply Vec3.toFun_injective
  rw [toFun_transform, toFun_transform, toFun_transform, toMatrix_multiply, Matrix.mulVec_mulVec]

theorem transform_identity (v : Vec3 R) : (identity : RotationMatrix R).transform v = v := by
  apply Vec3.toFun_injective
  rw [toFun_transform, toMatrix_identity, Matrix.one_mulVec]

/-! ### Rotations -/

attribute [local instance] starRingOfComm

/-- Orthogonal, and of determinant one. -/
def IsRotation (m : RotationMatrix R) : Prop := m.toMatrix ∈ Matrix.specialOrthogonalGroup (Fin 3) R

theorem isRotation_iff (m : RotationMatrix R) :
    m.IsRotation ↔ m.multiply m.transpose = identity ∧ m.toMatrix.det = 1 := by
  rw [IsRotation, Matrix.mem_specialOrthogonalGroup_iff, Matrix.mem_orthogonalGroup_iff, ← toMatrix_transpose,
    ← toMatrix_multiply, ← toMatrix_identity, toMatrix_injective.eq_iff]

theorem IsRotation.multiply {a b : RotationMatrix R} (ha : a.IsRotation) (hb : b.IsRotation) :
    (a.multiply b).IsRotation := by
  rw [IsRotation, toMatrix_multiply]
  exact mul_mem ha hb

theorem IsRotation.transpose_multiply {m : RotationMatrix R} (h : m.IsRotation) :
    m.transpose.multiply m = identity := by
  have horthogonal := (Matrix.mem_specialOrthogonalGroup_iff.1 h).1
  apply toMatrix_injective
  rw [toMatrix_multiply, toMatrix_transpose, toMatrix_identity]
  exact (Matrix.mem_orthogonalGroup_iff' (Fin 3) R).1 horthogonal

/-- The transpose takes a rotation back. -/
theorem IsRotation.transform_transpose {m : RotationMatrix R} (h : m.IsRotation) (v : Vec3 R) :
    m.transpose.transform (m.transform v) = v := by
  rw [← transform_multiply, h.transpose_multiply, transform_identity]

theorem IsRotation.dot_transform {m : RotationMatrix R} (h : m.IsRotation) (u v : Vec3 R) :
    (m.transform u).dot (m.transform v) = u.dot v := by
  have hback := congrArg Vec3.toFun (h.transform_transpose v)
  rw [toFun_transform, toMatrix_transpose] at hback
  rw [Vec3.dot_eq, Vec3.dot_eq, toFun_transform, dotProduct_comm, Matrix.dotProduct_mulVec, ← Matrix.mulVec_transpose,
    hback, dotProduct_comm]

/-- It is enough that the rows are orthonormal. -/
theorem isRotation_of_rows {m : RotationMatrix R}
    (hrows : ∀ i j, m.data i 0 * m.data j 0 + m.data i 1 * m.data j 1 + m.data i 2 * m.data j 2 = if i = j then 1 else 0)
    (hdet : m.toMatrix.det = 1) : m.IsRotation := by
  refine (isRotation_iff m).2 ⟨?_, hdet⟩
  apply toMatrix_injective
  rw [toMatrix_identity]
  ext i j
  have hentry := data_multiply m m.transpose i j
  rw [data_transpose, data_transpose, data_transpose, zero_add, hrows] at hentry
  exact hentry

/-- It does not matter how the axes are named. -/
theorem IsRotation.rename {m m' : RotationMatrix R} (h : m.IsRotation) (e : Equiv.Perm (Fin 3))
    (hdata : ∀ i j, m'.data i j = m.data (e i) (e j)) : m'.IsRotation := by
  obtain ⟨horthogonal, hdet⟩ := Matrix.mem_specialOrthogonalGroup_iff.1 h
  rw [Matrix.mem_orthogonalGroup_iff] at horthogonal
  have hmatrix : m'.toMatrix = m.toMatrix.submatrix e e := Matrix.ext hdata
  rw [IsRotation, Matrix.mem_specialOrthogonalGroup_iff, Matrix.mem_orthogonalGroup_iff, hmatrix,
    Matrix.transpose_submatrix, Matrix.submatrix_mul_equiv, horthogonal, Matrix.submatrix_one_equiv,
    Matrix.det_submatrix_equiv_self]
  exact ⟨rfl, hdet⟩

variable [SinCos R]

/-- Sine and cosine are on the circle. -/
def OnCircle (angle : R) : Prop := (SinCos.sinCos angle).1 ^ 2 + (SinCos.sinCos angle).2 ^ 2 = 1

theorem isRotation_rotationX {angle : R} (h : OnCircle angle) : (rotationX angle).IsRotation := by
  rcases hsinCos : SinCos.sinCos angle with ⟨sin, cos⟩
  simp only [OnCircle, hsinCos] at h
  refine isRotation_of_rows (fun i j => ?_) ?_
  · fin_cases i <;> fin_cases j <;> simp [rotationX, hsinCos, mul_comm]
    all_goals linear_combination h
  · simp [Matrix.det_fin_three, toMatrix, rotationX, hsinCos]
    linear_combination h

theorem isRotation_rotationY {angle : R} (h : OnCircle angle) : (rotationY angle).IsRotation := by
  refine (isRotation_rotationX h).rename (finRotate 3).symm fun i j => ?_
  fin_cases i <;> fin_cases j <;> rfl

theorem isRotation_rotationZ {angle : R} (h : OnCircle angle) : (rotationZ angle).IsRotation := by
  refine (isRotation_rotationX h).rename (finRotate 3) fun i j => ?_
  fin_cases i <;> fin_cases j <;> rfl

theorem isRotation_fromEulerZyx {yaw pitch roll : R} (hyaw : OnCircle yaw) (hpitch : OnCircle pitch)
    (hroll : OnCircle roll) : (fromEulerZyx yaw pitch roll).IsRotation :=
  ((isRotation_rotationZ hyaw).multiply (isRotation_rotationY hpitch)).multiply (isRotation_rotationX hroll)

/-- **Euler rotations are rotations**: the transpose is the inverse, the determinant is one, and so
lengths and angles are kept, and the transpose takes every vector back. -/
theorem fromEulerZyx_rotation (yaw pitch roll : R) (hyaw : OnCircle yaw) (hpitch : OnCircle pitch)
    (hroll : OnCircle roll) :
    let r := fromEulerZyx yaw pitch roll
    (r.multiply r.transpose = identity ∧ r.transpose.multiply r = identity ∧ r.toMatrix.det = 1) ∧
      (∀ u v : Vec3 R, (r.transform u).dot (r.transform v) = u.dot v) ∧
      (∀ v : Vec3 R, (r.transform v).magnitudeSquared = v.magnitudeSquared) ∧
      ∀ v : Vec3 R, r.transpose.transform (r.transform v) = v := by
  intro r
  have hrotation : r.IsRotation := isRotation_fromEulerZyx hyaw hpitch hroll
  obtain ⟨hinverse, hdet⟩ := (isRotation_iff r).1 hrotation
  exact ⟨⟨hinverse, hrotation.transpose_multiply, hdet⟩, hrotation.dot_transform,
    fun v => hrotation.dot_transform v v, hrotation.transform_transpose⟩

end

/-- The sine and the cosine of a real number. -/
noncomputable instance : SinCos ℝ := ⟨fun angle => (Real.sin angle, Real.cos angle)⟩

/-- The angles of the source's test. -/
theorem fromEulerZyx_rotation_real :
    let r := fromEulerZyx (0.5 : ℝ) 0.3 0.1
    (r.multiply r.transpose = identity ∧ r.transpose.multiply r = identity ∧ r.toMatrix.det = 1) ∧
      (∀ u v : Vec3 ℝ, (r.transform u).dot (r.transform v) = u.dot v) ∧
      (∀ v : Vec3 ℝ, (r.transform v).magnitudeSquared = v.magnitudeSquared) ∧
      ∀ v : Vec3 ℝ, r.transpose.transform (r.transform v) = v :=
  fromEulerZyx_rotation 0.5 0.3 0.1 (Real.sin_sq_add_cos_sq _) (Real.sin_sq_add_cos_sq _) (Real.sin_sq_add_cos_sq _)

end RotationMatrix

/-! ### The stages -/

variable {F : Type u}

/-- `VectorTransform`. -/
structure VectorTransform (F : Type u) where
  rotation : RotationMatrix F

namespace VectorTransform

/-- `process`. -/
def process [Add F] [Mul F] (s : VectorTransform F) (input : Vec3 F) : VectorTransform F × Option (Vec3 F) :=
  (s, some (s.rotation.transform input))

/-- The stage; its `reset` does nothing. -/
def stage [Add F] [Mul F] (s : VectorTransform F) : Stage (Vec3 F) (Vec3 F) := .ofProcess s process id

end VectorTransform

/-- `ImuTransform`. -/
structure ImuTransform (F : Type u) where
  rotation : RotationMatrix F

namespace ImuTransform

/-- `ned_to_enu`: X and Y are swapped, and Z is negated. -/
def nedToEnu [Zero F] [One F] [Neg F] : ImuTransform F := ⟨⟨![![0, 1, 0], ![1, 0, 0], ![0, 0, -1]]⟩⟩

/-- `enu_to_ned`, the same operation. -/
def enuToNed [Zero F] [One F] [Neg F] : ImuTransform F := nedToEnu

/-- `process`: both vectors are transformed. -/
def process [Add F] [Mul F] (s : ImuTransform F) (input : ImuReading F) : ImuTransform F × Option (ImuReading F) :=
  (s, some ⟨s.rotation.transform input.accel, s.rotation.transform input.gyro⟩)

/-- The stage; its `reset` does nothing. -/
def stage [Add F] [Mul F] (s : ImuTransform F) : Stage (ImuReading F) (ImuReading F) := .ofProcess s process id

end ImuTransform

/-- A reading with both vectors transformed. -/
def ImuTransform.apply [Add F] [Mul F] (m : RotationMatrix F) (reading : ImuReading F) : ImuReading F :=
  ⟨m.transform reading.accel, m.transform reading.gyro⟩

theorem VectorTransform.outputs_stage [Add F] [Mul F] (m : RotationMatrix F) (vs : List (Vec3 F)) :
    (VectorTransform.stage ⟨m⟩).outputs vs = vs.map m.transform := by
  induction vs with
  | nil => rfl
  | cons v vs ih => exact congrArg (m.transform v :: ·) ih

theorem ImuTransform.outputs_stage [Add F] [Mul F] (m : RotationMatrix F) (readings : List (ImuReading F)) :
    (ImuTransform.stage ⟨m⟩).outputs readings = readings.map (ImuTransform.apply m) := by
  induction readings with
  | nil => rfl
  | cons reading readings ih => exact congrArg (ImuTransform.apply m reading :: ·) ih

section
variable {R : Type u} [CommRing R]

theorem ImuTransform.apply_multiply (a b : RotationMatrix R) (reading : ImuReading R) :
    ImuTransform.apply (a.multiply b) reading = ImuTransform.apply a (ImuTransform.apply b reading) := by
  simp only [ImuTransform.apply, RotationMatrix.transform_multiply]

/-- The swap is its own inverse. -/
theorem ImuTransform.multiply_nedToEnu :
    (nedToEnu : ImuTransform R).rotation.multiply nedToEnu.rotation = RotationMatrix.identity := by
  apply RotationMatrix.toMatrix_injective
  ext i j
  refine (RotationMatrix.data_multiply _ _ i j).trans ?_
  fin_cases i <;> fin_cases j <;> simp [nedToEnu, RotationMatrix.identity, RotationMatrix.toMatrix]

/-- **Two transforms in a chain are one**, that of the product, the later one on the left; and to go
from one frame to the other and back changes nothing. -/
theorem chain_transform (a b : RotationMatrix R) :
    (∀ readings, ((ImuTransform.stage ⟨b⟩).chain (ImuTransform.stage ⟨a⟩)).outputs readings =
        (ImuTransform.stage ⟨a.multiply b⟩).outputs readings) ∧
      (∀ vs, ((VectorTransform.stage ⟨b⟩).chain (VectorTransform.stage ⟨a⟩)).outputs vs =
        (VectorTransform.stage ⟨a.multiply b⟩).outputs vs) ∧
      ∀ readings : List (ImuReading R),
        (ImuTransform.nedToEnu.stage.chain ImuTransform.enuToNed.stage).outputs readings = readings := by
  have himu (a b : RotationMatrix R) (readings : List (ImuReading R)) :
      ((ImuTransform.stage ⟨b⟩).chain (ImuTransform.stage ⟨a⟩)).outputs readings =
        (ImuTransform.stage ⟨a.multiply b⟩).outputs readings := by
    rw [outputs_chain, ImuTransform.outputs_stage, ImuTransform.outputs_stage, ImuTransform.outputs_stage, List.map_map]
    exact List.map_congr_left fun reading _ => (ImuTransform.apply_multiply a b reading).symm
  refine ⟨himu a b, fun vs => ?_, fun readings => ?_⟩
  · rw [outputs_chain, VectorTransform.outputs_stage, VectorTransform.outputs_stage, VectorTransform.outputs_stage,
      List.map_map]
    exact List.map_congr_left fun v _ => (RotationMatrix.transform_multiply a b v).symm
  · refine (himu ImuTransform.enuToNed.rotation ImuTransform.nedToEnu.rotation readings).trans ?_
    rw [ImuTransform.enuToNed, ImuTransform.multiply_nedToEnu, ImuTransform.outputs_stage]
    have hid : ∀ reading : ImuReading R, ImuTransform.apply RotationMatrix.identity reading = reading := by
      intro reading
      simp only [ImuTransform.apply, RotationMatrix.transform_identity]
    rw [List.map_congr_left fun reading _ => hid reading, List.map_id']

end

end Stage

end SensorBridge
