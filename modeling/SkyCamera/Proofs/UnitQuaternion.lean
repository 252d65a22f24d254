import SkyCamera.Proofs.ConstrainedFit
import SkyCamera.Proofs.StarLayout

/-!
The constraint of a calibration. In exact arithmetic it leaves a quaternion of norm one, whatever it
is given, so a calibration sees no other: neither in the trials of a fit, nor beside them in a
difference quotient, nor in the refits of a covariance.
-/
namespace SkyCamera

theorem Quaternion.norm_normalize {q : Quaternion ℝ} (hq : 0 < q.norm) : q.normalize.norm = 1 := by
  have hsum : 0 ≤ q.w * q.w + q.x * q.x + q.y * q.y + q.z * q.z := by
    have hw := mul_self_nonneg q.w
    have hx := mul_self_nonneg q.x
    have hy := mul_self_nonneg q.y
    have hz := mul_self_nonneg q.z
    linarith
  have hsquare : q.norm * q.norm = q.w * q.w + q.x * q.x + q.y * q.y + q.z * q.z :=
    Real.mul_self_sqrt hsum
  have hone : q.normalize.w * q.normalize.w + q.normalize.x * q.normalize.x +
      q.normalize.y * q.normalize.y + q.normalize.z * q.normalize.z = 1 := by
    simp only [normalize]
    field_simp
    linarith
  show Real.sqrt _ = 1
  rw [hone, Real.sqrt_one]

theorem Quaternion.normalize_of_norm_eq_one {q : Quaternion ℝ} (hq : q.norm = 1) :
    q.normalize = q := by
  rw [normalize, hq]
  simp only [div_one]

theorem Quaternion.norm_identity : (identity : Quaternion ℝ).norm = 1 := by
  show Real.sqrt (1 * 1 + 0 * 0 + 0 * 0 + 0 * 0) = 1
  norm_num

namespace StarFit

theorem norm_unitOrIdentity (q : Quaternion ℝ) : (unitOrIdentity q).norm = 1 := by
  unfold unitOrIdentity
  split
  next hq => exact Quaternion.norm_normalize hq.1
  next => exact Quaternion.norm_identity

theorem quaternionAt_withUnitQuaternion {α : Type} [Scalar α] (f : StarFit α)
    (p : Vector α f.parameterCount) :
    f.quaternionAt (f.withUnitQuaternion p) = unitOrIdentity (f.quaternionAt p) := by
  simp [quaternionAt, withUnitQuaternion, Quaternion.toList]

theorem cameraAt_withUnitQuaternion {α : Type} [Scalar α] (f : StarFit α)
    (p : Vector α f.parameterCount) : f.cameraAt (f.withUnitQuaternion p) = f.cameraAt p :=
  f.cameraAt_congr fun c hc => by simp [withUnitQuaternion, hc]

variable (f : StarFit ℝ)

/-- A unit quaternion stays as it is. -/
theorem withUnitQuaternion_of_norm_eq_one {p : Vector ℝ f.parameterCount}
    (hp : (f.quaternionAt p).norm = 1) : f.withUnitQuaternion p = p := by
  have hunit : unitOrIdentity (f.quaternionAt p) = f.quaternionAt p := by
    rw [unitOrIdentity, if_pos ⟨by rw [hp]; exact one_pos, Scalar.isFinite_real _⟩,
      Quaternion.normalize_of_norm_eq_one hp]
  ext i hi
  simp only [withUnitQuaternion, hunit, Vector.getElem_ofFn]
  split
  next hle =>
    rw [← f.drop_intrinsicCount p]
    simp [hle, hi]
  next => rfl

theorem withUnitQuaternion_initial (hf : f.orientation = .identity) :
    f.withUnitQuaternion f.initial = f.initial := by
  refine f.withUnitQuaternion_of_norm_eq_one ?_
  rw [quaternionAt_initial, hf, Quaternion.norm_identity]

theorem norm_quaternionAt_constrain (mode : JacobianMode) (p : Vector ℝ f.parameterCount) :
    (f.quaternionAt ((f.model mode).constrain p)).norm = 1 := by
  show (f.quaternionAt (f.withUnitQuaternion p)).norm = 1
  rw [quaternionAt_withUnitQuaternion, norm_unitOrIdentity]

/-- Quaternions have norm one wherever a solver evaluates the model, and where its fit ends. -/
structure KeepsUnitQuaternion (s : Solver ℝ f.parameterCount f.dataCount) (limit : Nat) :
    Prop where
  fit : ∀ p, .evaluated p ∈ (s.fitCalls limit).log s.model → (f.quaternionAt p).norm = 1
  covariance : ∀ p, .evaluated p ∈ s.covarianceCalls.log s.model → (f.quaternionAt p).norm = 1
  result : ∀ s', s.fit limit = .ok s' → (f.quaternionAt s'.parameters).norm = 1

theorem keepsUnitQuaternion (mode : JacobianMode) (s : Solver ℝ f.parameterCount f.dataCount)
    (limit : Nat) : f.KeepsUnitQuaternion (s.withModel (f.model mode)) limit := by
  have hcalls := (s.withModel (f.model mode)).constrainsCalls limit
  obtain ⟨hfit, hcovariance, hresult⟩ :=
    hcalls.established (fun p => (f.quaternionAt p).norm = 1) (f.norm_quaternionAt_constrain mode)
  exact ⟨hfit, hcovariance, hresult⟩

/-- A model is only evaluated where its constraint has led, and that of a calibration only at unit
quaternions, from every start. -/
theorem constrained_before_evaluated :
    (∀ {α : Type} [Scalar α] {m n : Nat} (s : Solver α m n) (limit : Nat),
      s.ConstrainsCalls limit) ∧
    ∀ (f : StarFit ℝ) (mode : JacobianMode) (s : Solver ℝ f.parameterCount f.dataCount)
      (limit : Nat), f.KeepsUnitQuaternion (s.withModel (f.model mode)) limit :=
  ⟨fun s limit => s.constrainsCalls limit, fun f mode s limit => f.keepsUnitQuaternion mode s limit⟩

def fourStars : StarFit ℝ where
  camera := ⟨1, 1, 0, 0, 640, 480, .none⟩
  orientation := ⟨0, 0, 0, 0⟩
  stars := #[⟨0, ⟨0, 0, 1⟩, 0, 0, none⟩, ⟨1, ⟨1, 0, 1⟩, 1, 0, none⟩,
    ⟨2, ⟨0, 1, 1⟩, 0, 1, none⟩, ⟨3, ⟨-1, 0, 1⟩, -1, 1, none⟩]
  excluded := []

noncomputable def fromZero : Solver ℝ fourStars.parameterCount fourStars.dataCount :=
  { Solver.ofModel (fourStars.model .centralDifference) .standard with
    data := some fourStars.observed
    parameters? := some fourStars.initial }

noncomputable def onlyAtUnits : Model ℝ fourStars.parameterCount fourStars.dataCount :=
  { fourStars.model .centralDifference with
    values := fun p => if (fourStars.quaternionAt p).norm = 1 then fourStars.values p else 0 }

theorem agreesWith_onlyAtUnits : (fourStars.model .centralDifference).AgreesWith onlyAtUnits where
  constrain_eq := rfl
  mode_eq := rfl
  values_eq p := if_pos (fourStars.norm_quaternionAt_constrain .centralDifference p)
  steps_eq _ := rfl
  closedForm_eq _ := rfl

theorem constrained_before_evaluated_fromZero :
    fourStars.quaternionAt fourStars.initial = ⟨0, 0, 0, 0⟩ ∧
      ∃ s', fromZero.fit 5 = .ok s' ∧ (fourStars.quaternionAt s'.parameters).norm = 1 ∧
        (fromZero.withModel onlyAtUnits).fit 5 = .ok (s'.withModel onlyAtUnits) := by
  obtain ⟨s', hs'⟩ : ∃ s', fromZero.fit 5 = .ok s' := ⟨_, if_neg (Nat.lt_irrefl 8)⟩
  have hcalls := constrained_before_evaluated.1 fromZero 5
  have hunits := constrained_before_evaluated.2 fourStars .centralDifference fromZero 5
  have hsame := (hcalls.agreement onlyAtUnits agreesWith_onlyAtUnits).1
  rw [hs'] at hsame
  exact ⟨fourStars.quaternionAt_initial, s', hs', hunits.result s' hs', hsame⟩

end StarFit
end SkyCamera
