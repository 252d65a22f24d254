import SkyCamera.Calibration.StarFit
import SkyCamera.Proofs.RealScalar

/-!
A vector turned by a quaternion and by the matrix of the quaternion, in exact arithmetic. The two
agree for every quaternion; another norm stretches the vector, and a pixel does not see that.
-/
namespace SkyCamera

theorem Mat3.mulVec_mul (a b : Mat3 ℝ) (v : Vec3 ℝ) :
    (a.mul b).mulVec v = a.mulVec (b.mulVec v) := by
  simp only [Mat3.mul, Mat3.mulVec, Mat3.transpose, Vec3.dot, Vec3.mk.injEq]
  refine ⟨?_, ?_, ?_⟩
  · ring
  · ring
  · ring

/-- A pixel shows a direction: a positive factor of the vector makes no difference. -/
theorem Camera.project_scale (c : Camera ℝ) (v : Vec3 ℝ) {a : ℝ} (ha : 0 < a) :
    c.project (v.scale a) = c.project v := by
  have hfront : v.z * a ≤ 0 ↔ v.z ≤ 0 :=
    ⟨fun h => nonpos_of_mul_nonpos_left h ha, fun h => mul_nonpos_of_nonpos_of_nonneg h ha.le⟩
  have hquotient (x : ℝ) : x * a / (v.z * a) = x / v.z := mul_div_mul_right x v.z ha.ne'
  simp only [Camera.project, Vec3.scale, hfront, hquotient]

namespace Quaternion

def scale (q : Quaternion ℝ) (a : ℝ) : Quaternion ℝ := ⟨q.w * a, q.x * a, q.y * a, q.z * a⟩

theorem normalize_eq_scale (q : Quaternion ℝ) : q.normalize = q.scale q.norm⁻¹ := by
  simp only [normalize, scale, div_eq_mul_inv]

theorem norm_pos (q : Quaternion ℝ) (hq : q ≠ ⟨0, 0, 0, 0⟩) : 0 < q.norm := by
  have hw := mul_self_nonneg q.w
  have hx := mul_self_nonneg q.x
  have hy := mul_self_nonneg q.y
  have hz := mul_self_nonneg q.z
  refine Real.sqrt_pos.mpr (lt_of_not_ge fun hsum => hq ?_)
  have hw0 : q.w = 0 := mul_self_eq_zero.mp (by linarith)
  have hx0 : q.x = 0 := mul_self_eq_zero.mp (by linarith)
  have hy0 : q.y = 0 := mul_self_eq_zero.mp (by linarith)
  have hz0 : q.z = 0 := mul_self_eq_zero.mp (by linarith)
  rcases q with ⟨w, x, y, z⟩
  subst hw0 hx0 hy0 hz0
  rfl

end Quaternion

namespace StarFit

theorem rotate_eq_mulVec (q : Quaternion ℝ) (s : Vec3 ℝ) : rotate q s = q.toMatrix.mulVec s := by
  simp only [rotate, Quaternion.toMatrix, Mat3.mulVec, Vec3.add_def, Vec3.scale, Vec3.dot,
    Vec3.cross, Scalar.two_real, Vec3.mk.injEq]
  refine ⟨?_, ?_, ?_⟩
  · ring
  · ring
  · ring

/-- A factor of the quaternion comes out squared. -/
theorem rotate_scale (q : Quaternion ℝ) (a : ℝ) (s : Vec3 ℝ) :
    rotate (q.scale a) s = (rotate q s).scale (a * a) := by
  simp only [rotate, Quaternion.scale, Vec3.add_def, Vec3.scale, Vec3.dot, Vec3.cross,
    Scalar.two_real, Vec3.mk.injEq]
  refine ⟨?_, ?_, ?_⟩
  · ring
  · ring
  · ring

theorem project_rotate_scale (c : Camera ℝ) (q : Quaternion ℝ) {a : ℝ} (ha : a ≠ 0) (s : Vec3 ℝ) :
    c.project (rotate (q.scale a) s) = c.project (rotate q s) := by
  rw [rotate_scale, c.project_scale _ (mul_self_pos.mpr ha)]

end StarFit
end SkyCamera
