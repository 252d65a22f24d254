import Mathlib.Analysis.SpecialFunctions.Trigonometric.Inverse
import SkyCamera.Proofs.Angles
import SkyCamera.Sky.Frames

/-!
Spherical coordinates, in exact arithmetic. Every vector is the one that the coordinates read off
from it make, also on the polar axis, which has no longitude of its own, and at the origin, which
has no latitude either. Coordinates off the axis and in their ranges are read off again as they are.
-/
namespace SkyCamera

namespace Vec3

theorem norm_mul_self (v : Vec3 ℝ) : v.norm * v.norm = v.x ^ 2 + v.y ^ 2 + v.z ^ 2 := by
  have hx := mul_self_nonneg v.x
  have hy := mul_self_nonneg v.y
  have hz := mul_self_nonneg v.z
  have hsum : 0 ≤ v.dot v := by
    rw [dot]
    linarith
  calc
    v.norm * v.norm = v.dot v := Real.mul_self_sqrt hsum
    _ = v.x ^ 2 + v.y ^ 2 + v.z ^ 2 := by
      rw [dot]
      ring

theorem eq_zero_or_norm_pos (v : Vec3 ℝ) : v = ⟨0, 0, 0⟩ ∨ 0 < v.norm := by
  rcases (Real.sqrt_nonneg (v.dot v)).eq_or_lt with hzero | hpos
  · left
    have hnorm : v.norm = 0 := hzero.symm
    have hsum := v.norm_mul_self
    rw [hnorm, mul_zero] at hsum
    have hx := sq_nonneg v.x
    have hy := sq_nonneg v.y
    have hz := sq_nonneg v.z
    have hx0 : v.x = 0 := sq_eq_zero_iff.mp (by linarith)
    have hy0 : v.y = 0 := sq_eq_zero_iff.mp (by linarith)
    have hz0 : v.z = 0 := sq_eq_zero_iff.mp (by linarith)
    rcases v with ⟨x, y, z⟩
    subst hx0 hy0 hz0
    rfl
  · exact .inr hpos

theorem abs_z_div_norm_le_one {v : Vec3 ℝ} (hv : 0 < v.norm) : |v.z / v.norm| ≤ 1 := by
  have hx := sq_nonneg v.x
  have hy := sq_nonneg v.y
  have hsum := v.norm_mul_self
  rw [abs_div, abs_of_pos hv, div_le_one hv]
  exact abs_le_of_sq_le_sq (by linarith [sq v.norm]) hv.le

end Vec3

namespace Sky

section Reading

variable {v : Vec3 ℝ} (hv : 0 < v.norm)
include hv

/-- Away from the origin the angles are defined by the direction. -/
theorem toSpherical_of_norm_pos :
    toSpherical v = (v.norm, Scalar.modulo (Scalar.atan2 v.y v.x) Scalar.tau,
      Real.arcsin (v.z / v.norm)) := by
  have hzero : ¬ Scalar.IsZero v.norm := by
    rw [Scalar.isZero_real_iff]
    exact hv.ne'
  rw [toSpherical, if_neg hzero, Scalar.clampUnit_of_abs_le (Vec3.abs_z_div_norm_le_one hv)]
  rfl

theorem norm_mul_sin_arcsin : v.norm * Real.sin (Real.arcsin (v.z / v.norm)) = v.z := by
  obtain ⟨hlow, hhigh⟩ := abs_le.mp (Vec3.abs_z_div_norm_le_one hv)
  rw [Real.sin_arcsin hlow hhigh, mul_div_cancel₀ v.z hv.ne']

/-- The latitude leaves the distance from the polar axis. -/
theorem norm_mul_cos_arcsin :
    v.norm * Real.cos (Real.arcsin (v.z / v.norm)) = Real.sqrt (v.x ^ 2 + v.y ^ 2) := by
  have hsum := v.norm_mul_self
  have hrest : v.x ^ 2 + v.y ^ 2 = v.norm ^ 2 * (1 - (v.z / v.norm) ^ 2) := by
    field_simp
    linarith
  rw [Real.cos_arcsin, hrest, Real.sqrt_mul (sq_nonneg v.norm), Real.sqrt_sq hv.le]

end Reading

theorem toSpherical_zero : toSpherical (⟨0, 0, 0⟩ : Vec3 ℝ) = (0, 0, 0) := by
  have hzero : Scalar.IsZero (⟨0, 0, 0⟩ : Vec3 ℝ).norm := by
    rw [Scalar.isZero_real_iff]
    show Real.sqrt (0 * 0 + 0 * 0 + 0 * 0) = 0
    norm_num
  rw [toSpherical, if_pos hzero]

/-- A vector is made by the coordinates that are read off from it. -/
theorem ofSpherical_toSpherical (v : Vec3 ℝ) :
    ofSpherical (toSpherical v).1 (toSpherical v).2.1 (toSpherical v).2.2 = v := by
  rcases v.eq_zero_or_norm_pos with rfl | hv
  · rw [toSpherical_zero]
    simp only [ofSpherical, zero_mul]
  · obtain ⟨hx, hy⟩ := Scalar.polar_atan2 v.y v.x
    rw [toSpherical_of_norm_pos hv]
    simp only [ofSpherical, Scalar.sin_real, Scalar.cos_real, Scalar.cos_modulo_tau,
      Scalar.sin_modulo_tau]
    rw [norm_mul_cos_arcsin hv, norm_mul_sin_arcsin hv, hx, hy]

/-- The ranges of the three coordinates. -/
structure IsSpherical (r theta phi : ℝ) : Prop where
  radius_nonneg : 0 ≤ r
  longitude_nonneg : 0 ≤ theta
  longitude_lt : theta < 2 * Real.pi
  latitude_ge : -(Real.pi / 2) ≤ phi
  latitude_le : phi ≤ Real.pi / 2

/-- The coordinates are within their ranges, at the poles and the origin too. -/
theorem isSpherical_toSpherical (v : Vec3 ℝ) :
    IsSpherical (toSpherical v).1 (toSpherical v).2.1 (toSpherical v).2.2 := by
  rcases v.eq_zero_or_norm_pos with rfl | hv
  · have hright := Real.pi_div_two_pos
    rw [toSpherical_zero]
    exact ⟨le_rfl, le_rfl, Real.two_pi_pos, by linarith, hright.le⟩
  · rw [toSpherical_of_norm_pos hv]
    exact ⟨hv.le, Scalar.modulo_tau_nonneg _, Scalar.modulo_tau_lt _,
      Real.neg_pi_div_two_le_arcsin _, Real.arcsin_le_pi_div_two _⟩

theorem norm_ofSpherical {r : ℝ} (hr : 0 ≤ r) (theta phi : ℝ) :
    (ofSpherical r theta phi).norm = r := by
  have hdot : (ofSpherical r theta phi).dot (ofSpherical r theta phi) = r ^ 2 := by
    simp only [ofSpherical, Vec3.dot, Scalar.sin_real, Scalar.cos_real]
    linear_combination r ^ 2 * Real.cos phi ^ 2 * Real.sin_sq_add_cos_sq theta +
      r ^ 2 * Real.sin_sq_add_cos_sq phi
  show Real.sqrt _ = r
  rw [hdot, Real.sqrt_sq hr]

/-- Coordinates are read off from the vector that they make, if it is not on the polar axis. -/
theorem toSpherical_ofSpherical {r theta phi : ℝ} (hr : 0 < r) (htheta : 0 ≤ theta)
    (hturn : theta < 2 * Real.pi) (hlow : -(Real.pi / 2) < phi) (hhigh : phi < Real.pi / 2) :
    toSpherical (ofSpherical r theta phi) = (r, theta, phi) := by
  have hnorm := norm_ofSpherical hr.le theta phi
  have hdistance : 0 < r * Real.cos phi :=
    mul_pos hr (Real.cos_pos_of_mem_Ioo ⟨hlow, hhigh⟩)
  have hlongitude := Scalar.modulo_atan2_of_polar hdistance htheta hturn
  have hlatitude : Real.arcsin (r * Real.sin phi / r) = phi := by
    rw [mul_div_cancel_left₀ _ hr.ne', Real.arcsin_sin hlow.le hhigh.le]
  rw [toSpherical_of_norm_pos (hnorm.symm ▸ hr), hnorm]
  simp only [ofSpherical, Scalar.sin_real, Scalar.cos_real, hlongitude, hlatitude]

/-- Reading off and making are inverse to each other: on all vectors, and on all coordinates in
their ranges of a vector that is not on the polar axis. -/
theorem spherical_inverse :
    (∀ v : Vec3 ℝ, ∃ r theta phi, toSpherical v = (r, theta, phi) ∧
      ofSpherical r theta phi = v ∧ IsSpherical r theta phi) ∧
    ∀ r theta phi : ℝ, 0 < r → 0 ≤ theta → theta < 2 * Real.pi → -(Real.pi / 2) < phi →
      phi < Real.pi / 2 → toSpherical (ofSpherical r theta phi) = (r, theta, phi) :=
  ⟨fun v => ⟨(toSpherical v).1, (toSpherical v).2.1, (toSpherical v).2.2, rfl,
      ofSpherical_toSpherical v, isSpherical_toSpherical v⟩,
    fun _ _ _ => toSpherical_ofSpherical⟩

/-- A longitude in the last quarter, which `atan2` gives as a negative angle. -/
theorem spherical_inverse_lastQuarter :
    (0 : ℝ) < 2 ∧ 0 ≤ 3 * (Real.pi / 2) ∧ 3 * (Real.pi / 2) < 2 * Real.pi ∧
      -(Real.pi / 2) < Real.pi / 6 ∧ Real.pi / 6 < Real.pi / 2 ∧
      ofSpherical 2 (3 * (Real.pi / 2)) (Real.pi / 6) = ⟨0, -Real.sqrt 3, 1⟩ ∧
      toSpherical ⟨0, -Real.sqrt 3, 1⟩ = (2, 3 * (Real.pi / 2), Real.pi / 6) := by
  have hpi := Real.pi_pos
  have htheta : 0 ≤ 3 * (Real.pi / 2) := by linarith
  have hturn : 3 * (Real.pi / 2) < 2 * Real.pi := by linarith
  have hlow : -(Real.pi / 2) < Real.pi / 6 := by linarith
  have hhigh : Real.pi / 6 < Real.pi / 2 := by linarith
  have hvector : ofSpherical 2 (3 * (Real.pi / 2)) (Real.pi / 6) = ⟨0, -Real.sqrt 3, 1⟩ := by
    have hangle : 3 * (Real.pi / 2) = Real.pi / 2 + Real.pi := by ring
    simp only [ofSpherical, Scalar.sin_real, Scalar.cos_real, hangle, Real.sin_add_pi,
      Real.cos_add_pi, Real.sin_pi_div_two, Real.cos_pi_div_two, Real.sin_pi_div_six,
      Real.cos_pi_div_six, Vec3.mk.injEq]
    refine ⟨?_, ?_, ?_⟩
    · ring
    · ring
    · ring
  refine ⟨two_pos, htheta, hturn, hlow, hhigh, hvector, ?_⟩
  rw [← hvector]
  exact spherical_inverse.2 2 (3 * (Real.pi / 2)) (Real.pi / 6) two_pos htheta hturn hlow hhigh

end Sky
end SkyCamera
