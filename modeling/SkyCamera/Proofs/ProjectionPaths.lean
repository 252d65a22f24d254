import Mathlib.Tactic.NormNum
import SkyCamera.Proofs.FloatRemainder
import SkyCamera.Proofs.Rotations
import SkyCamera.Proofs.Undistortion

/-!
The ways between a vector of the camera frame and its pixel. The projection with its derivatives
gives the pixel that the projection gives, in floating point too; the matrix of a camera gives it
where there is no distortion. Back from a pixel goes a unit vector in front of the camera, which is
seen at that pixel if undistortion ended at a root.
-/
namespace SkyCamera

namespace RadialDistortion

/-- A point that is undistorted keeps its direction, so its radius decides whether distortion takes
it back. -/
theorem distort_undistort_iff (d : RadialDistortion ℝ) (xd yd : ℝ) :
    d.distort (d.undistort xd yd).1 (d.undistort xd yd).2 = (xd, yd) ↔
      d.radius (d.lastIterate (Scalar.hypot xd yd)) = Scalar.hypot xd yd := by
  have hsquare := hypot_mul_self xd yd
  by_cases hzero : Scalar.hypot xd yd = 0
  · -- The centre is undistorted to itself, without a step.
    have hsmall : (0 : ℝ) < 1e-15 := by norm_num
    rw [hzero, mul_zero] at hsquare
    have hxd : xd = 0 := mul_self_eq_zero.mp (by nlinarith)
    have hyd : yd = 0 := mul_self_eq_zero.mp (by nlinarith)
    have hlast : d.lastIterate 0 = 0 := by rw [lastIterate, stepsMade, if_pos hsmall, newtonIterate]
    rw [undistort, hzero, if_pos hsmall, hlast, hxd, hyd]
    simp only [distort, radius, zero_mul]
  · -- Elsewhere the way there and back multiplies by `d.radius r / rd`.
    rw [d.undistort_eq rfl hzero]
    generalize hrd : Scalar.hypot xd yd = rd at *
    generalize d.lastIterate rd = r
    have hradius : xd * (r / rd) * (xd * (r / rd)) + yd * (r / rd) * (yd * (r / rd)) = r * r := by
      field_simp
      linear_combination -r ^ 2 * hsquare
    have hfactor (u : ℝ) : u * (r / rd) * d.scale (r * r) = d.radius r / rd * u := by
      rw [radius]
      ring
    rw [distort, hradius, hfactor, hfactor, mul_eq_self_iff (hrd.trans_ne hzero),
      div_eq_one_iff_eq hzero]

/-- A root that the first step reaches is where undistortion ends: each further step is zero. -/
theorem lastIterate_of_first_root (d : RadialDistortion ℝ) {rd r : ℝ} (hrd : 1e-15 ≤ rd)
    (hstep : d.newtonStep rd rd = rd - r) (hroot : d.radius r = rd) : d.lastIterate rd = r := by
  have hstay : ∀ k, d.newtonIterate rd (k + 1) = r := by
    intro k
    induction k with
    | zero => rw [newtonIterate, newtonIterate, hstep, sub_sub_cancel]
    | succ k ih => rw [newtonIterate, ih, newtonStep_eq, hroot, sub_self, zero_div, sub_zero]
  obtain ⟨k, hk⟩ : ∃ k, d.stepsMade rd = k + 1 := by
    rw [stepsMade, if_neg (not_lt.mpr hrd), stepCount]
    split
    · exact ⟨0, rfl⟩
    · exact ⟨_, rfl⟩
  rw [lastIterate, hk, hstay]

end RadialDistortion

namespace Distortion

def IsZero : Distortion ℝ → Prop
  | none => True
  | radial d => d.IsZero

/-- Whether undistortion of `(xd, yd)` ended at a radius that is distorted to the one there. -/
def EndsAtRoot (xd yd : ℝ) : Distortion ℝ → Prop
  | none => True
  | radial d => d.radius (d.lastIterate (Scalar.hypot xd yd)) = Scalar.hypot xd yd

theorem distort_of_isZero {d : Distortion ℝ} (hd : d.IsZero) (x y : ℝ) :
    d.distort x y = (x, y) := by
  cases d with
  | none => rfl
  | radial d => exact RadialDistortion.distort_of_isZero hd x y

theorem distort_undistort_iff (d : Distortion ℝ) (xd yd : ℝ) :
    d.distort (d.undistort xd yd).1 (d.undistort xd yd).2 = (xd, yd) ↔ d.EndsAtRoot xd yd := by
  cases d with
  | none => exact iff_of_true rfl trivial
  | radial d => exact d.distort_undistort_iff xd yd

end Distortion

namespace Camera

/-- The two projections hide the same vectors and give the others the same pixel, as soon as the
factor of a camera without distortion changes no number. -/
theorem map_pixel_projectWithSlopes {α : Type} [Scalar α] (hone : ∀ x : α, x * 1 = x)
    (c : Camera α) (v : Vec3 α) : (c.projectWithSlopes v).map (·.pixel) = c.project v := by
  rw [projectWithSlopes, project]
  split
  · rfl
  · rw [tangentToPixel, Distortion.distort_eq hone]
    rfl

/-- Without distortion the path by the intrinsic matrix is the pinhole path; both divide by the
depth. -/
theorem projectByMatrix_intrinsicMatrix {c : Camera ℝ} (hc : c.distortion.IsZero) (v : Vec3 ℝ) :
    projectByMatrix c.intrinsicMatrix v = c.project v := by
  rw [projectByMatrix, project]
  split
  · rfl
  · rename_i hz
    have hne : v.z ≠ 0 := (not_le.mp hz).ne'
    rw [tangentToPixel, Distortion.distort_of_isZero hc]
    simp only [intrinsicMatrix, Mat3.mulVec, Vec3.dot, zero_mul, one_mul, add_zero, zero_add,
      Option.some.injEq, Prod.mk.injEq]
    constructor
    · field_simp
    · field_simp

/-- A pixel determines the distorted point of the tangent plane, since neither scale is zero. -/
theorem pixel_of_tangent {c : Camera ℝ} (hfi : c.fi ≠ 0) (hfj : c.fj ≠ 0) (x y i j : ℝ) :
    c.tangentToPixel x y = (i, j) ↔
      c.distortion.distort x y = ((i - c.pi) / c.fi, (j - c.pj) / c.fj) := by
  rw [tangentToPixel, Prod.ext_iff, Prod.ext_iff, eq_div_iff hfi, eq_div_iff hfj]
  refine and_congr ?_ ?_
  · rw [mul_comm, eq_sub_iff_add_eq]
  · rw [mul_comm, eq_sub_iff_add_eq]

end Camera

namespace Vec3

theorem normalize_eq_scale (v : Vec3 ℝ) : v.normalize = v.scale v.norm⁻¹ := by
  simp only [normalize, scale, div_eq_mul_inv]

theorem norm_tangent_pos (x y : ℝ) : 0 < (⟨x, y, 1⟩ : Vec3 ℝ).norm := by
  have hx := mul_self_nonneg x
  have hy := mul_self_nonneg y
  have hsum : 0 < x * x + y * y + 1 * 1 := by linarith
  exact Real.sqrt_pos.mpr hsum

theorem norm_normalize {v : Vec3 ℝ} (hv : 0 < v.norm) : v.normalize.norm = 1 := by
  have hsquare : v.norm * v.norm = v.dot v :=
    Real.mul_self_sqrt (Real.sqrt_pos.mp hv).le
  have hone : v.normalize.dot v.normalize = 1 := by
    simp only [dot, normalize] at hsquare ⊢
    field_simp
    linarith
  show Real.sqrt _ = 1
  rw [hone, Real.sqrt_one]

end Vec3

namespace Camera

/-- How a pixel is seen again. A step of undistortion that divides by zero stays in place. -/
structure SeesAgain (c : Camera ℝ) (i j : ℝ) : Prop where
  norm_eq : (c.unproject i j).norm = 1
  front : 0 < (c.unproject i j).z
  project_eq : c.project (c.unproject i j) =
    some (c.tangentToPixel (c.pixelToTangent i j).1 (c.pixelToTangent i j).2)
  eq_iff : c.fi ≠ 0 → c.fj ≠ 0 → (c.project (c.unproject i j) = some (i, j) ↔
    c.distortion.EndsAtRoot ((i - c.pi) / c.fi) ((j - c.pj) / c.fj))

/-- A pixel is seen again just where the undistorted point distorts to it. -/
theorem seesAgain (c : Camera ℝ) (i j : ℝ) : c.SeesAgain i j := by
  obtain ⟨x, y, htangent⟩ : ∃ x y, c.pixelToTangent i j = (x, y) := ⟨_, _, rfl⟩
  have hunproject : c.unproject i j = Vec3.normalize ⟨x, y, 1⟩ := by rw [unproject, htangent]
  have hnorm := Vec3.norm_tangent_pos x y
  have hproject : c.project (c.unproject i j) = some (c.tangentToPixel x y) := by
    rw [hunproject, Vec3.normalize_eq_scale, c.project_scale _ (inv_pos.mpr hnorm),
      c.project_of_pos _ one_pos, div_one, div_one]
  refine ⟨?_, ?_, ?_, ?_⟩
  · rw [hunproject, Vec3.norm_normalize hnorm]
  · rw [hunproject]
    exact one_div_pos.mpr hnorm
  · rw [hproject, htangent]
  · intro hfi hfj
    have hpair := c.distortion.distort_undistort_iff ((i - c.pi) / c.fi) ((j - c.pj) / c.fj)
    rw [← pixelToTangent, htangent] at hpair
    rw [hproject, Option.some.injEq, pixel_of_tangent hfi hfj, hpair]

/-- The projections agree, and the way back from a pixel is their inverse up to undistortion. -/
theorem projections_agree :
    (∀ (c : Camera Float) (v : Vec3 Float),
      (c.projectWithSlopes v).map (·.pixel) = c.project v) ∧
    ∀ c : Camera ℝ,
      (∀ v, (c.projectWithSlopes v).map (·.pixel) = c.project v) ∧
      (c.distortion.IsZero → ∀ v, projectByMatrix c.intrinsicMatrix v = c.project v) ∧
      ∀ i j, c.SeesAgain i j :=
  ⟨map_pixel_projectWithSlopes Binary64.float_mul_one, fun c =>
    ⟨c.map_pixel_projectWithSlopes mul_one, projectByMatrix_intrinsicMatrix, c.seesAgain⟩⟩

/-- A pixel whose undistortion takes one step to the root, and a camera without distortion. -/
theorem projections_agree_bent :
    let bent : Camera ℝ := ⟨5, 5, 0, 0, 12, 12, .radial (.ofCoefficients (49 / 44) (-5 / 44) 0)⟩
    let flat : Camera ℝ := ⟨5, 5, 0, 0, 12, 12, .radial (.ofTerms 2)⟩
    bent.fi ≠ 0 ∧ bent.fj ≠ 0 ∧
      bent.distortion.EndsAtRoot ((6 - bent.pi) / bent.fi) ((8 - bent.pj) / bent.fj) ∧
      bent.pixelToTangent 6 8 = (3 / 5, 4 / 5) ∧
      bent.project (bent.unproject 6 8) = some (6, 8) ∧
      flat.distortion.IsZero ∧ ∀ v, projectByMatrix flat.intrinsicMatrix v = flat.project v := by
  intro bent flat
  have hfi : bent.fi ≠ 0 := by norm_num [bent]
  have hfj : bent.fj ≠ 0 := by norm_num [bent]
  let d : RadialDistortion ℝ := .ofCoefficients (49 / 44) (-5 / 44) 0
  have htwo : Scalar.hypot ((6 - bent.pi) / bent.fi) ((8 - bent.pj) / bent.fj) = 2 := by
    show Real.sqrt _ = 2
    rw [Real.sqrt_eq_iff_mul_self_eq_of_pos two_pos]
    norm_num [bent]
  have hroot : d.radius 1 = 2 := by
    norm_num [d, RadialDistortion.radius, RadialDistortion.scale, RadialDistortion.ofCoefficients]
  have hlast : d.lastIterate 2 = 1 := by
    refine d.lastIterate_of_first_root (by norm_num) ?_ hroot
    norm_num [d, RadialDistortion.newtonStep, RadialDistortion.divisor, RadialDistortion.scale,
      RadialDistortion.scaleSlope, RadialDistortion.ofCoefficients]
  have hends :
      bent.distortion.EndsAtRoot ((6 - bent.pi) / bent.fi) ((8 - bent.pj) / bent.fj) := by
    show d.radius (d.lastIterate _) = _
    rw [htwo, hlast, hroot]
  have htangent : bent.pixelToTangent 6 8 = (3 / 5, 4 / 5) := by
    show d.undistort _ _ = _
    rw [d.undistort_eq htwo two_ne_zero, hlast]
    norm_num [bent]
  have hflat : flat.distortion.IsZero := ⟨⟨le_rfl, le_rfl⟩, ⟨le_rfl, le_rfl⟩, ⟨le_rfl, le_rfl⟩⟩
  obtain ⟨-, -, hagain⟩ := projections_agree.2 bent
  exact ⟨hfi, hfj, hends, htangent, ((hagain 6 8).eq_iff hfi hfj).mpr hends, hflat,
    (projections_agree.2 flat).2.1 hflat⟩

end Camera
end SkyCamera
