import SkyCamera.Proofs.CalibrationReport
import SkyCamera.Proofs.MoorePenrose
import SkyCamera.Proofs.SolverCalls

/-!
Pixels do not depend on the norm of the quaternion, so along it the Jacobian is zero: the turned
vector is of second degree in the components, and the projection of degree zero. The covariance of
fitted parameters, made with the pseudo-inverse, therefore gives the norm no variance.
-/
namespace SkyCamera

open Matrix Linear

/-- A pixel does not move with the distance of what it shows. -/
theorem Camera.byPoint_dot_self {camera : Camera ℝ} {v : Vec3 ℝ} {slopes : PixelSlopes ℝ}
    (hslopes : camera.projectWithSlopes v = some slopes) :
    slopes.byPoint.1.dot v = 0 ∧ slopes.byPoint.2.dot v = 0 := by
  unfold projectWithSlopes at hslopes
  split at hslopes
  · cases hslopes
  · next hdepth =>
    have hz : v.z ≠ 0 := (not_le.mp hdepth).ne'
    have hflat (a b : ℝ) : ((⟨1 / v.z, 0, -(v.x / v.z) * (1 / v.z)⟩ : Vec3 ℝ).scale a +
        (⟨0, 1 / v.z, -(v.y / v.z) * (1 / v.z)⟩ : Vec3 ℝ).scale b).dot v = 0 := by
      simp only [Vec3.dot, Vec3.scale, Vec3.add_def]
      field_simp
      ring
    cases hslopes
    exact ⟨hflat _ _, hflat _ _⟩

/-- A component moves the norm of a unit quaternion by its own value. -/
theorem Quaternion.hasDerivAt_norm_replace {q : Quaternion ℝ} {e : Fin 4} {t : ℝ}
    (hnorm : (q.replace e t).norm = 1) : HasDerivAt (fun x => (q.replace e x).norm) t t := by
  have hsum := Real.sqrt_eq_one.mp hnorm
  have hreplace (x : ℝ) : (q.replace e x).norm = Real.sqrt (1 + (x * x - t * t)) := by
    rw [← hsum]
    refine congrArg Real.sqrt ?_
    match e with
    | 0 | 1 | 2 | 3 =>
      simp only [replace]
      ring
  have hsquare := (((hasDerivAt_id' t).mul (hasDerivAt_id' t)).sub_const (t * t)).const_add 1
  rw [funext hreplace]
  refine (hsquare.sqrt (by simp)).congr_deriv ?_
  simp

namespace StarFit

/-- A form of second degree is half of its slopes at the components that they belong to. -/
theorem sum_rotateSlope (q : Quaternion ℝ) (s : Vec3 ℝ) :
    (rotateSlope q s 0).scale q.w + (rotateSlope q s 1).scale q.x + (rotateSlope q s 2).scale q.y +
      (rotateSlope q s 3).scale q.z = (rotate q s).scale 2 := by
  simp only [rotateSlope, rotateSlopes, rotate, Vec3.add_def, Vec3.scale, Vec3.dot, Vec3.cross,
    Scalar.two_real, Fin.getElem_fin, Fin.isValue, Fin.coe_ofNat_eq_mod, Nat.reduceMod,
    List.getElem_cons_zero, List.getElem_cons_succ, Vec3.mk.injEq]
  refine ⟨?_, ?_, ?_⟩
  · ring
  · ring
  · ring

/-- The rotation without normalisation is homogeneous of degree two, so the slopes along the
quaternion itself add up to twice the vector. -/
theorem sum_dot_rotateSlope (v : Vec3 ℝ) (q : Quaternion ℝ) (s : Vec3 ℝ) :
    v.dot (rotateSlope q s 0) * q.w + v.dot (rotateSlope q s 1) * q.x +
      v.dot (rotateSlope q s 2) * q.y + v.dot (rotateSlope q s 3) * q.z =
        2 * v.dot (rotate q s) := by
  have hsum := congrArg v.dot (sum_rotateSlope q s)
  simp only [Vec3.dot, Vec3.scale, Vec3.add_def] at hsum ⊢
  linear_combination hsum

variable (f : StarFit ℝ)

def componentAt (e : Fin 4) : Fin f.parameterCount :=
  ⟨f.intrinsicCount + e.val, Nat.add_lt_add_left e.isLt _⟩

/-- The quaternion of `p` in its place among the parameters, and zero for the intrinsics. -/
def gauge (p : Vector ℝ f.parameterCount) : Vector ℝ f.parameterCount :=
  .ofFn fun c => if f.intrinsicCount ≤ c.val then p[c] else 0

theorem coords_gauge (p : Vector ℝ f.parameterCount) (c : Fin f.parameterCount) :
    coords (f.gauge p) c = if f.intrinsicCount ≤ c.val then p[c] else 0 :=
  congrFun (coords_ofFn _) c

/-- A sum against the gauge direction is one over the four components. -/
theorem sum_gauge (p : Vector ℝ f.parameterCount) (g : Nat → ℝ) :
    ∑ c : Fin f.parameterCount, g c.val * coords (f.gauge p) c =
      ∑ e : Fin 4, g (f.intrinsicCount + e.val) * p[f.componentAt e] := by
  have hintrinsic (c : Fin f.intrinsicCount) :
      g c.val * coords (f.gauge p) (Fin.castAdd 4 c) = 0 :=
    mul_eq_zero_of_right _ ((f.coords_gauge p _).trans (if_neg (not_le.mpr c.isLt)))
  have hcomponent (e : Fin 4) : coords (f.gauge p) (Fin.natAdd f.intrinsicCount e) =
      p[f.componentAt e] :=
    (f.coords_gauge p _).trans (if_pos (Nat.le_add_right _ _))
  calc
    ∑ c : Fin f.parameterCount, g c.val * coords (f.gauge p) c
      = ∑ c : Fin f.intrinsicCount, g c.val * coords (f.gauge p) (Fin.castAdd 4 c) +
          ∑ e : Fin 4, g (f.intrinsicCount + e.val) *
            coords (f.gauge p) (Fin.natAdd f.intrinsicCount e) := Fin.sum_univ_add _
    _ = ∑ e : Fin 4, g (f.intrinsicCount + e.val) * p[f.componentAt e] := by
      rw [Finset.sum_eq_zero fun c _ => hintrinsic c, zero_add]
      exact Finset.sum_congr rfl fun e _ => congrArg _ (hcomponent e)

/-- The row of a star is zero along the quaternion. -/
theorem sum_rowsOf_gauge (p : Vector ℝ f.parameterCount) (star : KeptStar ℝ) (e : Fin 2) :
    ∑ c : Fin f.parameterCount,
      (coordinate (rowsOf (f.cameraAt p) (f.quaternionAt p) star) e).getD c 0 *
        coords (f.gauge p) c = 0 := by
  let q := f.quaternionAt p
  rw [f.sum_gauge p fun c =>
    (coordinate (rowsOf (f.cameraAt p) (f.quaternionAt p) star) e).getD c 0]
  by_cases hdepth : (rotate q star.direction).z ≤ 0
  · rw [rowsOf_of_hidden _ _ _ hdepth]
    simp [coordinate]
  · obtain ⟨slopes, hslopes⟩ := (f.cameraAt p).exists_projectWithSlopes (rotate q star.direction)
      (not_le.mp hdepth)
    have hentry (component : Fin 4) :
        (coordinate (rowsOf (f.cameraAt p) q star) e).getD (f.intrinsicCount + component.val) 0 =
          (coordinate slopes.byPoint e).dot (rotateSlope q star.direction component) := by
      rw [← f.length_byIntrinsics_cameraAt hslopes]
      exact getD_rowsOf_component _ q star hslopes e component
    have hpoint : (coordinate slopes.byPoint e).dot (rotate q star.direction) = 0 := by
      obtain ⟨hi, hj⟩ := Camera.byPoint_dot_self hslopes
      unfold coordinate
      split
      · exact hi
      · exact hj
    have hsum := sum_dot_rotateSlope (coordinate slopes.byPoint e) q star.direction
    rw [hpoint, mul_zero] at hsum
    rw [Fin.sum_univ_four, hentry 0, hentry 1, hentry 2, hentry 3]
    exact hsum

/-- The Jacobian is zero along the quaternion, whatever its norm. -/
theorem jacobian_mulVec_gauge (p : Vector ℝ f.parameterCount) :
    (f.jacobian p).mulVec (f.gauge p) = 0 := by
  apply coords_injective
  rw [Mat.coords_mulVec, coords_zero]
  funext i
  obtain ⟨⟨k, e⟩, rfl⟩ := f.placeEquiv.surjective i
  rw [placeEquiv_apply]
  show ∑ c, (f.jacobian p)[f.place k e][c] * coords (f.gauge p) c = 0
  simp only [jacobian_place]
  exact f.sum_rowsOf_gauge p (f.star k) e

/-- At a quaternion of norm one the slopes of the norm are the quaternion. -/
theorem hasDerivAt_norm_quaternionAt {p : Vector ℝ f.parameterCount}
    (hnorm : (f.quaternionAt p).norm = 1) (c : Fin f.parameterCount) :
    HasDerivAt (fun x => (f.quaternionAt (p.set c x c.isLt)).norm) (coords (f.gauge p) c) p[c] := by
  rw [coords_gauge]
  by_cases hc : f.intrinsicCount ≤ c.val
  · obtain ⟨e, -, hset⟩ := f.exists_component p c hc
    have hself : (f.quaternionAt p).replace e p[c] = f.quaternionAt p := by
      rw [← hset]
      exact congrArg f.quaternionAt (Vector.set_getElem_self c.isLt)
    rw [if_pos hc]
    simp only [hset]
    exact Quaternion.hasDerivAt_norm_replace (hself.symm ▸ hnorm)
  · rw [if_neg hc]
    simp only [f.quaternionAt_set_of_lt p c (not_le.mp hc)]
    exact hasDerivAt_const _ _

end StarFit

namespace Solver

variable {m n : Nat} [HasPseudoInverse ℝ]

/-- A direction in which the values do not move has no variance and no covariance with others. -/
theorem parameterCovariance_null (hinverse : InvertsMoorePenrose) {first s : Solver ℝ m n}
    {limit : Nat} (hcovariance : first.covariance.IsMade) (hfit : first.fit limit = .ok s)
    (hm : m ≠ 0) (hdof : m < n) {direction : Vector ℝ m}
    (hdirection : (first.model.jacobian s.parameters).mulVec direction = 0) :
    ∃ covariance, s.parameterCovariance = .ok covariance ∧ covariance.toMatrix.IsSymm ∧
      covariance.toMatrix.PosSemidef ∧ covariance.mulVec direction = 0 := by
  obtain ⟨data, start, hholds⟩ := fit_holds first s limit hfit
  have hmodel : s.model = first.model := by rw [hholds.unchanged]
  have hmade : s.covariance.IsMade := by
    rw [hholds.unchanged]
    exact hcovariance
  have hstatus : s.status ≠ .notRun := by
    obtain ⟨data, start, -, -, rfl⟩ := fit_eq_ok hfit
    exact Problem.status_ne_notRun _ start limit
  have hparameters : s.parameters? = some s.parameters := by
    rw [hholds.unchanged]
    rfl
  obtain ⟨hpositive, hweight⟩ := DataCovariance.weightMatrix_of_isMade hmade
  have hchi2 : 0 ≤ s.chi2 := by
    have hsame : s.covariance = first.covariance := by rw [hholds.unchanged]
    rw [hholds.chi2_eq, ← hsame, DataCovariance.chi2_real, hweight]
    exact hpositive.inv.posSemidef.dotProduct_mulVec_nonneg _
  obtain ⟨normal, hnormal⟩ := Mat.exists_toMatrix s.normalMatrix
  have hsemidefinite : normal.toMatrix.PosSemidef := by
    have hform := hpositive.inv.posSemidef.conjTranspose_mul_mul_same
      (s.model.jacobian s.parameters).toMatrix
    rwa [conjTranspose_eq_transpose_of_trivial, ← normalMatrix, ← hnormal] at hform
  have hsymm : normal.toMatrix.IsSymm := by
    rw [IsSymm, ← conjTranspose_eq_transpose_of_trivial]
    exact hsemidefinite.1
  have hnull : normal.toMatrix *ᵥ coords direction = 0 := by
    rw [hnormal, normalMatrix, ← mulVec_mulVec, hmodel, ← Mat.coords_mulVec, hdirection,
      coords_zero, mulVec_zero]
  obtain ⟨inverse, hok, hexact⟩ := hinverse normal hm hm
  have hscale := div_nonneg hchi2 (Nat.cast_nonneg' (n - m))
  refine ⟨inverse.scale (s.chi2 / ((n - m : Nat) : ℝ)), ?_, ?_, ?_, ?_⟩
  · rw [parameterCovariance_of_fitted hstatus hmade hparameters hdof hnormal, hok]
    rfl
  · rw [Mat.toMatrix_scale]
    exact (hexact.isSymm hsymm).smul _
  · rw [Mat.toMatrix_scale]
    exact (hexact.posSemidef hsemidefinite).smul hscale
  · apply coords_injective
    rw [Mat.coords_mulVec, Mat.toMatrix_scale, smul_mulVec, hexact.mulVec_eq_zero hsymm hnull,
      smul_zero, coords_zero]

end Solver

namespace StarFit

/-- With the derivatives in closed form the Jacobian is zero along the quaternion at all parameters.
So the covariance of fitted parameters, over which no setter has been called, is symmetric and
positive semidefinite and maps the quaternion to zero: the slopes of its norm at these parameters
give the norm no variance, and no covariance with any parameter. -/
theorem quaternion_gauge_null (f : StarFit ℝ) :
    (∀ p, ((f.model .analytic).jacobian p).mulVec (f.gauge p) = 0) ∧
    ∀ [HasPseudoInverse ℝ], InvertsMoorePenrose →
      ∀ (first s : Solver ℝ f.parameterCount f.dataCount) (limit : Nat),
        first.model = f.model .analytic → first.covariance.IsMade → first.fit limit = .ok s →
        f.parameterCount < f.dataCount →
        ∃ covariance, s.parameterCovariance = .ok covariance ∧ covariance.toMatrix.IsSymm ∧
          covariance.toMatrix.PosSemidef ∧ covariance.mulVec (f.gauge s.parameters) = 0 ∧
          ∀ c : Fin f.parameterCount,
            HasDerivAt (fun x => (f.quaternionAt (s.parameters.set c x c.isLt)).norm)
              (coords (f.gauge s.parameters) c) s.parameters[c] := by
  have hjacobian (p : Vector ℝ f.parameterCount) :
      ((f.model .analytic).jacobian p).mulVec (f.gauge p) = 0 := by
    rw [f.jacobian_model rfl]
    exact f.jacobian_mulVec_gauge p
  refine ⟨hjacobian, ?_⟩
  intro _ hinverse first s limit hmodel hmade hfit hdof
  obtain ⟨covariance, hcovariance, hsymm, hsemidefinite, hnull⟩ :=
    Solver.parameterCovariance_null hinverse hmade hfit (Nat.succ_ne_zero _) hdof
      (by rw [hmodel]; exact hjacobian s.parameters)
  have hnorm : (f.quaternionAt s.parameters).norm = 1 := by
    obtain ⟨p, hp⟩ := Solver.parameters_mem_range _ _ hfit
    rw [← hp, hmodel]
    exact f.norm_quaternionAt_constrain .analytic p
  exact ⟨covariance, hcovariance, hsymm, hsemidefinite, hnull, f.hasDerivAt_norm_quaternionAt hnorm⟩

noncomputable def sixStars : StarFit ℝ :=
  ⟨zenithCamera, .identity, Array.replicate 6 ⟨0, ⟨0, 0, 1⟩, 321, 241, none⟩, []⟩

theorem quaternion_gauge_null_sixStars :
    letI := moorePenroseInverse
    ∃ first s : Solver ℝ sixStars.parameterCount sixStars.dataCount,
      first.model = sixStars.model .analytic ∧ first.covariance.IsMade ∧ first.fit 5 = .ok s ∧
        sixStars.parameterCount < sixStars.dataCount ∧
        ∃ covariance, s.parameterCovariance = .ok covariance ∧
          covariance.mulVec (sixStars.gauge s.parameters) = 0 := by
  let _ := moorePenroseInverse
  have hdof : sixStars.parameterCount < sixStars.dataCount := by
    show 4 + 2 + 4 < 6 * 2
    decide
  let first : Solver ℝ sixStars.parameterCount sixStars.dataCount :=
    { Solver.ofModel (sixStars.model .analytic) .standard with
      data := some sixStars.observed
      parameters? := some sixStars.initial }
  obtain ⟨s, hfit⟩ : ∃ s, first.fit 5 = .ok s := ⟨_, if_neg (not_lt.mpr hdof.le)⟩
  have hmade : first.covariance.IsMade := Solver.isMade_ofModel (sixStars.model .analytic) .standard
  obtain ⟨covariance, hcovariance, -, -, hnull, -⟩ := (quaternion_gauge_null sixStars).2
    invertsMoorePenrose_moorePenroseInverse first s 5 rfl hmade hfit hdof
  exact ⟨first, s, rfl, hmade, hfit, hdof, covariance, hcovariance, hnull⟩

end StarFit
end SkyCamera
