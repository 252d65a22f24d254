import SkyCamera.Proofs.AffineMinimum

/-!
Fits of affine models that end at the minimum itself. A damped step with the Jacobian of the model
falls short of the minimum, by a factor that depends on the damping, but one with a smaller Jacobian
goes further. So a second step can be made to land where the first one does not.
-/
namespace SkyCamera

open Matrix Linear

variable {m n : Nat}

namespace Problem

theorem Step.next_of_accepted {α : Type} [Scalar α] {problem : Problem α m n} {ceiling : α}
    {it next : Iterate α m n} {a : Attempt α} {status : Option FitStatus}
    (h : problem.Step ceiling it a next status) {trial : Point α m n}
    (htrial : problem.trial? it = some trial) (himproves : Improves it trial)
    (hmore : ¬ problem.Suffices it trial) :
    next = ⟨trial, problem.equations trial, it.damping / problem.settings.boost⟩ ∧
      status = none := by
  have hsame {other : Point α m n} (hother : problem.trial? it = some other) : other = trial :=
    Option.some.inj (hother.symm.trans htrial)
  cases h with
  | singular hnone =>
    rw [hnone] at htrial
    cases htrial
  | accepted hother => exact hsame hother ▸ ⟨rfl, rfl⟩
  | converged hother _ hlast => exact absurd (hsame hother ▸ hlast) hmore
  | settled hother hfails => exact absurd (hsame hother ▸ himproves) hfails
  | rejected hother hfails => exact absurd (hsame hother ▸ himproves) hfails

/-- A fit of two attempts that both bring `χ²` down ends where the second leads. -/
theorem last_fit_two {α : Type} [Scalar α] {problem : Problem α m n} {start : Vector α m}
    {first second : Point α m n} (hzero : ¬ Scalar.IsZero (problem.point start).chi2)
    (hfirst : problem.trial? (problem.firstIterate start) = some first)
    (himproves : Improves (problem.firstIterate start) first)
    (hmore : ¬ problem.Suffices (problem.firstIterate start) first)
    (hsecond : ∀ it : Iterate α m n, it = ⟨first, problem.equations first,
        (problem.firstIterate start).damping / problem.settings.boost⟩ →
      problem.trial? it = some second ∧ Improves it second) :
    (problem.fit start 2).last = second := by
  obtain ⟨hnext, hnone⟩ := (problem.step_after start 0).next_of_accepted hfirst himproves hmore
  obtain ⟨htrial, himproves'⟩ := hsecond _ hnext
  obtain ⟨-, hlast, ⟨hstart, -⟩ | ⟨-, hends⟩⟩ := problem.fit_course start 2
  · exact absurd hstart hzero
  · have htwo : (problem.fit start 2).iterations = 2 := by
      have hle := hends.le_limit
      interval_cases hk : (problem.fit start 2).iterations
      · exact hends.at_limit rfl
      · exact hends.at_limit hnone
      · rfl
    have hstep := problem.step_after start 1
    obtain ⟨hpoint, -⟩ := hstep.point_of_accepted ((hstep.accepted_iff htrial).mpr himproves')
    rw [hlast, htwo]
    exact Option.some.inj (hpoint.symm.trans htrial)

theorem point_of_isAffine {problem : Problem ℝ m n} {f0 : Vector ℝ n} {x : Mat ℝ n m}
    (hmodel : problem.model.IsAffine f0 x) (p : Vector ℝ m) :
    (problem.point p).parameters = p ∧
      (problem.point p).chi2 = problem.chi2 (problem.model.values p) := by
  simp only [point, hmodel.constrain_eq, id_eq, and_self]

section Diagonal

variable {problem : Problem ℝ m n} {f0 : Vector ℝ n} {x : Mat ℝ n m} {a : Fin m → ℝ}
  (hmodel : problem.model.IsAffine f0 x) (hcov : problem.covariance.IsValid)
  (hrank : x.toMatrix.rank = m)
  (hnormal : x.toMatrixᵀ * (problem.covariance.weightMatrix * x.toMatrix) = .diagonal a)
include hmodel hcov hrank hnormal

/-- With a diagonal normal matrix, and `t` times the Jacobian of the model, the damped equations
take every parameter the same part of the way to the minimum. -/
theorem exists_solution_of_smul {it : Iterate ℝ m n} {t : ℝ} (ht : 0 < t)
    (hit : problem.Balanced it)
    (hjacobian : (problem.model.jacobian it.point.parameters).toMatrix = t • x.toMatrix)
    (hfloor : ∀ k, dampingFloor ≤ t ^ 2 * a k) :
    ∃ d, solveDamped it.equations.matrix it.equations.gradient it.damping = some d ∧
      coords d = (t * (1 + it.damping))⁻¹ •
        (problem.minimum f0 x - coords it.point.parameters) := by
  have hweight := DataCovariance.posDef_weightMatrix hcov
  have hmatrix : it.equations.matrix.toMatrix = .diagonal fun k => t ^ 2 * a k := by
    rw [hit.equations_eq, toMatrix_equations, hjacobian, transpose_smul, Matrix.mul_smul,
      Matrix.smul_mul, Matrix.mul_smul, hnormal, smul_smul, ← diagonal_smul]
    exact congrArg _ (funext fun k => by rw [Pi.smul_apply, smul_eq_mul, sq])
  have hgradient (k : Fin m) : coords it.equations.gradient k =
      t * (a k * (problem.minimum f0 x k - coords it.point.parameters k)) := by
    have hpull : coords it.equations.gradient = t • (Matrix.diagonal a *ᵥ
        (problem.minimum f0 x - coords it.point.parameters)) := by
      rw [hit.equations_eq, coords_gradient problem it.point hweight, hjacobian,
        hit.coherent.values_eq, hmodel.coords_values, ← sub_sub, transpose_smul, smul_mulVec,
        mulVec_sub, mulVec_sub, ← normal_minimum hcov hrank, mulVec_mulVec, mulVec_mulVec,
        Matrix.mul_assoc, ← mulVec_sub, hnormal]
    rw [hpull, Pi.smul_apply, mulVec_diagonal, smul_eq_mul, Pi.sub_apply]
  have hpos : it.equations.matrix.toMatrix.PosSemidef := by
    rw [hit.equations_eq]
    exact problem.posSemidef_equations it.point hweight
  obtain ⟨d, hsolves, hd⟩ := exists_solveDamped hpos hit.damping_pos it.equations.gradient
  refine ⟨d, hsolves, funext fun k => ?_⟩
  have hfloored : Scalar.atLeast dampingFloor (t ^ 2 * a k) = t ^ 2 * a k := if_pos (hfloor k)
  have hak : a k ≠ 0 := by
    intro hzero
    have hle := hfloor k
    rw [hzero, mul_zero] at hle
    exact absurd dampingFloor_pos hle.not_gt
  have hrow : t ^ 2 * a k * coords d k + it.damping * (t ^ 2 * a k * coords d k) =
      t * (a k * (problem.minimum f0 x k - coords it.point.parameters k)) := by
    have hrow := congrFun hd k
    rw [toMatrix_damped, toMatrix_flooredDiagonal, hmatrix, add_mulVec, smul_mulVec, Pi.add_apply,
      Pi.smul_apply, mulVec_diagonal, mulVec_diagonal, diagonal_apply_eq, hfloored, smul_eq_mul,
      hgradient] at hrow
    exact hrow
  have hdamping : 1 + it.damping ≠ 0 := (add_pos one_pos hit.damping_pos).ne'
  rw [Pi.smul_apply, Pi.sub_apply, smul_eq_mul,
    eq_inv_mul_iff_mul_eq₀ (mul_ne_zero ht.ne' hdamping)]
  refine mul_left_cancel₀ (mul_ne_zero ht.ne' hak) ?_
  linear_combination hrow

/-- A step that does not go beyond the minimum brings `χ²` down. -/
theorem exists_trial_of_smul {it : Iterate ℝ m n} {t : ℝ} (ht : 0 < t)
    (hit : problem.Balanced it)
    (hjacobian : (problem.model.jacobian it.point.parameters).toMatrix = t • x.toMatrix)
    (hfloor : ∀ k, dampingFloor ≤ t ^ 2 * a k) (hpart : 1 ≤ t * (1 + it.damping))
    (hfar : coords it.point.parameters ≠ problem.minimum f0 x) :
    ∃ q, problem.trial? it = some (problem.point q) ∧ Improves it (problem.point q) ∧
      coords q - problem.minimum f0 x = (1 - (t * (1 + it.damping))⁻¹) •
        (coords it.point.parameters - problem.minimum f0 x) := by
  obtain ⟨d, hsolves, hd⟩ :=
    exists_solution_of_smul hmodel hcov hrank hnormal ht hit hjacobian hfloor
  have hway : coords (it.point.parameters + d) - problem.minimum f0 x =
      (1 - (t * (1 + it.damping))⁻¹) • (coords it.point.parameters - problem.minimum f0 x) := by
    rw [coords_add, hd, sub_smul, one_smul, smul_sub, smul_sub]
    abel
  refine ⟨it.point.parameters + d, by rw [trial?, hsolves, Option.map_some],
    ⟨Scalar.isFinite_real _, ?_⟩, hway⟩
  have hinv : 0 < (t * (1 + it.damping))⁻¹ ∧ (t * (1 + it.damping))⁻¹ ≤ 1 :=
    ⟨inv_pos.mpr (one_pos.trans_le hpart), inv_le_one_of_one_le₀ hpart⟩
  rw [hit.coherent.chi2_eq, hit.coherent.values_eq, (point_of_isAffine hmodel _).2]
  exact chi2_values_lt_of_smul hmodel hcov hrank (by nlinarith [hinv.1, hinv.2]) hfar hway

end Diagonal

end Problem

/-- An affine model whose Jacobian is that of half the model anywhere but at `start`. -/
noncomputable def Model.landing (f0 : Vector ℝ n) (x : Mat ℝ n m) (start : Vector ℝ m) :
    Model ℝ m n where
  values p := f0 + x.mulVec p
  derivative := .closedForm fun p => if p = start then x else x.scale (1 + 1)⁻¹
  steps _ := []

/-- Settings without tolerances, under which a damping of `first` is followed by one of 1. -/
noncomputable def Settings.landing (first : ℝ) : Settings ℝ where
  exitTolerance := 0
  maxDamping := 1
  boost := first
  stepTolerance := 0
  dataStep := 1

namespace Problem

variable {problem : Problem ℝ m n} {f0 : Vector ℝ n} {x : Mat ℝ n m} {start : Vector ℝ m}
  {a : Fin m → ℝ} {first : ℝ}

theorem isAffine_landing : (Model.landing f0 x start).IsAffine f0 x := ⟨fun _ => rfl, rfl⟩

/-- Without tolerances no accepted step ends the fit that moves and leaves `χ²` positive. -/
theorem not_suffices_of_noTolerance (hcov : problem.covariance.IsValid)
    (hexit : problem.settings.exitTolerance = 0) (hstep : problem.settings.stepTolerance = 0)
    {it : Iterate ℝ m n} {trial : Point ℝ m n} (hit : problem.Coherent it.point)
    (hlt : trial.chi2 < it.point.chi2) (hpos : 0 < trial.chi2)
    (hmoves : trial.parameters ≠ it.point.parameters) : ¬ problem.Suffices it trial := by
  rintro (hchange | hzero | hnegligible)
  · rw [hexit, hit.chi2_eq] at hchange
    rw [hit.chi2_eq] at hlt
    exact hchange.not_ge (div_nonneg (sub_nonneg.mpr hlt.le) (DataCovariance.chi2_nonneg hcov _))
  · exact hpos.ne' ((Scalar.isZero_real_iff _).mp hzero)
  · rw [StepNegligible, hstep, zero_mul] at hnegligible
    have hsquare : dot (trial.parameters - it.point.parameters)
        (trial.parameters - it.point.parameters) ≤ 0 := Real.sqrt_eq_zero'.mp
      (le_antisymm hnegligible (norm_nonneg _))
    rw [dot_real, coords_sub] at hsquare
    have hsame := dotProduct_self_eq_zero.mp
      (le_antisymm hsquare (Finset.sum_nonneg fun k _ => mul_self_nonneg _))
    exact hmoves (coords_injective (sub_eq_zero.mp hsame))

section Landing

variable (hmodel : problem.model = .landing f0 x start)
include hmodel

theorem affine_of_landing : problem.model.IsAffine f0 x := hmodel ▸ isAffine_landing

theorem jacobian_landing (p : Vector ℝ m) :
    problem.model.jacobian p = if p = start then x else x.scale (1 + 1)⁻¹ := by
  rw [hmodel]
  rfl

theorem damping_landing
    (hfirst : firstDamping (x.transpose.mul (problem.covariance.weightRows x)) = first) :
    (problem.firstIterate start).damping = first := by
  have hjacobian : problem.model.jacobian (problem.point start).parameters = x := by
    rw [(point_of_isAffine (affine_of_landing hmodel) start).1, jacobian_landing hmodel,
      if_pos rfl]
  have hmatrix : (problem.equations (problem.point start)).matrix =
      x.transpose.mul (problem.covariance.weightRows x) := by
    rw [equations, hjacobian]
  show firstDamping (problem.equations (problem.point start)).matrix = first
  rw [hmatrix, hfirst]

variable (hcov : problem.covariance.IsValid) (hrank : x.toMatrix.rank = m)
  (hnormal : x.toMatrixᵀ * (problem.covariance.weightMatrix * x.toMatrix) = .diagonal a)
include hcov hrank hnormal

/-- The first step, with the Jacobian of the model, falls short of the minimum. -/
theorem exists_first_landing (hsettings : problem.settings = .landing first)
    (hfloor : ∀ k, dampingFloor ≤ a k) (hstart : coords start ≠ problem.minimum f0 x) :
    ∃ q, problem.trial? (problem.firstIterate start) = some (problem.point q) ∧
      Improves (problem.firstIterate start) (problem.point q) ∧
      ¬ problem.Suffices (problem.firstIterate start) (problem.point q) ∧
      q ≠ start ∧ coords q ≠ problem.minimum f0 x := by
  have haffine := affine_of_landing hmodel
  have hpoint := point_of_isAffine haffine
  let it := problem.firstIterate start
  have hparameters : it.point.parameters = start := (hpoint start).1
  have hit : problem.Balanced it := ⟨problem.coherent_point start, rfl, firstDamping_pos _⟩
  have hpositive := hit.damping_pos
  obtain ⟨q, hq, himproves, hshort⟩ := exists_trial_of_smul haffine hcov hrank hnormal one_pos hit
    (by rw [hparameters, jacobian_landing hmodel, if_pos rfl, one_smul]) (by simpa using hfloor)
    (by linarith) (hparameters ▸ hstart)
  rw [hparameters, one_mul] at hshort
  have hqmin : coords q ≠ problem.minimum f0 x := by
    have hpart : (1 + it.damping)⁻¹ < 1 := inv_lt_one_of_one_lt₀ (by linarith)
    rw [← sub_ne_zero, hshort]
    exact smul_ne_zero (by linarith) (sub_ne_zero.mpr hstart)
  have hqstart : q ≠ start := by
    rintro rfl
    exact lt_irrefl _ himproves.2
  refine ⟨q, hq, himproves, ?_, hqstart, hqmin⟩
  refine not_suffices_of_noTolerance hcov (by rw [hsettings]; rfl) (by rw [hsettings]; rfl)
    hit.coherent himproves.2 ?_ ?_
  · rw [(hpoint q).2]
    exact chi2_values_pos haffine hcov hrank hqmin
  · rw [(hpoint q).1, hparameters]
    exact hqstart

/-- A step from elsewhere, with half the Jacobian and a damping of one, leads to the minimum. -/
theorem exists_second_landing {it : Iterate ℝ m n} (hit : problem.Balanced it)
    (hdamping : it.damping = 1) (hfloor : ∀ k, 4 * dampingFloor ≤ a k)
    (hstart : it.point.parameters ≠ start)
    (hfar : coords it.point.parameters ≠ problem.minimum f0 x) :
    ∃ r, problem.trial? it = some (problem.point r) ∧ Improves it (problem.point r) ∧
      coords r = problem.minimum f0 x := by
  obtain ⟨r, hr, himproves, hlands⟩ := exists_trial_of_smul (affine_of_landing hmodel) hcov hrank
    hnormal (t := (1 + 1)⁻¹) (by norm_num) hit
    (by rw [jacobian_landing hmodel, if_neg hstart, Mat.toMatrix_scale])
    (fun k => by have := hfloor k; norm_num; linarith) (by rw [hdamping]; norm_num) hfar
  refine ⟨r, hr, himproves, ?_⟩
  rw [hdamping] at hlands
  norm_num at hlands
  exact sub_eq_zero.mp hlands

/-- From a start that is not the minimum, two attempts of the landing model end there. -/
theorem isMinimum_landing (hsettings : problem.settings = .landing first)
    (hfirst : firstDamping (x.transpose.mul (problem.covariance.weightRows x)) = first)
    (hfloor : ∀ k, 4 * dampingFloor ≤ a k) (hstart : coords start ≠ problem.minimum f0 x) :
    problem.IsMinimum (problem.fit start 2).last.parameters := by
  have haffine := affine_of_landing hmodel
  have hpoint := point_of_isAffine haffine
  have hdamping := damping_landing hmodel hfirst
  have hpositive : 0 < first := hdamping ▸ firstDamping_pos _
  have hle (k : Fin m) : dampingFloor ≤ a k := by
    have := hfloor k
    have := dampingFloor_pos
    linarith
  obtain ⟨q, hq, himproves, hmore, hqstart, hqmin⟩ :=
    exists_first_landing hmodel hcov hrank hnormal hsettings hle hstart
  obtain ⟨it, hit⟩ : ∃ it : Iterate ℝ m n, it = ⟨problem.point q,
    problem.equations (problem.point q),
    (problem.firstIterate start).damping / problem.settings.boost⟩ := ⟨_, rfl⟩
  have hone : it.damping = 1 := by
    rw [hit, hsettings, hdamping]
    exact div_self hpositive.ne'
  have hparameters : it.point.parameters = q := hit ▸ (hpoint q).1
  obtain ⟨r, hr, hbetter, hminimum⟩ := exists_second_landing hmodel hcov hrank hnormal
    ⟨hit ▸ problem.coherent_point q, hit ▸ rfl, hone ▸ one_pos⟩ hone hfloor
    (hparameters ▸ hqstart) (hparameters ▸ hqmin)
  have hzero : ¬ Scalar.IsZero (problem.point start).chi2 := by
    rw [Scalar.isZero_real_iff, (hpoint start).2]
    exact (chi2_values_pos haffine hcov hrank hstart).ne'
  have hlast : (problem.fit start 2).last = problem.point r := by
    refine last_fit_two hzero hq himproves hmore ?_
    rintro _ hsame
    obtain rfl := hsame.trans hit.symm
    exact ⟨hr, hbetter⟩
  rw [hlast, (hpoint r).1]
  exact (isMinimum_iff problem haffine hcov hrank r).mpr hminimum

end Landing

end Problem
end SkyCamera
