import SkyCamera.Proofs.Damping
import SkyCamera.Proofs.FitHistory
import SkyCamera.Proofs.Weights

/-!
Fits of affine models in exact arithmetic. The normal matrix is positive semidefinite, so damped it
is never singular, and `χ²` is a quadratic function, so a step lowers it by what the normal
equations say. Only a step from the minimum can be rejected, and there the fit converges.
-/
namespace SkyCamera

open Matrix Linear

def Model.affine {α : Type} [Scalar α] {m n : Nat} (f0 : Vector α n) (x : Mat α n m)
    (steps : Vector α m → List α) : Model α m n where
  values p := f0 + x.mulVec p
  derivative := .closedForm fun _ => x
  steps := steps

/-- What a step adds to a quadratic form of the residuals. -/
theorem quadratic_sub_quadratic {m n : Nat} {w : Matrix (Fin n) (Fin n) ℝ} (hw : w.IsSymm)
    (x : Matrix (Fin n) (Fin m) ℝ) (r : Fin n → ℝ) (d : Fin m → ℝ) :
    r ⬝ᵥ w *ᵥ r - (r - x *ᵥ d) ⬝ᵥ w *ᵥ (r - x *ᵥ d) =
      2 * (d ⬝ᵥ (xᵀ *ᵥ w *ᵥ r)) - d ⬝ᵥ (xᵀ * (w * x)) *ᵥ d := by
  have hmove (v : Fin n → ℝ) : d ⬝ᵥ (xᵀ *ᵥ v) = (x *ᵥ d) ⬝ᵥ v := by
    rw [dotProduct_mulVec, vecMul_transpose]
  have hswap : r ⬝ᵥ w *ᵥ (x *ᵥ d) = (x *ᵥ d) ⬝ᵥ w *ᵥ r := by
    rw [dotProduct_mulVec, ← mulVec_transpose, hw.eq, dotProduct_comm]
  have hform : d ⬝ᵥ (xᵀ * (w * x)) *ᵥ d = (x *ᵥ d) ⬝ᵥ w *ᵥ (x *ᵥ d) := by
    rw [← mulVec_mulVec, ← mulVec_mulVec, hmove]
  rw [hmove, hform, mulVec_sub, sub_dotProduct, dotProduct_sub, dotProduct_sub, hswap]
  ring

namespace Problem

variable {m n : Nat} (problem : Problem ℝ m n)

section NormalEquations

variable (pt : Point ℝ m n)

theorem toMatrix_equations :
    (problem.equations pt).matrix.toMatrix =
      (problem.model.jacobian pt.parameters).toMatrixᵀ *
        (problem.covariance.weightMatrix * (problem.model.jacobian pt.parameters).toMatrix) :=
  problem.covariance.toMatrix_normalEquations _ _

variable (hweight : problem.covariance.weightMatrix.PosDef)
include hweight

theorem coords_gradient :
    coords (problem.equations pt).gradient =
      (problem.model.jacobian pt.parameters).toMatrixᵀ *ᵥ problem.covariance.weightMatrix *ᵥ
        (coords problem.data - coords pt.values) := by
  rw [← coords_sub]
  exact DataCovariance.coords_gradient_normalEquations _ _ hweight

/-- What a step leaves of the normal equations is what it leaves of the residuals. -/
theorem mulVec_sub_gradient (step : Fin m → ℝ) :
    (problem.equations pt).matrix.toMatrix *ᵥ step - coords (problem.equations pt).gradient =
      (problem.model.jacobian pt.parameters).toMatrixᵀ *ᵥ problem.covariance.weightMatrix *ᵥ
        ((problem.model.jacobian pt.parameters).toMatrix *ᵥ step -
          (coords problem.data - coords pt.values)) := by
  rw [toMatrix_equations, coords_gradient problem pt hweight, ← mulVec_mulVec, ← mulVec_mulVec,
    ← mulVec_sub, ← mulVec_sub]

theorem posSemidef_equations : (problem.equations pt).matrix.toMatrix.PosSemidef :=
  DataCovariance.posSemidef_normalEquations _ _ hweight

end NormalEquations

/-- An iterate that is what it says: values and equations are those of its point. -/
structure Balanced (it : Iterate ℝ m n) : Prop where
  coherent : problem.Coherent it.point
  equations_eq : it.equations = problem.equations it.point
  damping_pos : 0 < it.damping

/-- The step from an iterate, and how far it brings `χ²` down: by `dᵀ A d + 2 λ dᵀ D d`. -/
structure Descent (it : Iterate ℝ m n) (d : Vector ℝ m) : Prop where
  solves : solveDamped it.equations.matrix it.equations.gradient it.damping = some d
  chi2_sub : it.point.chi2 - (problem.point (it.point.parameters + d)).chi2 =
    dot d (it.equations.matrix.mulVec d) +
      2 * it.damping * dot d ((flooredDiagonal it.equations.matrix).mulVec d)

theorem Descent.trial {problem : Problem ℝ m n} {it : Iterate ℝ m n} {d : Vector ℝ m}
    (h : problem.Descent it d) :
    problem.trial? it = some (problem.point (it.point.parameters + d)) := by
  rw [trial?, h.solves, Option.map_some]

section Affine

variable {problem} {f0 : Vector ℝ n} {x : Mat ℝ n m} {steps : Vector ℝ m → List ℝ}
  (hmodel : problem.model = .affine f0 x steps) (hcov : problem.covariance.IsValid)
include hmodel

theorem values_add (p d : Vector ℝ m) :
    coords (problem.model.values (p + d)) =
      coords (problem.model.values p) + x.toMatrix *ᵥ coords d := by
  rw [hmodel]
  simp only [Model.affine, coords_add, Mat.coords_mulVec, mulVec_add, add_assoc]

include hcov

/-- Along a step `d` the `χ²` of an affine model falls by exactly `2 dᵀ g - dᵀ A d`, with the
gradient and the matrix of the normal equations where the step begins. -/
theorem chi2_sub_chi2 {pt : Point ℝ m n} (hpt : problem.Coherent pt) (d : Vector ℝ m) :
    pt.chi2 - (problem.point (pt.parameters + d)).chi2 =
      2 * (coords d ⬝ᵥ coords (problem.equations pt).gradient) -
        coords d ⬝ᵥ (problem.equations pt).matrix.toMatrix *ᵥ coords d := by
  have hweight := DataCovariance.posDef_weightMatrix hcov
  have hsymm : problem.covariance.weightMatrix.IsSymm := hweight.1
  have hjacobian : problem.model.jacobian pt.parameters = x := by
    rw [hmodel]
    rfl
  have hconstrain : problem.model.constrain (pt.parameters + d) = pt.parameters + d := by
    rw [hmodel]
    rfl
  have hbefore : pt.chi2 = (coords problem.data - coords pt.values) ⬝ᵥ
      problem.covariance.weightMatrix *ᵥ (coords problem.data - coords pt.values) := by
    rw [hpt.chi2_eq, chi2, DataCovariance.chi2_real, coords_sub]
  have hafter : (problem.point (pt.parameters + d)).chi2 =
      (coords problem.data - coords pt.values - x.toMatrix *ᵥ coords d) ⬝ᵥ
        problem.covariance.weightMatrix *ᵥ
          (coords problem.data - coords pt.values - x.toMatrix *ᵥ coords d) := by
    show problem.chi2 (problem.model.values (problem.model.constrain _)) = _
    rw [hconstrain, chi2, DataCovariance.chi2_real, coords_sub, values_add hmodel, ← hpt.values_eq,
      sub_add_eq_sub_sub]
  rw [hbefore, hafter, coords_gradient problem pt hweight, toMatrix_equations, hjacobian]
  exact quadratic_sub_quadratic hsymm _ _ _

/-- From a balanced iterate a step exists, and it is zero just where the gradient vanishes. -/
theorem exists_descent {it : Iterate ℝ m n} (hit : problem.Balanced it) :
    ∃ d, problem.Descent it d ∧ (it.equations.gradient = 0 ↔ d = 0) := by
  have hnormal : it.equations.matrix.toMatrix.PosSemidef := by
    rw [hit.equations_eq]
    exact problem.posSemidef_equations it.point (DataCovariance.posDef_weightMatrix hcov)
  obtain ⟨d, hsolves, hequation⟩ :=
    exists_solveDamped hnormal hit.damping_pos it.equations.gradient
  refine ⟨d, ⟨hsolves, ?_⟩, ?_, ?_⟩
  · rw [chi2_sub_chi2 hmodel hcov hit.coherent, ← hit.equations_eq, ← hequation, toMatrix_damped,
      dot_real, dot_real, Mat.coords_mulVec, Mat.coords_mulVec, add_mulVec, smul_mulVec,
      dotProduct_add, dotProduct_smul, smul_eq_mul]
    ring
  · intro hzero
    by_contra hd
    have hne : coords d ≠ 0 := fun h => hd ((coords_eq_zero_iff d).mp h)
    have hpos := (posDef_damped hnormal hit.damping_pos).dotProduct_mulVec_pos hne
    rw [hequation, hzero, coords_zero, dotProduct_zero] at hpos
    exact lt_irrefl 0 hpos
  · rintro rfl
    rw [← coords_eq_zero_iff, ← hequation, coords_zero, mulVec_zero]

omit hmodel in
/-- The fall of `χ²` is at least its damped part, which is positive for a step that is not zero. -/
theorem Descent.chi2_lt {it : Iterate ℝ m n} {d : Vector ℝ m} (h : problem.Descent it d)
    (hit : problem.Balanced it) (hd : d ≠ 0) :
    (problem.point (it.point.parameters + d)).chi2 < it.point.chi2 := by
  have hne : coords d ≠ 0 := fun hzero => hd ((coords_eq_zero_iff d).mp hzero)
  have hnormal : 0 ≤ dot d (it.equations.matrix.mulVec d) := by
    rw [hit.equations_eq, dot_real, Mat.coords_mulVec]
    have hposSemidef := problem.posSemidef_equations it.point
      (DataCovariance.posDef_weightMatrix hcov)
    exact hposSemidef.dotProduct_mulVec_nonneg (coords d)
  have hdiagonal : 0 < dot d ((flooredDiagonal it.equations.matrix).mulVec d) := by
    rw [dot_real, Mat.coords_mulVec]
    exact (posDef_flooredDiagonal it.equations.matrix).dotProduct_mulVec_pos hne
  have hscaled := mul_pos (mul_pos two_pos hit.damping_pos) hdiagonal
  have hdrop := h.chi2_sub
  linarith

/-- Where the gradient is zero, neither the step nor what it could gain is more than nothing. -/
theorem settled_of_gradient_eq_zero (htol : 0 ≤ problem.settings.stepTolerance)
    {it : Iterate ℝ m n} (hit : problem.Balanced it) (hd : problem.Descent it 0)
    (hgradient : it.equations.gradient = 0) :
    problem.Settled it ∧
      ∀ trial, problem.trial? it = some trial → ¬ Improves it trial := by
  have hstay : it.point.parameters + 0 = it.point.parameters :=
    coords_injective (by rw [coords_add, coords_zero, add_zero])
  have hparameters : (problem.point (it.point.parameters + 0)).parameters =
      it.point.parameters := by
    show problem.model.constrain _ = _
    rw [hstay, hmodel]
    rfl
  have htrial := hd.trial
  have hpoint : (problem.point (it.point.parameters + 0)).chi2 = it.point.chi2 := by
    have hdrop := hd.chi2_sub
    rw [dot_real, dot_real, coords_zero, zero_dotProduct, zero_dotProduct, mul_zero, add_zero]
      at hdrop
    linarith
  constructor
  · refine ⟨_, htrial, ?_, ?_⟩
    · have hnorm : norm ((problem.point (it.point.parameters + 0)).parameters -
          it.point.parameters) = 0 := by
        have hzero : it.point.parameters - it.point.parameters = 0 :=
          coords_injective (by rw [coords_sub, coords_zero, sub_self])
        rw [hparameters, hzero, norm_zero]
      rw [StepNegligible, hnorm]
      exact mul_nonneg htol (add_nonneg (norm_nonneg _) htol)
    · have hpredicted : (Scalar.sum fun k : Fin m =>
          if 0 < it.equations.matrix[k][k] then
            it.equations.gradient[k] * it.equations.gradient[k] / it.equations.matrix[k][k]
          else 0) = 0 := by
        rw [Scalar.sum_real, hgradient]
        exact Finset.sum_eq_zero fun k _ => by simp
      rw [GradientNegligible, hpredicted, hit.coherent.chi2_eq]
      exact add_nonneg (mul_nonneg htol (DataCovariance.chi2_nonneg hcov _))
        (DataCovariance.chi2_nonneg hcov _)
  · intro trial hsome himproves
    rw [htrial] at hsome
    obtain rfl := Option.some.inj hsome
    exact absurd himproves.2 (by rw [hpoint]; exact lt_irrefl _)

end Affine

/-- All that an attempt from a balanced iterate can do: descend, or find itself at the minimum. -/
inductive AffineStep (it : Iterate ℝ m n) (a : Attempt ℝ) (next : Iterate ℝ m n)
    (status : Option FitStatus) : Prop
  | descends {d : Vector ℝ m} (hgradient : it.equations.gradient ≠ 0) (ha : a.accepted = true)
      (hd : problem.Descent it d) (hpoint : next.point = problem.point (it.point.parameters + d))
      (hstatus : status = none ∧ problem.Balanced next ∨ status = some .converged)
  | ends {trialChi2 chi2 : ℝ} (hgradient : it.equations.gradient = 0)
      (ha : a.verdict = .rejected trialChi2 chi2) (hstatus : status = some .converged)

/-- What becomes of an affine fit from `start` with at most `limit` attempts. -/
structure AffineFit (start : Vector ℝ m) (limit : Nat) (fit : Fit ℝ m n) : Prop where
  attempts_eq : fit.attempts = problem.attempts start fit.iterations
  isValid : fit.status.isValid = true
  status_ne : fit.status ≠ .dampingExceeded
  not_singular : ∀ a ∈ fit.attempts, a.verdict ≠ .singular
  /-- The gradient of an iterate is the one at its parameters. -/
  equations_eq : ∀ i < fit.iterations, (problem.iterateAfter start i).equations =
    problem.equations (problem.iterateAfter start i).point
  /-- From everywhere but the minimum the step is taken. -/
  descends : ∀ i < fit.iterations, (problem.iterateAfter start i).equations.gradient ≠ 0 →
    (problem.attemptAfter start i).accepted = true ∧
      ∃ d, problem.Descent (problem.iterateAfter start i) d ∧
        (problem.iterateAfter start (i + 1)).point =
          problem.point ((problem.iterateAfter start i).point.parameters + d)
  unacceptedCount_le : fit.unacceptedCount ≤ 1
  last_of_unaccepted : ∀ i < fit.iterations, (problem.attemptAfter start i).accepted = false →
    i + 1 = fit.iterations ∧ (problem.iterateAfter start i).equations.gradient = 0 ∧
      fit.status = .converged

section Run

variable {problem} {f0 : Vector ℝ n} {x : Mat ℝ n m} {steps : Vector ℝ m → List ℝ}
  (hmodel : problem.model = .affine f0 x steps) (hcov : problem.covariance.IsValid)
  (hboost : 0 < problem.settings.boost) (htol : 0 ≤ problem.settings.stepTolerance)
include hmodel hcov hboost htol

/-- The cases of an attempt at an affine fit. A step that is not zero is accepted, since it lowers
`χ²`; a zero step is rejected, and settles the fit since the gradient vanishes with it. -/
theorem Step.affine {ceiling : ℝ} {it next : Iterate ℝ m n} {a : Attempt ℝ}
    {status : Option FitStatus} (h : problem.Step ceiling it a next status)
    (hit : problem.Balanced it) : problem.AffineStep it a next status := by
  obtain ⟨d, hd, hzero⟩ := exists_descent hmodel hcov hit
  have htrial := hd.trial
  by_cases hgradient : it.equations.gradient = 0
  · obtain rfl := hzero.mp hgradient
    obtain ⟨hsettled, hworse⟩ := settled_of_gradient_eq_zero hmodel hcov htol hit hd hgradient
    cases h with
    | singular hnone => exact absurd hsettled (problem.not_settled_of_singular hnone)
    | accepted hsome himproves => exact absurd himproves (hworse _ hsome)
    | converged hsome himproves => exact absurd himproves (hworse _ hsome)
    | settled => exact .ends hgradient rfl rfl
    | rejected _ _ hmore => exact absurd hsettled hmore
  · have hlt := hd.chi2_lt hcov hit fun h => hgradient (hzero.mpr h)
    have himproves : Improves it (problem.point (it.point.parameters + d)) :=
      ⟨Scalar.isFinite_real _, hlt⟩
    cases h with
    | singular hnone =>
      rw [htrial] at hnone
      cases hnone
    | accepted hsome =>
      have heq := Option.some.inj (hsome.symm.trans htrial)
      have hnext : problem.Balanced ⟨_, problem.equations _, it.damping / problem.settings.boost⟩ :=
        ⟨problem.coherent_trial hsome, rfl, div_pos hit.damping_pos hboost⟩
      exact .descends hgradient rfl hd heq (Or.inl ⟨rfl, hnext⟩)
    | converged hsome =>
      have heq := Option.some.inj (hsome.symm.trans htrial)
      exact .descends hgradient rfl hd heq (Or.inr rfl)
    | settled hsome hfails =>
      obtain rfl := Option.some.inj (hsome.symm.trans htrial)
      exact absurd himproves hfails
    | rejected hsome hfails =>
      obtain rfl := Option.some.inj (hsome.symm.trans htrial)
      exact absurd himproves hfails

/-- By induction over the attempts, as long as the fit has gone on. -/
theorem balanced_iterateAfter (start : Vector ℝ m) (i : Nat)
    (hgoes : ∀ j ≤ i, problem.statusAfter start j = none) :
    problem.Balanced (problem.iterateAfter start i) := by
  induction i with
  | zero => exact ⟨problem.coherent_point start, rfl, firstDamping_pos _⟩
  | succ i ih =>
    have hbefore := ih fun j hj => hgoes j (by omega)
    cases (problem.step_after start i).affine hmodel hcov hboost htol hbefore with
    | descends _ _ _ _ hstatus =>
      rcases hstatus with ⟨-, hnext⟩ | hstatus
      · exact hnext
      · rw [hgoes (i + 1) (Nat.le_refl _)] at hstatus
        cases hstatus
    | ends _ _ hstatus =>
      rw [hgoes (i + 1) (Nat.le_refl _)] at hstatus
      cases hstatus

theorem affineStep_after (start : Vector ℝ m) (limit i : Nat)
    (hi : i < (problem.fit start limit).iterations) :
    problem.Balanced (problem.iterateAfter start i) ∧
      problem.AffineStep (problem.iterateAfter start i) (problem.attemptAfter start i)
        (problem.iterateAfter start (i + 1)) (problem.statusAfter start (i + 1)) := by
  have hgoes : ∀ j ≤ i, problem.statusAfter start j = none := fun j hj =>
    problem.statusAfter_eq_none start limit j (by omega)
  have hbalanced := balanced_iterateAfter hmodel hcov hboost htol start i hgoes
  exact ⟨hbalanced, (problem.step_after start i).affine hmodel hcov hboost htol hbalanced⟩

/-- An attempt that was not accepted was made at the minimum, and is the last. -/
theorem last_of_unaccepted (start : Vector ℝ m) (limit i : Nat)
    (hi : i < (problem.fit start limit).iterations)
    (ha : (problem.attemptAfter start i).accepted = false) :
    i + 1 = (problem.fit start limit).iterations ∧
      (problem.iterateAfter start i).equations.gradient = 0 ∧
      (problem.fit start limit).status = .converged := by
  obtain ⟨-, hstep⟩ := affineStep_after hmodel hcov hboost htol start limit i hi
  cases hstep with
  | descends _ haccepted =>
    rw [ha] at haccepted
    cases haccepted
  | ends hgradient _ hstatus =>
    have hlast : i + 1 = (problem.fit start limit).iterations := by
      by_contra hne
      have hnone := problem.statusAfter_eq_none start limit (i + 1) (by omega)
      rw [hnone] at hstatus
      cases hstatus
    refine ⟨hlast, hgradient, ?_⟩
    obtain ⟨hconverged, -⟩ | ⟨-, -, hnone⟩ | ⟨j, hj, hsome⟩ := problem.status_cases start limit
    · exact hconverged
    · rw [← hlast, hstatus] at hnone
      cases hnone
    · obtain rfl : i = j := by omega
      exact Option.some.inj (hsome.symm.trans hstatus)

/-- The ceiling is never reached: a rejected attempt is the last, and ends the fit as converged. -/
theorem isValid_fit (start : Vector ℝ m) (limit : Nat) :
    (problem.fit start limit).status.isValid = true := by
  obtain ⟨hstatus, -⟩ | ⟨hstatus, -⟩ | ⟨i, hi, hlast⟩ := problem.status_cases start limit
  · rw [hstatus]
    rfl
  · rw [hstatus]
    rfl
  · obtain ⟨-, hstep⟩ := affineStep_after hmodel hcov hboost htol start limit i (by omega)
    have hconverged : (problem.fit start limit).status = .converged := by
      cases hstep with
      | descends _ _ _ _ hstatus =>
        rcases hstatus with ⟨hnone, -⟩ | hstatus
        · rw [hnone] at hlast
          cases hlast
        · exact Option.some.inj (hlast.symm.trans hstatus)
      | ends _ _ hstatus => exact Option.some.inj (hlast.symm.trans hstatus)
    rw [hconverged]
    rfl

theorem unacceptedCount_le (start : Vector ℝ m) (limit : Nat) :
    (problem.fit start limit).unacceptedCount ≤ 1 := by
  rw [Fit.unacceptedCount, attempts_fit]
  cases hk : (problem.fit start limit).iterations with
  | zero => simp [attempts]
  | succ i =>
    -- Whichever attempt is not accepted is the last, so none before it is counted.
    have hbefore : (problem.attempts start i).countP (!·.accepted) = 0 := by
      refine List.countP_eq_zero.mpr fun a hmem => ?_
      obtain ⟨j, hj, rfl⟩ := List.mem_map.mp hmem
      have hji := List.mem_range.mp hj
      intro hunaccepted
      have ha : (problem.attemptAfter start j).accepted = false := by simpa using hunaccepted
      have hlast := last_of_unaccepted hmodel hcov hboost htol start limit j (by omega) ha
      omega
    rw [attempts_succ, List.countP_append, hbefore, List.countP_singleton]
    split <;> omega

theorem affineFit (start : Vector ℝ m) (limit : Nat) :
    problem.AffineFit start limit (problem.fit start limit) where
  attempts_eq := problem.attempts_fit start limit
  isValid := isValid_fit hmodel hcov hboost htol start limit
  status_ne := by
    intro hexceeded
    have hvalid := isValid_fit hmodel hcov hboost htol start limit
    rw [hexceeded] at hvalid
    cases hvalid
  not_singular := by
    intro a hmem hsingular
    rw [attempts_fit] at hmem
    obtain ⟨i, hi, rfl⟩ := List.mem_map.mp hmem
    obtain ⟨-, hstep⟩ := affineStep_after hmodel hcov hboost htol start limit i
      (List.mem_range.mp hi)
    cases hstep with
    | descends _ ha => simp [Attempt.accepted, hsingular, Verdict.acceptedChi2] at ha
    | ends _ ha =>
      rw [hsingular] at ha
      cases ha
  equations_eq := fun i hi =>
    (affineStep_after hmodel hcov hboost htol start limit i hi).1.equations_eq
  descends := by
    intro i hi hgradient
    obtain ⟨-, hstep⟩ := affineStep_after hmodel hcov hboost htol start limit i hi
    cases hstep with
    | descends _ ha hd hpoint => exact ⟨ha, _, hd, hpoint⟩
    | ends hzero => exact absurd hzero hgradient
  unacceptedCount_le := unacceptedCount_le hmodel hcov hboost htol start limit
  last_of_unaccepted := fun i hi ha =>
    last_of_unaccepted hmodel hcov hboost htol start limit i hi ha

end Run

end Problem

namespace Solver

variable {m n : Nat}

noncomputable def ofAffine (f0 : Vector ℝ n) (x : Mat ℝ n m) (steps : Vector ℝ m → List ℝ)
    (settings : Settings ℝ) (covariance : DataCovariance ℝ n) (data : Vector ℝ n)
    (start : Vector ℝ m) : Solver ℝ m n :=
  { ofModel (.affine f0 x steps) settings with
    data := some data, parameters? := some start, covariance }

/-- An affine model with enough data is always fitted. -/
theorem fit_ofAffine (f0 : Vector ℝ n) (x : Mat ℝ n m) (steps : Vector ℝ m → List ℝ)
    (settings : Settings ℝ) (covariance : DataCovariance ℝ n) (data : Vector ℝ n)
    (start : Vector ℝ m) (limit : Nat) (hcov : covariance.IsValid) (hcount : m ≤ n)
    (hboost : 0 < settings.boost) (htol : 0 ≤ settings.stepTolerance) :
    let s := ofAffine f0 x steps settings covariance data start
    ∃ s' fit, s.fit limit = .ok s' ∧ s'.status.isValid = true ∧ s'.lastFit = some fit ∧
      (s.problem data).AffineFit start limit fit := by
  intro s
  let fit := (s.problem data).fit start limit
  have haffine : (s.problem data).AffineFit start limit fit :=
    Problem.affineFit rfl hcov hboost htol start limit
  refine ⟨{ s with parameters? := some fit.last.parameters, lastFit := some fit }, fit,
    if_neg (Nat.not_lt.mpr hcount), haffine.isValid, rfl, haffine⟩

noncomputable def correlated : Mat ℝ 2 2 := .ofFn fun i j => if i = j then 1 + 1 else 1

theorem posDef_correlated : correlated.toMatrix.PosDef := by
  refine Matrix.PosDef.of_dotProduct_mulVec_pos (.ext fun i j => ?_) fun v hv => ?_
  · simp [correlated, eq_comm]
  · have hform : star v ⬝ᵥ correlated.toMatrix *ᵥ v =
        v 0 * v 0 + v 1 * v 1 + (v 0 + v 1) * (v 0 + v 1) := by
      simp [correlated, Matrix.mulVec, dotProduct, Fin.sum_univ_two]
      ring
    rw [hform]
    by_contra hle
    have h0 := mul_self_nonneg (v 0)
    have h1 := mul_self_nonneg (v 1)
    have hsum := mul_self_nonneg (v 0 + v 1)
    have hv0 : v 0 = 0 := mul_self_eq_zero.mp (by linarith)
    have hv1 : v 1 = 0 := mul_self_eq_zero.mp (by linarith)
    exact hv (funext fun i => by fin_cases i <;> assumption)

/-- Two parameters of which the second has no influence. -/
noncomputable def firstOnly : Mat ℝ 2 2 := .ofFn fun i j => if i.val + j.val = 0 then 1 else 0

theorem fit_ofAffine_correlated :
    ∃ covariance : DataCovariance ℝ 2, DataCovariance.ofMatrix correlated = .ok covariance ∧
      let s := ofAffine #v[1, 0] firstOnly (fun _ => []) .standard covariance #v[3, 5] #v[0, 0]
      ∃ s' fit, s.fit 100 = .ok s' ∧ s'.status.isValid = true ∧ s'.lastFit = some fit ∧
        (s.problem #v[3, 5]).AffineFit #v[0, 0] 100 fit := by
  obtain ⟨covariance, hcovariance⟩ := DataCovariance.exists_ofMatrix posDef_correlated
  have hvalid : covariance.IsValid := Or.inr ⟨correlated, posDef_correlated, hcovariance⟩
  have hboost : (0 : ℝ) < Settings.standard.boost := by
    simp only [Settings.standard]
    norm_num
  have htol : (0 : ℝ) ≤ Settings.standard.stepTolerance := by
    simp only [Settings.standard]
    norm_num
  exact ⟨covariance, hcovariance, fit_ofAffine #v[1, 0] firstOnly (fun _ => []) .standard
    covariance #v[3, 5] #v[0, 0] 100 hvalid (by decide) hboost htol⟩

end Solver
end SkyCamera
