import SkyCamera.Proofs.CalibrationCourse
import SkyCamera.Proofs.Weights

/-!
A fit does not depend on the order of its data, in exact arithmetic. The values of the model, the
rows of the Jacobian and the weights move with the data; the normal equations and every `χ²` are
sums over all of them and stay, and so does all that a fit decides.
-/
namespace SkyCamera

open Matrix Linear

variable {m n n' : Nat}

section Reorder

variable {β γ : Type} (e : Fin n' ≃ Fin n)

def Linear.reorder (v : Vector β n) : Vector β n' := .ofFn fun i => v[e i]

theorem getElem_reorder (v : Vector β n) (i : Fin n') : (reorder e v)[i] = v[e i] := by
  simp [reorder]

theorem map_reorder (g : β → γ) (v : Vector β n) :
    (reorder e v).map g = reorder e (v.map g) := by
  ext i hi
  simp [reorder]

theorem sub_reorder (u v : Vector ℝ n) : reorder e u - reorder e v = reorder e (u - v) := by
  ext i hi
  simp [reorder]

theorem coords_reorder (v : Vector ℝ n) : coords (reorder e v) = coords v ∘ e := by
  funext i
  exact getElem_reorder e v i

theorem Mat.toMatrix_reorder (a : Mat ℝ n m) :
    toMatrix (reorder e a) = a.toMatrix.submatrix e id := by
  ext i j
  exact congrArg (fun row : Vector ℝ m => row[j]) (getElem_reorder e a i)

theorem dot_reorder (u v : Vector ℝ n) : dot (reorder e u) (reorder e v) = dot u v := by
  rw [dot_real, dot_real, coords_reorder, coords_reorder, comp_equiv_dotProduct_comp_equiv]

theorem rmsLength_reorder (v : Vector ℝ n) : rmsLength (reorder e v) = rmsLength v := by
  have hcount : n' = n := by simpa using Fintype.card_congr e
  rw [rmsLength, rmsLength, dot_reorder, hcount]

end Reorder

namespace Model

variable {α : Type} [Scalar α] (e : Fin n' ≃ Fin n)

theorem transpose_reorder {β : Type} (columns : Fin m → Vector β n) :
    Mat.transpose (Vector.ofFn fun j => reorder e (columns j)) =
      reorder e (Mat.transpose (Vector.ofFn columns)) := by
  ext i hi j hj
  simp [reorder]

theorem differenceColumns_reorder (steps : List α) (column : Fin m → α → Vector α n) :
    differenceColumns steps (fun j h => reorder e (column j h)) =
      reorder e (differenceColumns steps column) := by
  refine Eq.trans ?_ (transpose_reorder e _)
  refine congrArg Mat.transpose (congrArg Vector.ofFn (funext fun j => ?_))
  cases steps[j.val]? with
  | none =>
    ext i hi
    simp [reorder]
  | some h => rfl

theorem fivePoint_reorder (h : α) (far near near' far' : Vector α n) :
    fivePoint h (reorder e far) (reorder e near) (reorder e near') (reorder e far') =
      reorder e (fivePoint h far near near' far') := by
  ext i hi
  simp [fivePoint, reorder]

/-- The Jacobian of a model whose values are reordered, in every mode. -/
theorem jacobian_reorder {values : Vector α m → Vector α n} {values' : Vector α m → Vector α n'}
    {jacobian : Vector α m → Mat α n m} {jacobian' : Vector α m → Mat α n' m}
    (hvalues : ∀ p, values' p = reorder e (values p))
    (hjacobian : ∀ p, jacobian' p = reorder e (jacobian p)) (mode : JacobianMode)
    (steps : Vector α m → List α) (constrain : Vector α m → Vector α m) (p : Vector α m) :
    Model.jacobian ⟨values', mode.derivative jacobian', steps, constrain⟩ p =
      reorder e (Model.jacobian ⟨values, mode.derivative jacobian, steps, constrain⟩ p) := by
  cases mode with
  | analytic => exact hjacobian p
  | forwardDifference =>
    refine Eq.trans ?_ (differenceColumns_reorder e (steps p) _)
    refine congrArg (differenceColumns (steps p)) (funext fun j => funext fun h => ?_)
    simp only [valuesBeside, hvalues]
    ext i hi
    simp [reorder]
  | centralDifference =>
    refine Eq.trans ?_ (differenceColumns_reorder e (steps p) _)
    refine congrArg (differenceColumns (steps p)) (funext fun j => funext fun h => ?_)
    rw [← fivePoint_reorder]
    simp only [valuesBeside, hvalues]

end Model

section Reordered

variable (e : Fin n' ≃ Fin n)

def Point.reorder (pt : Point ℝ m n) : Point ℝ m n' :=
  { pt with values := Linear.reorder e pt.values }

def Iterate.reorder (it : Iterate ℝ m n) : Iterate ℝ m n' := { it with point := it.point.reorder e }

def Fit.reorder (fit : Fit ℝ m n) : Fit ℝ m n' := { fit with last := fit.last.reorder e }

def DataCovariance.Reorders (cov : DataCovariance ℝ n) (cov' : DataCovariance ℝ n') : Prop :=
  cov'.weightMatrix = cov.weightMatrix.submatrix e e

/-- The second problem has the data of the first in another order. -/
structure Problem.Reorders (problem : Problem ℝ m n) (problem' : Problem ℝ m n') : Prop where
  values_eq : ∀ p, problem'.model.values p = Linear.reorder e (problem.model.values p)
  jacobian_eq : ∀ p, problem'.model.jacobian p = Linear.reorder e (problem.model.jacobian p)
  constrain_eq : problem'.model.constrain = problem.model.constrain
  data_eq : problem'.data = Linear.reorder e problem.data
  covariance : problem.covariance.Reorders e problem'.covariance
  settings_eq : problem'.settings = problem.settings

end Reordered

namespace DataCovariance

variable {e : Fin n' ≃ Fin n} {cov : DataCovariance ℝ n} {cov' : DataCovariance ℝ n'}
  (h : cov.Reorders e cov')
include h

theorem chi2_reorder (r : Vector ℝ n) : cov'.chi2 (reorder e r) = cov.chi2 r := by
  rw [chi2_real, chi2_real, h, coords_reorder, submatrix_mulVec_equiv, Function.comp_assoc,
    Equiv.self_comp_symm, Function.comp_id, comp_equiv_dotProduct_comp_equiv]

theorem weightRows_reorder (a : Mat ℝ n m) :
    cov'.weightRows (reorder e a) = reorder e (cov.weightRows a) := by
  apply Mat.toMatrix_injective
  rw [toMatrix_weightRows, Mat.toMatrix_reorder, Mat.toMatrix_reorder, toMatrix_weightRows, h,
    submatrix_mul_equiv]

end DataCovariance

/-- A product over the data does not see their order. -/
theorem transpose_mul_reorder (e : Fin n' ≃ Fin n) (a b : Mat ℝ n m) :
    (Mat.transpose (reorder e a)).mul (reorder e b) = a.transpose.mul b := by
  apply Mat.toMatrix_injective
  rw [Mat.toMatrix_mul, Mat.toMatrix_mul, Mat.toMatrix_transpose, Mat.toMatrix_transpose,
    Mat.toMatrix_reorder, Mat.toMatrix_reorder, transpose_submatrix, submatrix_mul_equiv,
    submatrix_id_id]

theorem transpose_mulVec_reorder (e : Fin n' ≃ Fin n) (a : Mat ℝ n m) (v : Vector ℝ n) :
    (Mat.transpose (reorder e a)).mulVec (reorder e v) = a.transpose.mulVec v := by
  apply coords_injective
  rw [Mat.coords_mulVec, Mat.coords_mulVec, Mat.toMatrix_transpose, Mat.toMatrix_transpose,
    Mat.toMatrix_reorder, coords_reorder, transpose_submatrix, submatrix_mulVec_equiv,
    Function.comp_assoc, Equiv.self_comp_symm, Function.comp_id, Function.comp_id]

namespace Problem

variable {problem : Problem ℝ m n} {problem' : Problem ℝ m n'} {e : Fin n' ≃ Fin n}
  (h : problem.Reorders e problem')
include h

theorem point_reorder (p : Vector ℝ m) : problem'.point p = (problem.point p).reorder e := by
  unfold point Point.reorder chi2
  simp only [h.constrain_eq, h.values_eq, h.data_eq, sub_reorder,
    DataCovariance.chi2_reorder h.covariance]

theorem equations_reorder (pt : Point ℝ m n) :
    problem'.equations (pt.reorder e) = problem.equations pt := by
  unfold equations Point.reorder
  simp only [h.jacobian_eq, h.data_eq, sub_reorder, DataCovariance.weightRows_reorder h.covariance,
    transpose_mul_reorder, transpose_mulVec_reorder]

theorem gradientNegligible_reorder (equations : NormalEquations ℝ m) (chi2 : ℝ) :
    problem'.GradientNegligible equations chi2 ↔ problem.GradientNegligible equations chi2 := by
  unfold GradientNegligible
  simp only [h.settings_eq, h.data_eq, map_reorder, DataCovariance.chi2_reorder h.covariance]

/-- An attempt does the same with the data in either order. -/
theorem attempt_reorder (ceiling : ℝ) (it : Iterate ℝ m n) :
    problem'.attempt ceiling (it.reorder e) =
      ((problem.attempt ceiling it).1, (problem.attempt ceiling it).2.1.reorder e,
        (problem.attempt ceiling it).2.2) := by
  have hstep (p q : Vector ℝ m) : problem'.StepNegligible p q ↔ problem.StepNegligible p q := by
    unfold StepNegligible
    rw [h.settings_eq]
  unfold attempt
  simp only [h.settings_eq]
  cases hsolve : solveDamped it.equations.matrix it.equations.gradient it.damping with
  | none =>
    simp only [Iterate.reorder, hsolve]
  | some step =>
    have htrial : problem'.point (it.point.parameters + step) =
        (problem.point (it.point.parameters + step)).reorder e := point_reorder h _
    simp only [Iterate.reorder, Point.reorder] at htrial ⊢
    simp only [hsolve, htrial]
    generalize problem.point (it.point.parameters + step) = trial
    have hequations := equations_reorder h trial
    simp only [Point.reorder] at hequations
    simp only [hstep, gradientNegligible_reorder h, hequations]
    split
    · split
      · rfl
      · rfl
    · rfl

/-- Induction over the attempts: the parameters and every sum over the data stay. -/
theorem iterate_reorder (ceiling : ℝ) (limit : Nat) (it : Iterate ℝ m n)
    (tried : List (Attempt ℝ)) :
    problem'.iterate ceiling limit (it.reorder e) tried =
      ((problem.iterate ceiling limit it tried).1,
        (problem.iterate ceiling limit it tried).2.1.reorder e,
        (problem.iterate ceiling limit it tried).2.2) := by
  -- The second iterate is the first with its values reordered, and stays so.
  induction limit generalizing it tried with
  | zero => rfl
  | succ limit ih =>
    rw [iterate, iterate, attempt_reorder h]
    generalize problem.attempt ceiling it = result
    obtain ⟨a, next, status⟩ := result
    cases status with
    | some status => rfl
    | none => exact ih next (a :: tried)

theorem fit_reorder (start : Vector ℝ m) (limit : Nat) :
    problem'.fit start limit = (problem.fit start limit).reorder e := by
  unfold fit
  simp only [point_reorder h, equations_reorder h, h.settings_eq]
  generalize problem.point start = point
  generalize problem.equations point = equations
  have hiterate := iterate_reorder h
    (problem.settings.maxDamping * firstDamping equations.matrix) limit
    ⟨point, equations, firstDamping equations.matrix⟩ []
  have hzero : Scalar.IsZero (point.reorder e).chi2 ↔ Scalar.IsZero point.chi2 := Iff.rfl
  simp only [Iterate.reorder] at hiterate
  simp only [hiterate, hzero]
  split
  · rfl
  · rfl

end Problem

/-- The solver after a fit of the same data in another order, with the values in that order. -/
structure Solver.Reorders (e : Fin n' ≃ Fin n) (s : Solver ℝ m n) (s' : Solver ℝ m n') : Prop where
  values_eq : ∀ p, s'.model.values p = reorder e (s.model.values p)
  jacobian_eq : ∀ p, s'.model.jacobian p = reorder e (s.model.jacobian p)
  constrain_eq : s'.model.constrain = s.model.constrain
  settings_eq : s'.settings = s.settings
  data_eq : s'.data = s.data.map (reorder e)
  parameters_eq : s'.parameters? = s.parameters?
  covariance : s.covariance.Reorders e s'.covariance
  lastFit_eq : s'.lastFit = s.lastFit.map (·.reorder e)

namespace Solver.Reorders

variable {e : Fin n' ≃ Fin n} {s : Solver ℝ m n} {s' : Solver ℝ m n'} (h : s.Reorders e s')
include h

theorem status_eq : s'.status = s.status := by
  rw [status, status, h.lastFit_eq, Option.map_map]
  rfl

theorem iterations_eq : s'.iterations = s.iterations := by
  rw [iterations, iterations, h.lastFit_eq, Option.map_map]
  rfl

theorem chi2_eq : s'.chi2 = s.chi2 := by
  rw [chi2, chi2, h.lastFit_eq, Option.map_map]
  rfl

theorem parameters_eq_parameters : s'.parameters = s.parameters := by
  rw [parameters, parameters, h.parameters_eq]

omit h in
theorem dof_eq (e : Fin n' ≃ Fin n) (s : Solver ℝ m n) (s' : Solver ℝ m n') : s'.dof = s.dof := by
  have hcount : n' = n := by simpa using Fintype.card_congr e
  rw [dof, dof, hcount]

theorem reducedChi2_eq : s'.reducedChi2 = s.reducedChi2 := by
  rw [reducedChi2, reducedChi2, h.chi2_eq, dof_eq e s s']

theorem values_eq_values : s'.values = reorder e s.values := by
  rw [values, values, h.lastFit_eq]
  cases s.lastFit with
  | none =>
    ext i hi
    simp [reorder]
  | some fit => rfl

theorem residuals_eq : s'.residuals = reorder e s.residuals := by
  rw [residuals, residuals, h.data_eq, h.values_eq_values]
  cases s.data with
  | none =>
    ext i hi
    simp [reorder]
  | some data => exact sub_reorder e data s.values

/-- The normal matrix is a sum over the data, so it has one pseudo-inverse. -/
theorem parameterCovariance_eq [HasPseudoInverse ℝ] :
    s'.parameterCovariance = s.parameterCovariance := by
  unfold parameterCovariance
  simp only [h.status_eq, h.reducedChi2_eq, h.parameters_eq, h.jacobian_eq,
    DataCovariance.weightRows_reorder h.covariance, transpose_mul_reorder]

theorem fit (limit : Nat) : EndAlike (Solver.Reorders e) (s.fit limit) (s'.fit limit) := by
  obtain rfl : n' = n := by simpa using Fintype.card_congr e
  unfold Solver.fit
  rw [h.data_eq, h.parameters_eq]
  split
  · exact .error _
  · cases s.data with
    | none => exact .error _
    | some data =>
      cases s.parameters? with
      | none => exact .error _
      | some start =>
        have hproblem : (s.problem data).Reorders e (s'.problem (reorder e data)) :=
          ⟨h.values_eq, h.jacobian_eq, h.constrain_eq, rfl, h.covariance, h.settings_eq⟩
        have hfit := Problem.fit_reorder hproblem start limit
        refine .ok ⟨h.values_eq, h.jacobian_eq, h.constrain_eq, h.settings_eq, rfl, ?_,
          h.covariance, congrArg some hfit⟩
        exact congrArg (fun fit => some fit.last.parameters) hfit

/-- A fit and its covariance end alike with the data in either order. -/
theorem fitWithCovariance [HasPseudoInverse ℝ] (limit : Nat) :
    EndAlike (fun r r' => r.1.Reorders e r'.1 ∧ r'.2 = r.2) (s.fitWithCovariance limit)
      (s'.fitWithCovariance limit) := by
  refine (h.fit limit).bind fun last last' _ _ hlast => ?_
  rw [hlast.parameterCovariance_eq]
  split
  · exact .ok ⟨hlast, rfl⟩
  · exact .ok ⟨hlast, rfl⟩
  · exact .error _

end Solver.Reorders
end SkyCamera
