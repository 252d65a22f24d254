import Mathlib.Analysis.Calculus.Deriv.Add
import Mathlib.Topology.Algebra.Module.ModuleTopology
import Mathlib.Analysis.Calculus.Deriv.Mul
import SkyCamera.Proofs.AffineFit

/-!
The step of a fit in exact arithmetic. Damped by a positive multiple of its floored diagonal, the
normal matrix of every Jacobian is positive definite, so the step exists; it goes down unless the
gradient is zero, and more damping makes it shorter. So no attempt finds its equations singular.
-/
namespace SkyCamera

open Matrix Linear

variable {m n : Nat}

/-- Of two dampings the larger gives the shorter step, in the norm of the matrix `d` that damps. -/
theorem dotProduct_mulVec_le_of_damping_lt {a d : Matrix (Fin m) (Fin m) ℝ} (ha : a.PosSemidef)
    (hd : d.PosSemidef) {s t : ℝ} (hs : 0 ≤ s) (hst : s < t) {u v b : Fin m → ℝ}
    (hu : (a + s • d) *ᵥ u = b) (hv : (a + t • d) *ᵥ v = b) :
    v ⬝ᵥ d *ᵥ v ≤ u ⬝ᵥ d *ᵥ u := by
  -- The difference of the steps solves the equations of the smaller damping too.
  obtain ⟨w, rfl⟩ : ∃ w, u = v + w := ⟨u - v, (add_sub_cancel v u).symm⟩
  have hdifference : (a + s • d) *ᵥ w = (t - s) • d *ᵥ v := by
    rw [mulVec_add] at hu
    rw [eq_sub_of_add_eq' hu, ← hv, ← sub_mulVec, add_sub_add_left_eq_sub, ← sub_smul, smul_mulVec]
  have hform : 0 ≤ (t - s) * (w ⬝ᵥ d *ᵥ v) := by
    have hnonneg := (ha.add (hd.smul hs)).dotProduct_mulVec_nonneg w
    rw [hdifference, dotProduct_smul, smul_eq_mul] at hnonneg
    exact hnonneg
  have hcross : 0 ≤ w ⬝ᵥ d *ᵥ v := nonneg_of_mul_nonneg_right hform (sub_pos.mpr hst)
  have hrest : 0 ≤ w ⬝ᵥ d *ᵥ w := hd.dotProduct_mulVec_nonneg w
  have hswap : v ⬝ᵥ d *ᵥ w = w ⬝ᵥ d *ᵥ v := by
    have hsymm : dᵀ = d := hd.1
    rw [dotProduct_mulVec, ← mulVec_transpose, hsymm, dotProduct_comm]
  rw [mulVec_add, dotProduct_add, add_dotProduct, add_dotProduct, hswap]
  linarith

namespace DataCovariance

/-- The slope of `χ²` along a curve of residuals. -/
theorem hasDerivAt_chi2 {cov : DataCovariance ℝ n} (hsymm : cov.weightMatrix.IsSymm)
    {r : ℝ → Vector ℝ n} {slope : Fin n → ℝ} {t : ℝ}
    (hentry : ∀ i : Fin n, HasDerivAt (fun u => (r u)[i]) (slope i) t) :
    HasDerivAt (fun u => cov.chi2 (r u)) (2 * (slope ⬝ᵥ cov.weightMatrix *ᵥ coords (r t))) t := by
  have hweighted (i : Fin n) : HasDerivAt (fun u => (cov.weightMatrix *ᵥ coords (r u)) i)
      ((cov.weightMatrix *ᵥ slope) i) t :=
    HasDerivAt.fun_sum (u := Finset.univ) fun k _ => (hentry k).const_mul (cov.weightMatrix i k)
  have hsum := HasDerivAt.fun_sum (u := Finset.univ) fun i _ => (hentry i).fun_mul (hweighted i)
  have hswap : coords (r t) ⬝ᵥ cov.weightMatrix *ᵥ slope =
      slope ⬝ᵥ cov.weightMatrix *ᵥ coords (r t) := by
    rw [dotProduct_mulVec, ← mulVec_transpose, hsymm.eq, dotProduct_comm]
  simp only [chi2_real]
  refine hsum.congr_deriv ?_
  rw [Finset.sum_add_distrib, two_mul]
  exact congrArg (_ + ·) hswap

/-- The step from the normal equations of a Jacobian and residuals, with one damping. -/
structure IsStep (cov : DataCovariance ℝ n) (j : Mat ℝ n m) (r : Vector ℝ n) (damping : ℝ)
    (d : Vector ℝ m) : Prop where
  solved : solveDamped (cov.normalEquations j r).matrix (cov.normalEquations j r).gradient damping =
    some d
  equation : ((cov.normalEquations j r).matrix.toMatrix +
      damping • (flooredDiagonal (cov.normalEquations j r).matrix).toMatrix) *ᵥ coords d =
    coords (cov.normalEquations j r).gradient
  eq_zero_iff : d = 0 ↔ (cov.normalEquations j r).gradient = 0
  gradient_dot_pos : (cov.normalEquations j r).gradient ≠ 0 →
    0 < dot (cov.normalEquations j r).gradient d
  /-- `χ²` falls along every curve of values that leaves with the slope that the Jacobian predicts
  for the step. -/
  descends : (cov.normalEquations j r).gradient ≠ 0 →
    ∀ (data : Vector ℝ n) (values : ℝ → Vector ℝ n), data - values 0 = r →
      (∀ i : Fin n, HasDerivAt (fun t => (values t)[i]) ((j.toMatrix *ᵥ coords d) i) 0) →
      ∃ slope < 0, HasDerivAt (fun t => cov.chi2 (data - values t)) slope 0

/-- What the normal equations of a Jacobian and residuals are, and what their steps are like. -/
structure HasSteps (cov : DataCovariance ℝ n) (j : Mat ℝ n m) (r : Vector ℝ n) : Prop where
  matrix_eq : (cov.normalEquations j r).matrix.toMatrix =
    j.toMatrixᵀ * cov.matrix⁻¹ * j.toMatrix
  gradient_eq : coords (cov.normalEquations j r).gradient =
    (j.toMatrixᵀ * cov.matrix⁻¹) *ᵥ coords r
  isSymm : (cov.normalEquations j r).matrix.toMatrix.IsSymm
  posSemidef : (cov.normalEquations j r).matrix.toMatrix.PosSemidef
  flooredDiagonal_eq : (flooredDiagonal (cov.normalEquations j r).matrix).toMatrix =
    Matrix.diagonal fun i => max ((cov.normalEquations j r).matrix.toMatrix i i) dampingFloor
  exists_step : ∀ damping > 0, ∃ d, cov.IsStep j r damping d
  /-- More damping makes a shorter step, in the norm of the floored diagonal. -/
  shorter : ∀ s > 0, ∀ t > s, ∀ d d', cov.IsStep j r s d → cov.IsStep j r t d' →
    dot d' ((flooredDiagonal (cov.normalEquations j r).matrix).mulVec d') ≤
      dot d ((flooredDiagonal (cov.normalEquations j r).matrix).mulVec d)

section Step

variable {cov : DataCovariance ℝ n} (hweight : cov.weightMatrix.PosDef) (j : Mat ℝ n m)
  (r : Vector ℝ n)
include hweight

/-- Where values change as the Jacobian predicts for `d`, `χ²` falls at twice the rate at which the
gradient agrees with `d`. -/
theorem hasDerivAt_chi2_predicted {d : Vector ℝ m} {data : Vector ℝ n} {values : ℝ → Vector ℝ n}
    (hr : data - values 0 = r)
    (hvalues : ∀ i : Fin n, HasDerivAt (fun t => (values t)[i]) ((j.toMatrix *ᵥ coords d) i) 0) :
    HasDerivAt (fun t => cov.chi2 (data - values t))
      (-(2 * dot (cov.normalEquations j r).gradient d)) 0 := by
  have hcurve (i : Fin n) :
      HasDerivAt (fun t => (data - values t)[i]) ((-(j.toMatrix *ᵥ coords d)) i) 0 := by
    have hentry : (fun t => (data - values t)[i]) = fun t => data[i] - (values t)[i] :=
      funext fun t => congrFun (coords_sub data (values t)) i
    rw [hentry]
    exact (hvalues i).const_sub _
  refine (hasDerivAt_chi2 hweight.1 hcurve).congr_deriv ?_
  rw [hr, neg_dotProduct, mul_neg, dot_real, coords_gradient_normalEquations j r hweight,
    dotProduct_comm _ (coords d), dotProduct_mulVec (coords d), vecMul_transpose]

/-- The damped matrix is positive definite for any damping above zero, so that the step exists, and
it leads downhill by the positive definite form of the inverse. -/
theorem exists_isStep {damping : ℝ} (hdamping : 0 < damping) : ∃ d, cov.IsStep j r damping d := by
  have hnormal := posSemidef_normalEquations j r hweight
  obtain ⟨d, hsolved, hequation⟩ :=
    exists_solveDamped hnormal hdamping (cov.normalEquations j r).gradient
  have hform (hne : coords d ≠ 0) :
      0 < coords d ⬝ᵥ coords (cov.normalEquations j r).gradient := by
    rw [← hequation]
    exact (posDef_damped hnormal hdamping).dotProduct_mulVec_pos hne
  have hzero : d = 0 ↔ (cov.normalEquations j r).gradient = 0 := by
    rw [← coords_eq_zero_iff, ← coords_eq_zero_iff]
    constructor
    · intro hd
      rw [← hequation, hd, mulVec_zero]
    · intro hgradient
      by_contra hne
      have hpos := hform hne
      rw [hgradient, dotProduct_zero] at hpos
      exact lt_irrefl 0 hpos
  have hpos (hgradient : (cov.normalEquations j r).gradient ≠ 0) :
      0 < dot (cov.normalEquations j r).gradient d := by
    rw [dot_real, dotProduct_comm]
    exact hform fun hd => hgradient (hzero.mp ((coords_eq_zero_iff d).mp hd))
  refine ⟨d, hsolved, ?_, hzero, hpos, fun hgradient data values hr hvalues => ?_⟩
  · rw [← hequation, toMatrix_damped]
  · exact ⟨_, neg_lt_zero.mpr (mul_pos two_pos (hpos hgradient)),
      hasDerivAt_chi2_predicted hweight j r hr hvalues⟩

end Step

/-- A covariance that passed its check weighs positively, and all that is said of steps follows. -/
theorem hasSteps {cov : DataCovariance ℝ n} (hcov : cov.IsMade) (j : Mat ℝ n m)
    (r : Vector ℝ n) : cov.HasSteps j r := by
  obtain ⟨hmatrix, hinverse⟩ := weightMatrix_of_isMade hcov
  have hweight : cov.weightMatrix.PosDef := by
    rw [hinverse]
    exact hmatrix.inv
  have hnormal := posSemidef_normalEquations j r hweight
  exact {
    matrix_eq := by rw [toMatrix_normalEquations, hinverse, Matrix.mul_assoc]
    gradient_eq := by rw [coords_gradient_normalEquations j r hweight, hinverse, mulVec_mulVec]
    isSymm := hnormal.1
    posSemidef := hnormal
    flooredDiagonal_eq := by
      rw [toMatrix_flooredDiagonal]
      exact congrArg Matrix.diagonal (funext fun i => Scalar.atLeast_real _ _)
    exists_step := fun damping hdamping => exists_isStep hweight j r hdamping
    shorter := by
      intro s hs t ht d d' hd hd'
      rw [dot_real, dot_real, Mat.coords_mulVec, Mat.coords_mulVec]
      exact dotProduct_mulVec_le_of_damping_lt hnormal (posDef_flooredDiagonal _).posSemidef hs.le
        ht hd.equation hd'.equation }

end DataCovariance

namespace Problem

variable (problem : Problem ℝ m n)

theorem equations_eq_normalEquations (pt : Point ℝ m n) :
    problem.equations pt = problem.covariance.normalEquations
      (problem.model.jacobian pt.parameters) (problem.data - pt.values) := rfl

/-- The equations of every iterate are those of a point, though not always of its own. -/
theorem exists_equations_eq (start : Vector ℝ m) (i : Nat) :
    ∃ pt, (problem.iterateAfter start i).equations = problem.equations pt := by
  induction i with
  | zero => exact ⟨problem.point start, rfl⟩
  | succ i ih =>
    obtain hkept | hnew := (problem.step_after start i).equations_eq_or
    · rw [hkept]
      exact ih
    · exact ⟨_, hnew⟩

/-- What the steps of a problem are like, of every Jacobian and at every attempt of a fit. -/
structure StepsDescend (start : Vector ℝ m) (limit : Nat) : Prop where
  hasSteps : ∀ j r, problem.covariance.HasSteps (m := m) j r
  equations_eq : ∀ pt, problem.equations pt = problem.covariance.normalEquations
    (problem.model.jacobian pt.parameters) (problem.data - pt.values)
  not_singular : ∀ a ∈ (problem.fit start limit).attempts, 0 < a.damping → a.verdict ≠ .singular
  damping_pos : 0 < problem.settings.boost →
    ∀ a ∈ (problem.fit start limit).attempts, 0 < a.damping

section Run

variable (start : Vector ℝ m) (i : Nat)

/-- With a positive damping no attempt finds its matrix singular. -/
theorem verdict_ne_singular (hcov : problem.covariance.IsMade)
    (hdamping : 0 < (problem.attemptAfter start i).damping) :
    (problem.attemptAfter start i).verdict ≠ .singular := by
  obtain ⟨pt, hequations⟩ := problem.exists_equations_eq start i
  have hstep := problem.step_after start i
  rw [hstep.damping_eq] at hdamping
  have hsteps := DataCovariance.hasSteps hcov (problem.model.jacobian pt.parameters)
    (problem.data - pt.values)
  obtain ⟨d, hd⟩ := hsteps.exists_step _ hdamping
  have hsolved := hd.solved
  rw [← equations_eq_normalEquations, ← hequations] at hsolved
  intro hsingular
  have hnone := hstep.trial?_eq_none hsingular
  rw [trial?, hsolved] at hnone
  cases hnone

theorem damping_attemptAfter_pos (hboost : 0 < problem.settings.boost) :
    0 < (problem.attemptAfter start i).damping := by
  rw [(problem.step_after start i).damping_eq, problem.damping_iterateAfter hboost]
  exact mul_pos (firstDamping_pos _) (zpow_pos hboost _)

end Run

/-- Whatever the Jacobian, a damped step exists and goes down, and so no attempt of a fit is
singular. -/
theorem stepsDescend (hcov : problem.covariance.IsMade) (start : Vector ℝ m) (limit : Nat) :
    problem.StepsDescend start limit where
  hasSteps := DataCovariance.hasSteps hcov
  equations_eq := problem.equations_eq_normalEquations
  not_singular := by
    rw [attempts_fit]
    intro a hmem hdamping
    obtain ⟨i, -, rfl⟩ := List.mem_map.mp hmem
    exact problem.verdict_ne_singular start i hcov hdamping
  damping_pos := by
    rw [attempts_fit]
    intro hboost a hmem
    obtain ⟨i, -, rfl⟩ := List.mem_map.mp hmem
    exact problem.damping_attemptAfter_pos start i hboost

theorem stepsDescend_firstOnly :
    ∃ covariance : DataCovariance ℝ 2,
      DataCovariance.ofMatrix Solver.correlated = .ok covariance ∧
      let model := Model.affine #v[1, 0] Solver.firstOnly fun _ => []
      StepsDescend ⟨model, #v[3, 5], covariance, .standard⟩ #v[0, 0] 100 := by
  obtain ⟨covariance, hcovariance⟩ := DataCovariance.exists_ofMatrix Solver.posDef_correlated
  exact ⟨covariance, hcovariance, stepsDescend _ (Or.inr ⟨_, hcovariance⟩) _ _⟩

end Problem

end SkyCamera
