import Mathlib.LinearAlgebra.Matrix.Rank
import SkyCamera.Proofs.AffineFit
import SkyCamera.Proofs.DifferenceQuotients

/-!
Where an affine model meets its data best. With a matrix of full column rank the normal matrix is
positive definite, so `χ²` has one minimum, and it is an affine function of the data. The Jacobian
of an affine model is its matrix in every mode of computing it.
-/
namespace SkyCamera

open Matrix Linear

variable {m n : Nat}

theorem Linear.coords_set (v : Vector ℝ n) (j : Fin n) (t : ℝ) :
    coords (v.set j t j.isLt) = coords v + Pi.single j (t - v[j]) := by
  funext k
  by_cases hk : k = j
  · subst hk
    simp [coords]
  · have hne : j.val ≠ k.val := fun he => hk (Fin.ext he.symm)
    simp [coords, hk, Vector.getElem_set_ne, hne]

namespace Model

/-- The values are `f0 + X p`, and the parameters are not constrained. -/
structure IsAffine (model : Model ℝ m n) (f0 : Vector ℝ n) (x : Mat ℝ n m) : Prop where
  values_eq : ∀ p, model.values p = f0 + x.mulVec p
  constrain_eq : model.constrain = id

/-- A derivative at `p` that is `x` where it is given, and that has a step to take for each
parameter where it is found by differences. -/
def Derives (model : Model ℝ m n) (p : Vector ℝ m) (x : Mat ℝ n m) : Prop :=
  match model.derivative with
  | .closedForm f => f p = x
  | .forwardDifference | .centralDifference =>
    (model.steps p).length = m ∧ ∀ h ∈ model.steps p, h ≠ 0

namespace IsAffine

variable {model : Model ℝ m n} {f0 : Vector ℝ n} {x : Mat ℝ n m} (h : model.IsAffine f0 x)
include h

theorem coords_values (p : Vector ℝ m) :
    coords (model.values p) = coords f0 + x.toMatrix *ᵥ coords p := by
  rw [h.values_eq, coords_add, Mat.coords_mulVec]

open Polynomial in
/-- In each parameter every value is a polynomial of degree one, whose slope is the entry of `x`. -/
theorem valuesAlong_eq (p : Vector ℝ m) (i : Fin n) (j : Fin m) (t : ℝ) :
    (model.valuesAlong p j t)[i] =
      (C (x.toMatrix i j) * X + C ((model.values p)[i] - x.toMatrix i j * p[j])).eval t := by
  have hvalues : coords (model.valuesAlong p j t) i =
      coords (model.values p) i + x.toMatrix i j * (t - p[j]) := by
    rw [valuesAlong, h.constrain_eq, id_eq, h.coords_values, h.coords_values, coords_set,
      mulVec_add, ← add_assoc, Pi.add_apply, mulVec_single]
    simp
  refine hvalues.trans ?_
  simp only [eval_add, eval_mul, eval_C, eval_X]
  show (model.values p)[i] + _ = _
  ring

/-- The three ways to the Jacobian agree on an affine model: the derivatives that it supplies, and
both difference quotients, which are exact on polynomials of degree one. -/
theorem jacobian_eq {p : Vector ℝ m} (hderives : model.Derives p x) : model.jacobian p = x := by
  have hstep (hlength : (model.steps p).length = m) (j : Fin m) :
      ∃ t ∈ model.steps p, (model.steps p)[j.val]? = some t :=
    ⟨_, List.getElem_mem (hlength.symm ▸ j.isLt), List.getElem?_eq_getElem _⟩
  have hslope (i : Fin n) (j : Fin m) (c : ℝ) :
      (Polynomial.derivative (.C (x.toMatrix i j) * .X + .C c)).eval p[j] = x[i][j] := by
    simp [Mat.toMatrix]
  unfold Derives at hderives
  unfold jacobian
  cases hmode : model.derivative with
  | closedForm f =>
    rw [hmode] at hderives
    exact hderives
  | forwardDifference =>
    rw [hmode] at hderives
    obtain ⟨hlength, hne⟩ := hderives
    refine Mat.toMatrix_injective (Matrix.ext fun i j => ?_)
    obtain ⟨t, ht, hj⟩ := hstep hlength j
    exact (forwardDifference_eq_derivative hj (hne t ht) (h.valuesAlong_eq p i j) h.constrain_eq
      Polynomial.natDegree_linear_le).trans (hslope i j _)
  | centralDifference =>
    rw [hmode] at hderives
    obtain ⟨hlength, hne⟩ := hderives
    refine Mat.toMatrix_injective (Matrix.ext fun i j => ?_)
    obtain ⟨t, ht, hj⟩ := hstep hlength j
    exact (centralDifference_eq_derivative hj (hne t ht) (h.valuesAlong_eq p i j)
      (Polynomial.natDegree_linear_le.trans (by omega))).trans (hslope i j _)

end IsAffine

end Model

/-- The matrix that takes residuals to the parameters that bring them down most. -/
noncomputable def DataCovariance.estimator (cov : DataCovariance ℝ n) (x : Mat ℝ n m) :
    Matrix (Fin m) (Fin n) ℝ :=
  (x.toMatrixᵀ * (cov.weightMatrix * x.toMatrix))⁻¹ * (x.toMatrixᵀ * cov.weightMatrix)

theorem mulVec_injective_of_rank {x : Matrix (Fin n) (Fin m) ℝ} (hrank : x.rank = m) :
    Function.Injective x.mulVec := by
  rw [mulVec_injective_iff, linearIndependent_iff_card_eq_finrank_span, Set.finrank,
    ← rank_eq_finrank_span_cols, hrank, Fintype.card_fin]

theorem DataCovariance.posDef_normal {cov : DataCovariance ℝ n} (hcov : cov.IsValid)
    {x : Matrix (Fin n) (Fin m) ℝ} (hrank : x.rank = m) :
    (xᵀ * (cov.weightMatrix * x)).PosDef := by
  have hnormal := (posDef_weightMatrix hcov).conjTranspose_mul_mul_same
    (mulVec_injective_of_rank hrank)
  rwa [conjTranspose_eq_transpose_of_trivial, Matrix.mul_assoc] at hnormal

/-- The estimator solves the normal equations in every datum. -/
theorem DataCovariance.normal_mul_estimator {cov : DataCovariance ℝ n} (hcov : cov.IsValid)
    {x : Mat ℝ n m} (hrank : x.toMatrix.rank = m) :
    x.toMatrixᵀ * (cov.weightMatrix * x.toMatrix) * cov.estimator x =
      x.toMatrixᵀ * cov.weightMatrix := by
  have hunit := (posDef_normal hcov hrank).isUnit
  rw [estimator, ← Matrix.mul_assoc, mul_nonsing_inv _ ((isUnit_iff_isUnit_det _).mp hunit),
    Matrix.one_mul]

namespace Problem

def IsMinimum (problem : Problem ℝ m n) (p : Vector ℝ m) : Prop :=
  ∀ q, problem.chi2 (problem.model.values p) ≤ problem.chi2 (problem.model.values q)

variable {problem : Problem ℝ m n} {f0 : Vector ℝ n} {x : Mat ℝ n m}
  (hmodel : problem.model.IsAffine f0 x) (hcov : problem.covariance.IsValid)
  (hrank : x.toMatrix.rank = m)

noncomputable def minimum (problem : Problem ℝ m n) (f0 : Vector ℝ n) (x : Mat ℝ n m) :
    Fin m → ℝ :=
  problem.covariance.estimator x *ᵥ (coords problem.data - coords f0)

noncomputable def leastChi2 (problem : Problem ℝ m n) (f0 : Vector ℝ n) (x : Mat ℝ n m) : ℝ :=
  let r := coords problem.data - coords f0 - x.toMatrix *ᵥ problem.minimum f0 x
  r ⬝ᵥ problem.covariance.weightMatrix *ᵥ r

include hcov in
theorem leastChi2_nonneg : 0 ≤ problem.leastChi2 f0 x :=
  (DataCovariance.posDef_weightMatrix hcov).posSemidef.dotProduct_mulVec_nonneg _

include hcov hrank in
/-- At the minimum the normal equations hold. -/
theorem normal_minimum :
    (x.toMatrixᵀ * (problem.covariance.weightMatrix * x.toMatrix)) *ᵥ problem.minimum f0 x =
      x.toMatrixᵀ *ᵥ problem.covariance.weightMatrix *ᵥ (coords problem.data - coords f0) := by
  rw [minimum, mulVec_mulVec, DataCovariance.normal_mul_estimator hcov hrank, ← mulVec_mulVec]

include hmodel hcov hrank in
/-- `χ²` is a paraboloid above its minimum. -/
theorem chi2_values (p : Vector ℝ m) :
    problem.chi2 (problem.model.values p) = problem.leastChi2 f0 x +
      (coords p - problem.minimum f0 x) ⬝ᵥ
        (x.toMatrixᵀ * (problem.covariance.weightMatrix * x.toMatrix)) *ᵥ
          (coords p - problem.minimum f0 x) := by
  have hsymm : problem.covariance.weightMatrix.IsSymm :=
    (DataCovariance.posDef_weightMatrix hcov).1
  let b := problem.minimum f0 x
  let r := coords problem.data - coords f0 - x.toMatrix *ᵥ b
  have hgradient : x.toMatrixᵀ *ᵥ problem.covariance.weightMatrix *ᵥ r = 0 := by
    rw [mulVec_sub, mulVec_sub, ← normal_minimum hcov hrank, mulVec_mulVec, mulVec_mulVec,
      Matrix.mul_assoc, sub_self]
  have hresidual : coords problem.data - coords (problem.model.values p) =
      r - x.toMatrix *ᵥ (coords p - b) := by
    rw [hmodel.coords_values, mulVec_sub]
    simp only [r]
    abel
  have hdrop := quadratic_sub_quadratic hsymm x.toMatrix r (coords p - b)
  rw [hgradient, dotProduct_zero, mul_zero, zero_sub, ← hresidual] at hdrop
  rw [chi2, DataCovariance.chi2_real, coords_sub, leastChi2]
  linarith

include hmodel hcov hrank in
theorem chi2_values_pos {p : Vector ℝ m} (hp : coords p ≠ problem.minimum f0 x) :
    0 < problem.chi2 (problem.model.values p) := by
  have hpos := (DataCovariance.posDef_normal hcov hrank).dotProduct_mulVec_pos
    (sub_ne_zero.mpr hp)
  rw [star_trivial] at hpos
  rw [chi2_values hmodel hcov hrank]
  exact add_pos_of_nonneg_of_pos (leastChi2_nonneg hcov) hpos

include hmodel hcov hrank in
/-- On the way to the minimum `χ²` falls. -/
theorem chi2_values_lt_of_smul {p q : Vector ℝ m} {c : ℝ} (hc : c ^ 2 < 1)
    (hp : coords p ≠ problem.minimum f0 x)
    (hq : coords q - problem.minimum f0 x = c • (coords p - problem.minimum f0 x)) :
    problem.chi2 (problem.model.values q) < problem.chi2 (problem.model.values p) := by
  have hpos := (DataCovariance.posDef_normal hcov hrank).dotProduct_mulVec_pos
    (sub_ne_zero.mpr hp)
  rw [star_trivial] at hpos
  rw [chi2_values hmodel hcov hrank, chi2_values hmodel hcov hrank, hq, mulVec_smul,
    smul_dotProduct, dotProduct_smul, smul_eq_mul, smul_eq_mul, ← mul_assoc, ← sq]
  exact (add_lt_add_iff_left _).mpr (mul_lt_of_lt_one_left hpos hc)

variable (problem) in
include hmodel hcov hrank in
/-- There is one minimum, an affine function of the data. -/
theorem isMinimum_iff (p : Vector ℝ m) :
    problem.IsMinimum p ↔ coords p = problem.minimum f0 x := by
  have hnormal := DataCovariance.posDef_normal hcov hrank
  have hformula := chi2_values hmodel hcov hrank
  constructor
  · intro hmin
    have hle := hmin (.ofFn (problem.minimum f0 x))
    rw [hformula, hformula, coords_ofFn, sub_self, zero_dotProduct, add_zero] at hle
    by_contra hne
    have hpos := hnormal.dotProduct_mulVec_pos (sub_ne_zero.mpr hne)
    rw [star_trivial] at hpos
    linarith
  · intro hp q
    have hnonneg := hnormal.posSemidef.dotProduct_mulVec_nonneg
      (coords q - problem.minimum f0 x)
    rw [star_trivial] at hnonneg
    rw [hformula, hformula, hp, sub_self, zero_dotProduct, add_zero]
    linarith

end Problem
end SkyCamera
