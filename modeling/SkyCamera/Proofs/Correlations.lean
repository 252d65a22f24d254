import Mathlib.Analysis.Matrix.PosDef
import SkyCamera.Linear.Correlation
import SkyCamera.Proofs.QuaternionGauge

/-!
Standard errors and correlations of a covariance matrix, in exact arithmetic. Together they hold
what the covariance holds, also where a parameter has no variance, since then it has no covariance
with others either. Correlations are within one of zero and do not see the units of the parameters.
-/
namespace SkyCamera

open Matrix

namespace Linear

variable {n : Nat}

/-- Two variances bound the covariance between them. -/
theorem sq_le_mul_of_posSemidef {a : Matrix (Fin n) (Fin n) ℝ} (ha : a.PosSemidef) (i j : Fin n) :
    a i j ^ 2 ≤ a i i * a j j := by
  have hsymm : a j i = a i j := ha.1.apply i j
  have hminor := (ha.submatrix ![i, j]).det_nonneg
  rw [det_fin_two] at hminor
  simp only [submatrix_apply, cons_val_zero, cons_val_one, hsymm] at hminor
  rw [sq]
  exact sub_nonneg.mp hminor

theorem abs_le_mul_sqrt_of_posSemidef {a : Matrix (Fin n) (Fin n) ℝ} (ha : a.PosSemidef)
    (i j : Fin n) : |a i j| ≤ Real.sqrt (a i i) * Real.sqrt (a j j) := by
  rw [← Real.sqrt_mul ha.diag_nonneg]
  exact Real.abs_le_sqrt (sq_le_mul_of_posSemidef ha i j)

theorem standardError_real (variance : ℝ) : standardError variance = Real.sqrt variance := by
  show Real.sqrt (Scalar.atLeast 0 variance) = _
  rw [Scalar.atLeast_real]
  rcases le_total variance 0 with hneg | hpos
  · rw [max_eq_right hneg, Real.sqrt_zero, Real.sqrt_eq_zero_of_nonpos hneg]
  · rw [max_eq_left hpos]

theorem coords_standardErrors (c : Mat ℝ n n) (i : Fin n) :
    coords (standardErrors c) i = Real.sqrt (c.toMatrix i i) := by
  simp [coords, standardErrors, Mat.diagonal, Mat.toMatrix, standardError_real]

theorem correlation_self (c : Mat ℝ n n) (i : Fin n) : (correlation c).toMatrix i i = 1 := by
  rw [correlation, Mat.toMatrix_ofFn]
  exact if_pos rfl

/-- The guard of the quotient asks nothing more than that no error is zero. -/
theorem correlation_of_ne (c : Mat ℝ n n) {i j : Fin n} (hij : i ≠ j) :
    (correlation c).toMatrix i j =
      c.toMatrix i j / (Real.sqrt (c.toMatrix i i) * Real.sqrt (c.toMatrix j j)) := by
  have herror (k : Fin n) : (standardErrors c)[k] = Real.sqrt (c.toMatrix k k) :=
    coords_standardErrors c k
  rw [correlation, Mat.toMatrix_ofFn]
  simp only [if_neg hij, herror]
  split
  next => rfl
  next hnot =>
    have hi := Real.sqrt_nonneg (c.toMatrix i i)
    have hj := Real.sqrt_nonneg (c.toMatrix j j)
    have hzero : Real.sqrt (c.toMatrix i i) * Real.sqrt (c.toMatrix j j) = 0 := by
      by_contra hne
      obtain ⟨hi', hj'⟩ := mul_ne_zero_iff.mp hne
      exact hnot ⟨hi.lt_of_ne' hi', hj.lt_of_ne' hj'⟩
    rw [hzero, div_zero]

/-- Correlations `k` that give the covariance `c` back, together with its standard errors. -/
structure Correlates (k c : Mat ℝ n n) : Prop where
  isSymm : k.toMatrix.IsSymm
  self : ∀ i, k.toMatrix i i = 1
  ge_neg_one : ∀ i j, -1 ≤ k.toMatrix i j
  le_one : ∀ i j, k.toMatrix i j ≤ 1
  eq_zero : ∀ i j, i ≠ j → c.toMatrix i i = 0 → k.toMatrix i j = 0 ∧ k.toMatrix j i = 0
  errors_eq : ∀ i, coords (standardErrors c) i = Real.sqrt (c.toMatrix i i)
  covariance_eq : ∀ i j, c.toMatrix i j =
    Real.sqrt (c.toMatrix i i) * Real.sqrt (c.toMatrix j j) * k.toMatrix i j

section Semidefinite

variable {c : Mat ℝ n n} (hc : c.toMatrix.PosSemidef)
include hc

/-- No covariance exceeds the product of the two standard errors. -/
theorem abs_correlation_le_one (i j : Fin n) : |(correlation c).toMatrix i j| ≤ 1 := by
  by_cases hij : i = j
  · rw [hij, correlation_self, abs_one]
  · have hbound := abs_le_mul_sqrt_of_posSemidef hc i j
    have hproduct := (abs_nonneg _).trans hbound
    rw [correlation_of_ne c hij, abs_div, abs_of_nonneg hproduct]
    exact div_le_one_of_le₀ hbound hproduct

/-- The covariance again from errors and correlations, also where a variance vanishes, since then
its row does. -/
theorem covariance_eq_errors_mul_correlation (i j : Fin n) : c.toMatrix i j =
    Real.sqrt (c.toMatrix i i) * Real.sqrt (c.toMatrix j j) * (correlation c).toMatrix i j := by
  by_cases hij : i = j
  · rw [hij, correlation_self, mul_one, Real.mul_self_sqrt hc.diag_nonneg]
  · rw [correlation_of_ne c hij]
    by_cases hzero : Real.sqrt (c.toMatrix i i) * Real.sqrt (c.toMatrix j j) = 0
    · have hbound := abs_le_mul_sqrt_of_posSemidef hc i j
      -- One of the two has no variance, so there is no covariance to give back.
      rw [hzero] at hbound ⊢
      rw [zero_mul, abs_nonpos_iff.mp hbound]
    · rw [mul_div_cancel₀ _ hzero]

theorem isSymm_correlation : (correlation c).toMatrix.IsSymm := by
  refine IsSymm.ext fun i j => ?_
  by_cases hij : i = j
  · rw [hij]
  · have hsymm : c.toMatrix j i = c.toMatrix i j := hc.1.apply i j
    rw [correlation_of_ne c hij, correlation_of_ne c (Ne.symm hij), hsymm, mul_comm]

theorem correlates_correlation : Correlates (correlation c) c where
  isSymm := isSymm_correlation hc
  self := correlation_self c
  ge_neg_one i j := (abs_le.mp (abs_correlation_le_one hc i j)).1
  le_one i j := (abs_le.mp (abs_correlation_le_one hc i j)).2
  eq_zero i j hij hzero := by
    rw [correlation_of_ne c hij, correlation_of_ne c (Ne.symm hij), hzero, Real.sqrt_zero,
      zero_mul, mul_zero, div_zero, div_zero]
    exact ⟨rfl, rfl⟩
  errors_eq := coords_standardErrors c
  covariance_eq := covariance_eq_errors_mul_correlation hc

end Semidefinite

noncomputable def rescaled (c : Mat ℝ n n) (units : Vector ℝ n) : Mat ℝ n n :=
  ((Mat.ofDiagonal units).mul c).mul (Mat.ofDiagonal units)

theorem toMatrix_rescaled (c : Mat ℝ n n) (units : Vector ℝ n) (i j : Fin n) :
    (rescaled c units).toMatrix i j = coords units i * c.toMatrix i j * coords units j := by
  rw [rescaled, Mat.toMatrix_mul, Mat.toMatrix_mul, Mat.toMatrix_ofDiagonal, mul_diagonal,
    diagonal_mul]

/-- Units that are positive cancel. -/
theorem correlation_rescaled (c : Mat ℝ n n) {units : Vector ℝ n}
    (hunits : ∀ i, 0 < coords units i) : correlation (rescaled c units) = correlation c := by
  have herror (i : Fin n) : Real.sqrt ((rescaled c units).toMatrix i i) =
      coords units i * Real.sqrt (c.toMatrix i i) := by
    have hsquare : (rescaled c units).toMatrix i i =
        coords units i * coords units i * c.toMatrix i i := by
      rw [toMatrix_rescaled]
      ring
    rw [hsquare, Real.sqrt_mul (mul_self_nonneg _), Real.sqrt_mul_self (hunits i).le]
  apply Mat.toMatrix_injective
  ext i j
  by_cases hij : i = j
  · rw [hij, correlation_self, correlation_self]
  · have hfactor : coords units i * coords units j ≠ 0 :=
      mul_ne_zero (hunits i).ne' (hunits j).ne'
    rw [correlation_of_ne _ hij, correlation_of_ne _ hij, herror, herror, toMatrix_rescaled]
    calc
      coords units i * c.toMatrix i j * coords units j /
            (coords units i * Real.sqrt (c.toMatrix i i) *
              (coords units j * Real.sqrt (c.toMatrix j j)))
          = coords units i * coords units j * c.toMatrix i j / (coords units i * coords units j *
              (Real.sqrt (c.toMatrix i i) * Real.sqrt (c.toMatrix j j))) := by ring_nf
      _ = c.toMatrix i j / (Real.sqrt (c.toMatrix i i) * Real.sqrt (c.toMatrix j j)) :=
        mul_div_mul_left _ _ hfactor

/-- A covariance is its standard errors and its correlations, and the correlations are the same in
all units. -/
theorem correlation_normalizes (c : Mat ℝ n n) (hc : c.toMatrix.PosSemidef) :
    Correlates (correlation c) c ∧
      ∀ units : Vector ℝ n, (∀ i, 0 < coords units i) →
        correlation (((Mat.ofDiagonal units).mul c).mul (Mat.ofDiagonal units)) = correlation c :=
  ⟨correlates_correlation hc, fun _ hunits => correlation_rescaled c hunits⟩

/-- Two opposed parameters and one without variance. -/
theorem correlation_normalizes_opposed :
    let c : Mat ℝ 3 3 := #v[#v[4, -6, 0], #v[-6, 25, 0], #v[0, 0, 0]]
    let units : Vector ℝ 3 := #v[10, 1, 3]
    c.toMatrix.PosSemidef ∧ (∀ i, 0 < coords units i) ∧
      (correlation c).toMatrix 0 1 = -3 / 5 ∧ (correlation c).toMatrix 1 2 = 0 ∧
      correlation (((Mat.ofDiagonal units).mul c).mul (Mat.ofDiagonal units)) =
        correlation c := by
  intro c units
  have hc : c.toMatrix.PosSemidef := by
    let factor : Matrix (Fin 2) (Fin 3) ℝ := !![2, -3, 0; 0, 4, 0]
    have hsquare : c.toMatrix = factorᴴ * factor := by
      ext i j
      fin_cases i <;> fin_cases j <;>
        norm_num [Mat.toMatrix, c, factor, Matrix.mul_apply, Fin.sum_univ_two]
    rw [hsquare]
    exact posSemidef_conjTranspose_mul_self _
  have hunits : ∀ i, 0 < coords units i := by
    intro i
    fin_cases i <;> simp [coords, units]
  obtain ⟨hcorrelates, hrescaled⟩ := correlation_normalizes c hc
  have hpair := hcorrelates.covariance_eq 0 1
  have hfirst : Real.sqrt (c.toMatrix 0 0) = 2 := by
    show Real.sqrt 4 = 2
    rw [show (4 : ℝ) = 2 ^ 2 by norm_num, Real.sqrt_sq two_pos.le]
  have hsecond : Real.sqrt (c.toMatrix 1 1) = 5 := by
    show Real.sqrt 25 = 5
    rw [show (25 : ℝ) = 5 ^ 2 by norm_num, Real.sqrt_sq (by norm_num)]
  have hentry : c.toMatrix 0 1 = -6 := rfl
  rw [hfirst, hsecond, hentry] at hpair
  exact ⟨hc, hunits, by linarith, (hcorrelates.eq_zero 2 1 (by decide) rfl).2,
    hrescaled units hunits⟩

end Linear

namespace Solver

open Linear

variable {m n : Nat} [HasPseudoInverse ℝ]

/-- The errors and the correlations after a fit hold the covariance of its parameters, with the
directions in which the data leave them open. -/
theorem correlates_parameterCovariance (hinverse : InvertsMoorePenrose) {first s : Solver ℝ m n}
    {limit : Nat} (hcovariance : first.covariance.IsMade) (hfit : first.fit limit = .ok s)
    (hm : m ≠ 0) (hdof : m < n) :
    ∃ covariance, s.parameterCovariance = .ok covariance ∧
      Correlates (correlation covariance) covariance := by
  have hzero : (first.model.jacobian s.parameters).mulVec 0 = 0 := by
    apply coords_injective
    rw [Mat.coords_mulVec, coords_zero, mulVec_zero, coords_zero]
  obtain ⟨covariance, hok, -, hsemidefinite, -⟩ :=
    parameterCovariance_null hinverse hcovariance hfit hm hdof hzero
  exact ⟨covariance, hok, correlates_correlation hsemidefinite⟩

end Solver
end SkyCamera
