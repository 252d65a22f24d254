import SkyCamera.LeastSquares.Fit
import SkyCamera.Proofs.CholeskySolve

/-!
The weights of the data in exact arithmetic. Independent and correlated data are weighted by one
matrix, the inverse of their covariance, which is positive definite; so `χ²` is a quadratic form,
and normal matrices are positive semidefinite.
-/
namespace SkyCamera.DataCovariance

open Matrix Linear

variable {n c m : Nat}

/-- The covariance of data with the given variances, or with a covariance matrix that is symmetric
and positive definite. -/
def IsValid (cov : DataCovariance ℝ n) : Prop :=
  (∃ v, ofVariances v = .ok cov) ∨ ∃ a : Mat ℝ n n, a.toMatrix.PosDef ∧ ofMatrix a = .ok cov

noncomputable def weightMatrix : DataCovariance ℝ n → Matrix (Fin n) (Fin n) ℝ
  | .diagonal v => Matrix.diagonal fun i => (v[i])⁻¹
  | .full _ inverse => inverse.toMatrix

@[simp] theorem coords_weight (cov : DataCovariance ℝ n) (r : Vector ℝ n) :
    coords (cov.weight r) = cov.weightMatrix *ᵥ coords r := by
  cases cov with
  | diagonal v =>
    funext i
    simp [weight, weightMatrix, coords, Matrix.mulVec_diagonal, div_eq_inv_mul]
  | full a inverse => exact inverse.coords_mulVec r

@[simp] theorem toMatrix_weightRows (cov : DataCovariance ℝ n) (j : Mat ℝ n c) :
    (cov.weightRows j).toMatrix = cov.weightMatrix * j.toMatrix := by
  cases cov with
  | diagonal v =>
    ext i k
    simp [weightRows, weightMatrix, Mat.divideRows, Mat.toMatrix, div_eq_inv_mul]
  | full a inverse => exact inverse.toMatrix_mul j

theorem chi2_real (cov : DataCovariance ℝ n) (r : Vector ℝ n) :
    cov.chi2 r = coords r ⬝ᵥ cov.weightMatrix *ᵥ coords r := by
  rw [chi2, dot_real, coords_weight]

theorem pos_of_ofVariances {v : Vector ℝ n} {cov : DataCovariance ℝ n}
    (h : ofVariances v = .ok cov) : cov = .diagonal v ∧ ∀ i : Fin n, 0 < v[i] := by
  unfold ofVariances at h
  split at h
  · cases h
  · next hnone =>
    cases h
    refine ⟨rfl, fun i => ?_⟩
    have hi := List.find?_eq_none.mp hnone i (List.mem_finRange i)
    simp only [decide_not, Bool.not_eq_true', decide_eq_false_iff_not, not_not] at hi
    exact hi.2

theorem ofVariances_of_pos {n : Nat} {v : Vector ℝ n} (hv : ∀ i : Fin n, 0 < v[i]) :
    ofVariances v = .ok (.diagonal v) := by
  have hnone : (List.finRange n).find?
      (fun i => ¬ (Scalar.IsFinite v[i] ∧ (0 : ℝ) < v[i])) = none := by
    refine List.find?_eq_none.mpr fun i _ => ?_
    simpa using hv i
  rw [ofVariances, hnone]

theorem exists_factor_of_ofMatrix {α : Type} [Scalar α] {a : Mat α n n} {cov : DataCovariance α n}
    (h : ofMatrix a = .ok cov) :
    ∃ f, cholesky a = some f ∧ cov = .full a f.inverse := by
  unfold ofMatrix at h
  split at h
  · split at h
    · next f hf =>
      cases h
      exact ⟨f, hf, rfl⟩
    · cases h
  · cases h

/-- The weights of a valid covariance are the inverse of a positive definite matrix. -/
theorem posDef_weightMatrix {cov : DataCovariance ℝ n} (hcov : cov.IsValid) :
    cov.weightMatrix.PosDef := by
  obtain ⟨v, hv⟩ | ⟨a, ha, hof⟩ := hcov
  · obtain ⟨rfl, hpos⟩ := pos_of_ofVariances hv
    exact Matrix.PosDef.diagonal fun i => inv_pos.mpr (hpos i)
  · obtain ⟨f, hf, rfl⟩ := exists_factor_of_ofMatrix hof
    rw [weightMatrix, toMatrix_inverse ha hf]
    exact ha.inv

theorem chi2_nonneg {cov : DataCovariance ℝ n} (hcov : cov.IsValid) (r : Vector ℝ n) :
    0 ≤ cov.chi2 r := by
  have hform := (posDef_weightMatrix hcov).posSemidef.dotProduct_mulVec_nonneg (coords r)
  rw [chi2_real]
  exact hform

/-- Only a residual of zero has no `χ²`. -/
theorem chi2_eq_zero_iff {cov : DataCovariance ℝ n} (hcov : cov.IsValid) (r : Vector ℝ n) :
    cov.chi2 r = 0 ↔ r = 0 := by
  rw [chi2_real, ← coords_eq_zero_iff]
  constructor
  · intro hzero
    by_contra hne
    exact ((posDef_weightMatrix hcov).dotProduct_mulVec_pos hne).ne' hzero
  · intro hzero
    rw [hzero, zero_dotProduct]

def IsMade (cov : DataCovariance ℝ n) : Prop :=
  (∃ v, ofVariances v = .ok cov) ∨ ∃ a, ofMatrix a = .ok cov

def mirrored (a : Mat ℝ n n) : Mat ℝ n n := .ofFn fun i j => if j ≤ i then a[i][j] else a[j][i]

/-- The covariance matrix of the data. A matrix is accepted when it is symmetric up to a tolerance,
and of one that is not quite so only the lower triangle counts. -/
noncomputable def matrix : DataCovariance ℝ n → Matrix (Fin n) (Fin n) ℝ
  | .diagonal v => Matrix.diagonal (coords v)
  | .full a _ => (mirrored a).toMatrix

theorem toMatrix_mirrored (a : Mat ℝ n n) (i j : Fin n) :
    (mirrored a).toMatrix i j = if j ≤ i then a[i][j] else a[j][i] := by
  rw [mirrored, Mat.toMatrix_ofFn]

theorem isSymm_mirrored (a : Mat ℝ n n) : (mirrored a).toMatrix.IsSymm := by
  ext i j
  rw [Matrix.transpose_apply, toMatrix_mirrored, toMatrix_mirrored]
  rcases lt_trichotomy i j with hij | rfl | hij
  · rw [if_pos hij.le, if_neg hij.not_ge]
  · rfl
  · rw [if_neg hij.not_ge, if_pos hij.le]

theorem mirrored_of_isSymm {a : Mat ℝ n n} (ha : a.toMatrix.IsSymm) :
    (mirrored a).toMatrix = a.toMatrix := by
  ext i j
  rw [toMatrix_mirrored]
  split
  · rfl
  · exact ha.apply i j

theorem cholesky_mirrored (a : Mat ℝ n n) : cholesky (mirrored a) = cholesky a := by
  refine cholesky_congr fun i j hji => ?_
  simp only [mirrored, getElem_fin, Mat.getElem_ofFn]
  exact if_pos hji

/-- Data are weighted with the inverse of their covariance matrix, which is positive definite. -/
theorem weightMatrix_of_isMade {cov : DataCovariance ℝ n} (hcov : cov.IsMade) :
    cov.matrix.PosDef ∧ cov.weightMatrix = cov.matrix⁻¹ := by
  obtain ⟨v, hv⟩ | ⟨a, ha⟩ := hcov
  · obtain ⟨rfl, hpos⟩ := pos_of_ofVariances hv
    refine ⟨Matrix.PosDef.diagonal hpos, ?_⟩
    refine (Matrix.inv_eq_right_inv ?_).symm
    have hone (i : Fin n) : coords v i * v[i]⁻¹ = 1 := mul_inv_cancel₀ (hpos i).ne'
    rw [weightMatrix, matrix, Matrix.diagonal_mul_diagonal]
    simp only [hone, Matrix.diagonal_one]
  · obtain ⟨f, hf, rfl⟩ := exists_factor_of_ofMatrix ha
    have hmirrored : cholesky (mirrored a) = some f := (cholesky_mirrored a).trans hf
    have hpos := posDef_of_cholesky (isSymm_mirrored a) hmirrored
    exact ⟨hpos, toMatrix_inverse hpos hmirrored⟩

theorem symmetryTolerance_pos : (0 : ℝ) < symmetryTolerance := by
  unfold symmetryTolerance
  norm_num

theorem symmetryBound_nonneg (a : Mat ℝ n n) : 0 ≤ symmetryTolerance * a.magnitude :=
  mul_nonneg symmetryTolerance_pos.le (Scalar.atLeast_pos Scalar.smallest_pos _).le

/-- Every positive definite matrix is the covariance of some data. -/
theorem exists_ofMatrix {a : Mat ℝ n n} (ha : a.toMatrix.PosDef) :
    ∃ cov, ofMatrix a = .ok cov := by
  obtain ⟨f, hf, -⟩ := exists_cholesky a ha
  have hsymm : a.IsSymmetric symmetryTolerance := by
    intro i j _
    have hentry : a[i][j] = a[j][i] := by
      have h := congrFun (congrFun ha.1 i) j
      exact h.symm
    have hbound := symmetryBound_nonneg a
    rw [hentry, sub_self]
    simpa [Scalar.abs] using hbound
  exact ⟨.full a f.inverse, by rw [ofMatrix, if_pos hsymm, hf]⟩

def normalEquations {α : Type} [Scalar α] (cov : DataCovariance α n) (j : Mat α n m)
    (r : Vector α n) : NormalEquations α m :=
  ⟨j.transpose.mul (cov.weightRows j), (cov.weightRows j).transpose.mulVec r⟩

section NormalEquations

variable (cov : DataCovariance ℝ n) (j : Mat ℝ n m) (r : Vector ℝ n)

theorem toMatrix_normalEquations :
    (cov.normalEquations j r).matrix.toMatrix =
      j.toMatrixᵀ * (cov.weightMatrix * j.toMatrix) := by
  simp [normalEquations]

variable {cov} (hweight : cov.weightMatrix.PosDef)
include hweight

theorem coords_gradient_normalEquations :
    coords (cov.normalEquations j r).gradient =
      j.toMatrixᵀ *ᵥ cov.weightMatrix *ᵥ coords r := by
  have hsymm : cov.weightMatrixᵀ = cov.weightMatrix := hweight.1
  simp [normalEquations, Matrix.transpose_mul, hsymm, mulVec_mulVec]

theorem posSemidef_normalEquations : (cov.normalEquations j r).matrix.toMatrix.PosSemidef := by
  have hnormal := hweight.posSemidef.conjTranspose_mul_mul_same j.toMatrix
  rw [conjTranspose_eq_transpose_of_trivial, Matrix.mul_assoc] at hnormal
  rw [toMatrix_normalEquations]
  exact hnormal

end NormalEquations

end SkyCamera.DataCovariance
