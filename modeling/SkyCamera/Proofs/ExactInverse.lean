import Mathlib.Algebra.Order.Star.Real
import Mathlib.Analysis.Matrix.PosDef
import Mathlib.Analysis.Matrix.Spectrum
import SkyCamera.Proofs.RealMatrix

/-!
The pseudo-inverse without rounding. Over its singular directions a matrix is inverted where it
stretches by more than a fraction of the most it stretches, and is zero elsewhere. The directions
are not unique, the pseudo-inverse is; and as the cut-off is relative, it follows the scale of the
matrix.
-/
namespace SkyCamera.Linear

open Matrix

variable {r c : Nat}

/-- The inverse square of a singular value that is not negligible beside the largest, else zero. -/
noncomputable def inverseSquare (values : Fin c → ℝ) (i : Fin c) : ℝ :=
  open Classical in
  if ∀ j, values j * rankTolerance < values i then (values i ^ 2)⁻¹ else 0

/-- The columns of `v` are singular directions of `a`, orthogonal and of length one, with these
singular values. -/
structure IsSingular (a : Mat ℝ r c) (v : Matrix (Fin c) (Fin c) ℝ) (values : Fin c → ℝ) :
    Prop where
  orthogonal : vᵀ * v = 1
  nonneg : ∀ i, 0 ≤ values i
  square_eq : a.toMatrixᵀ * a.toMatrix = v * Matrix.diagonal (fun i => values i ^ 2) * vᵀ

def IsPseudoInverse (a : Mat ℝ r c) (x : Mat ℝ c r) : Prop :=
  ∃ v values, IsSingular a v values ∧
    x.toMatrix = v * Matrix.diagonal (inverseSquare values) * vᵀ * a.toMatrixᵀ

/-- Every matrix that has entries has its pseudo-inverse, without rounding. -/
def InvertsExactly [HasPseudoInverse ℝ] : Prop :=
  ∀ {r c : Nat} (a : Mat ℝ r c), r ≠ 0 → c ≠ 0 → ∃ x, pseudoInverse a = .ok x ∧ IsPseudoInverse a x

/-- The entries of a diagonal matrix are its singular values. -/
theorem isSingular_diagonal {a : Mat ℝ c c} {values : Fin c → ℝ}
    (ha : a.toMatrix = Matrix.diagonal values) (hnonneg : ∀ i, 0 ≤ values i) :
    IsSingular a 1 values := by
  refine ⟨by rw [transpose_one, Matrix.one_mul], hnonneg, ?_⟩
  rw [ha, diagonal_transpose, diagonal_mul_diagonal, Matrix.one_mul, transpose_one, Matrix.mul_one]
  exact congrArg _ (funext fun i => (sq _).symm)

/-- Singular values exist by the spectral theorem for `aᵀ a`. -/
theorem exists_isSingular (a : Mat ℝ r c) : ∃ v values, IsSingular a v values := by
  have hsquare : (a.toMatrixᵀ * a.toMatrix).PosSemidef := by
    have h := posSemidef_conjTranspose_mul_self a.toMatrix
    rwa [conjTranspose_eq_transpose_of_trivial] at h
  let u := hsquare.1.eigenvectorUnitary
  have hu : (u : Matrix (Fin c) (Fin c) ℝ)ᵀ * u = 1 := by
    have h := Unitary.coe_star_mul_self u
    rwa [star_eq_conjTranspose, conjTranspose_eq_transpose_of_trivial] at h
  have hdecomposed := hsquare.1.spectral_theorem
  rw [Unitary.conjStarAlgAut_apply, star_eq_conjTranspose, conjTranspose_eq_transpose_of_trivial]
    at hdecomposed
  refine ⟨u, fun i => Real.sqrt (hsquare.1.eigenvalues i), hu, fun i => Real.sqrt_nonneg _, ?_⟩
  have hroot (i : Fin c) : Real.sqrt (hsquare.1.eigenvalues i) ^ 2 = hsquare.1.eigenvalues i :=
    Real.sq_sqrt (hsquare.eigenvalues_nonneg i)
  simp only [hroot]
  exact hdecomposed

theorem exists_isPseudoInverse (a : Mat ℝ r c) : ∃ x, IsPseudoInverse a x := by
  obtain ⟨v, values, hsingular⟩ := exists_isSingular a
  obtain ⟨x, hx⟩ := Mat.exists_toMatrix
    (v * Matrix.diagonal (inverseSquare values) * vᵀ * a.toMatrixᵀ)
  exact ⟨x, v, values, hsingular, hx⟩

section Unique

variable {a : Mat ℝ r c} {u v : Matrix (Fin c) (Fin c) ℝ} {s t : Fin c → ℝ}

/-- Directions of one matrix are only ever combined with directions of the same stretch. -/
theorem IsSingular.eq_of_ne_zero (hu : IsSingular a u s) (hv : IsSingular a v t) {i j : Fin c}
    (hij : (vᵀ * u) i j ≠ 0) : s j = t i := by
  have hsame : vᵀ * u * Matrix.diagonal (fun j => s j ^ 2) =
      Matrix.diagonal (fun i => t i ^ 2) * (vᵀ * u) := by
    calc
      vᵀ * u * Matrix.diagonal (fun j => s j ^ 2)
        = vᵀ * (u * Matrix.diagonal (fun j => s j ^ 2) * uᵀ) * u := by
          simp only [Matrix.mul_assoc, hu.orthogonal, Matrix.mul_one]
      _ = vᵀ * (v * Matrix.diagonal (fun i => t i ^ 2) * vᵀ) * u := by
          rw [← hu.square_eq, hv.square_eq]
      _ = Matrix.diagonal (fun i => t i ^ 2) * (vᵀ * u) := by
          simp only [← Matrix.mul_assoc, hv.orthogonal, Matrix.one_mul]
  have hentry := congrFun (congrFun hsame i) j
  rw [Matrix.mul_diagonal, Matrix.diagonal_mul, mul_comm] at hentry
  exact (sq_eq_sq₀ (hu.nonneg j) (hv.nonneg i)).mp (mul_right_cancel₀ hij hentry)

/-- Two orthonormal bases have no column that the other does not see. -/
theorem exists_ne_zero (hu : uᵀ * u = 1) (hv : vᵀ * v = 1) (j : Fin c) :
    ∃ i, (vᵀ * u) i j ≠ 0 := by
  by_contra hnone
  push Not at hnone
  have hone : (vᵀ * u)ᵀ * (vᵀ * u) = 1 := by
    rw [transpose_mul, transpose_transpose, Matrix.mul_assoc, ← Matrix.mul_assoc v,
      mul_eq_one_comm.mp hv, Matrix.one_mul, hu]
  have hentry := congrFun (congrFun hone j) j
  rw [Matrix.mul_apply, Matrix.one_apply_eq] at hentry
  simp only [hnone, mul_zero, Finset.sum_const_zero] at hentry
  exact zero_ne_one hentry

/-- Two decompositions invert a value alike wherever their vectors are not orthogonal, so that the
pseudo-inverse does not depend on which is taken. -/
theorem IsSingular.inverseSquare_eq (hu : IsSingular a u s) (hv : IsSingular a v t) {i j : Fin c}
    (hij : (vᵀ * u) i j ≠ 0) : inverseSquare s j = inverseSquare t i := by
  have hvalue := hu.eq_of_ne_zero hv hij
  have hkept : (∀ k, s k * rankTolerance < t i) ↔ ∀ k, t k * rankTolerance < t i := by
    constructor
    · intro h k
      obtain ⟨k', hk'⟩ := exists_ne_zero hv.orthogonal hu.orthogonal k
      rw [hv.eq_of_ne_zero hu hk']
      exact h k'
    · intro h k
      obtain ⟨k', hk'⟩ := exists_ne_zero hu.orthogonal hv.orthogonal k
      rw [hu.eq_of_ne_zero hv hk']
      exact h k'
  simp only [inverseSquare, hvalue, hkept]

/-- The pseudo-inverse does not depend on the directions that it is found from. -/
theorem IsPseudoInverse.unique {x y : Mat ℝ c r} (hx : IsPseudoInverse a x)
    (hy : IsPseudoInverse a y) : x = y := by
  obtain ⟨u, s, hu, hx⟩ := hx
  obtain ⟨v, t, hv, hy⟩ := hy
  -- The change between the two bases mixes only directions of one stretch, so that it commutes with
  -- whatever is a function of the stretch.
  have hsame : vᵀ * u * Matrix.diagonal (inverseSquare s) =
      Matrix.diagonal (inverseSquare t) * (vᵀ * u) := by
    ext i j
    rw [Matrix.mul_diagonal, Matrix.diagonal_mul, mul_comm]
    by_cases hij : (vᵀ * u) i j = 0
    · rw [hij, mul_zero, mul_zero]
    · rw [hu.inverseSquare_eq hv hij]
  have hmiddle : u * Matrix.diagonal (inverseSquare s) * uᵀ =
      v * Matrix.diagonal (inverseSquare t) * vᵀ := by
    calc
      u * Matrix.diagonal (inverseSquare s) * uᵀ
        = v * (vᵀ * u * Matrix.diagonal (inverseSquare s)) * uᵀ := by
          simp only [← Matrix.mul_assoc, mul_eq_one_comm.mp hv.orthogonal, Matrix.one_mul]
      _ = v * Matrix.diagonal (inverseSquare t) * vᵀ * (u * uᵀ) := by
          rw [hsame]
          simp only [Matrix.mul_assoc]
      _ = v * Matrix.diagonal (inverseSquare t) * vᵀ := by
          rw [mul_eq_one_comm.mp hu.orthogonal, Matrix.mul_one]
  apply Mat.toMatrix_injective
  rw [hx, hy, hmiddle]

end Unique

section Scale

variable {k : ℝ}

theorem inverseSquare_smul (hk : 0 < k) (values : Fin c → ℝ) (i : Fin c) :
    inverseSquare (fun j => k * values j) i = (k ^ 2)⁻¹ * inverseSquare values i := by
  have hkept (j : Fin c) :
      k * values j * rankTolerance < k * values i ↔ values j * rankTolerance < values i := by
    rw [mul_assoc]
    exact mul_lt_mul_iff_right₀ hk
  simp only [inverseSquare, hkept]
  split
  · rw [mul_pow, mul_inv]
  · rw [mul_zero]

/-- The cut-off is relative, so a multiple of a matrix has the inverse multiple. -/
theorem IsPseudoInverse.smul {a b : Mat ℝ r c} {x y : Mat ℝ c r} (hk : 0 < k)
    (hb : b.toMatrix = k • a.toMatrix) (hx : IsPseudoInverse a x) (hy : IsPseudoInverse b y) :
    y.toMatrix = k⁻¹ • x.toMatrix := by
  obtain ⟨v, values, hsingular, hx⟩ := hx
  have hscaled : IsSingular b v fun j => k * values j := by
    refine ⟨hsingular.orthogonal, fun i => mul_nonneg hk.le (hsingular.nonneg i), ?_⟩
    have hdiagonal : Matrix.diagonal (fun i => (k * values i) ^ 2) =
        k ^ 2 • Matrix.diagonal fun i => values i ^ 2 := by
      rw [← Matrix.diagonal_smul]
      exact congrArg Matrix.diagonal (funext fun i => mul_pow k (values i) 2)
    rw [hb, hdiagonal, transpose_smul, Matrix.smul_mul, Matrix.mul_smul, smul_smul, ← sq,
      hsingular.square_eq, Matrix.mul_smul, Matrix.smul_mul]
  obtain ⟨z, hz⟩ := Mat.exists_toMatrix (k⁻¹ • x.toMatrix)
  have hinverse : IsPseudoInverse b z := by
    refine ⟨v, _, hscaled, ?_⟩
    have hdiagonal : Matrix.diagonal (inverseSquare fun j => k * values j) =
        (k ^ 2)⁻¹ • Matrix.diagonal (inverseSquare values) := by
      rw [← Matrix.diagonal_smul]
      exact congrArg Matrix.diagonal (funext (inverseSquare_smul hk values))
    have hfactor : k * (k ^ 2)⁻¹ = k⁻¹ := by
      rw [sq, mul_inv, mul_inv_cancel_left₀ hk.ne']
    rw [hz, hb, hdiagonal, hx, transpose_smul, Matrix.mul_smul, Matrix.mul_smul,
      Matrix.smul_mul, Matrix.smul_mul, smul_smul, hfactor]
  rw [hy.unique hinverse, hz]

end Scale

section Inverse

def KeepsAll (a : Mat ℝ r c) : Prop :=
  ∃ v values, IsSingular a v values ∧ ∀ i j, values j * rankTolerance < values i

theorem rankTolerance_lt_one : (rankTolerance : ℝ) < 1 := by
  unfold rankTolerance
  norm_num

/-- With no singular value at the cut-off or below the pseudo-inverse is the inverse. -/
theorem IsPseudoInverse.eq_inv {a x : Mat ℝ c c} (hx : IsPseudoInverse a x) (ha : KeepsAll a) :
    x.toMatrix = a.toMatrix⁻¹ := by
  obtain ⟨v, values, hsingular, hkept⟩ := ha
  have hpos (i : Fin c) : 0 < values i := by
    have hself := hkept i i
    have hle : values i * rankTolerance ≤ values i * 1 :=
      mul_le_mul_of_nonneg_left rankTolerance_lt_one.le (hsingular.nonneg i)
    refine (hsingular.nonneg i).lt_of_ne fun hzero => ?_
    rw [← hzero, zero_mul] at hself
    exact lt_irrefl _ hself
  have hsquare : inverseSquare values = fun i => (values i ^ 2)⁻¹ :=
    funext fun i => if_pos (hkept i)
  -- The directions and their inverse squares make up the inverse of `aᵀ a`.
  have hinverse :
      v * Matrix.diagonal (inverseSquare values) * vᵀ * a.toMatrixᵀ * a.toMatrix = 1 := by
    have hone : Matrix.diagonal (inverseSquare values) *
        Matrix.diagonal (fun i => values i ^ 2) = 1 := by
      rw [hsquare, diagonal_mul_diagonal, ← diagonal_one]
      exact congrArg _ (funext fun i => inv_mul_cancel₀ (pow_pos (hpos i) 2).ne')
    calc
      v * Matrix.diagonal (inverseSquare values) * vᵀ * a.toMatrixᵀ * a.toMatrix
        = v * Matrix.diagonal (inverseSquare values) * (vᵀ * v) *
            Matrix.diagonal (fun i => values i ^ 2) * vᵀ := by
          rw [Matrix.mul_assoc _ a.toMatrixᵀ, hsingular.square_eq]
          simp only [Matrix.mul_assoc]
      _ = v * (Matrix.diagonal (inverseSquare values) *
            Matrix.diagonal (fun i => values i ^ 2)) * vᵀ := by
          rw [hsingular.orthogonal, Matrix.mul_one]
          simp only [Matrix.mul_assoc]
      _ = 1 := by rw [hone, Matrix.mul_one, mul_eq_one_comm.mp hsingular.orthogonal]
  obtain ⟨y, hy⟩ := Mat.exists_toMatrix
    (v * Matrix.diagonal (inverseSquare values) * vᵀ * a.toMatrixᵀ)
  rw [hx.unique ⟨v, values, hsingular, hy⟩, hy]
  exact (inv_eq_left_inv hinverse).symm

/-- The pseudo-inverse of a diagonal matrix, with zeros for the entries that are negligible. -/
theorem IsPseudoInverse.toMatrix_diagonal {a x : Mat ℝ c c} {values : Fin c → ℝ}
    (hx : IsPseudoInverse a x) (ha : a.toMatrix = Matrix.diagonal values)
    (hnonneg : ∀ i, 0 ≤ values i) :
    x.toMatrix = Matrix.diagonal fun i => inverseSquare values i * values i := by
  obtain ⟨y, hy⟩ := Mat.exists_toMatrix
    (1 * Matrix.diagonal (inverseSquare values) * 1ᵀ * a.toMatrixᵀ)
  rw [hx.unique ⟨1, values, isSingular_diagonal ha hnonneg, hy⟩, hy, ha, transpose_one,
    Matrix.one_mul, Matrix.mul_one, diagonal_transpose, diagonal_mul_diagonal]

end Inverse

@[reducible]
noncomputable def exactPseudoInverse : HasPseudoInverse ℝ where
  pseudoInverse a := .ok (exists_isPseudoInverse a).choose

theorem invertsExactly_exactPseudoInverse : @InvertsExactly exactPseudoInverse :=
  fun a _ _ => ⟨_, rfl, (exists_isPseudoInverse a).choose_spec⟩

end SkyCamera.Linear
