import SkyCamera.Proofs.ExactInverse

/-!
The pseudo-inverse of Moore and Penrose, which has no cut-off. It is unique, so that of a symmetric
matrix is symmetric, and what a symmetric matrix maps to zero its pseudo-inverse maps to zero.
-/
namespace SkyCamera.Linear

open Matrix

variable {r c n : Nat}

/-- The four equations of Penrose. -/
structure IsMoorePenrose (a : Mat ℝ r c) (x : Mat ℝ c r) : Prop where
  inner : a.toMatrix * x.toMatrix * a.toMatrix = a.toMatrix
  outer : x.toMatrix * a.toMatrix * x.toMatrix = x.toMatrix
  isSymm_left : (a.toMatrix * x.toMatrix).IsSymm
  isSymm_right : (x.toMatrix * a.toMatrix).IsSymm

def InvertsMoorePenrose [HasPseudoInverse ℝ] : Prop :=
  ∀ {r c : Nat} (a : Mat ℝ r c), r ≠ 0 → c ≠ 0 → ∃ x, pseudoInverse a = .ok x ∧ IsMoorePenrose a x

/-- A product that leaves `aᵀ a` as it is leaves `a` as it is. -/
theorem mul_eq_self_of_transpose_mul {a : Matrix (Fin r) (Fin c) ℝ} {k : Matrix (Fin c) (Fin c) ℝ}
    (h : aᵀ * a * k = aᵀ * a) : a * k = a := by
  have hzero : (a * k - a)ᵀ * (a * k - a) = 0 := by
    have hrest : aᵀ * (a * k - a) = 0 := by
      rw [Matrix.mul_sub, ← Matrix.mul_assoc, h, sub_self]
    have hfactor : (a * k - a)ᵀ = (kᵀ - 1) * aᵀ := by
      rw [transpose_sub, transpose_mul, Matrix.sub_mul, Matrix.one_mul]
    rw [hfactor, Matrix.mul_assoc, hrest, Matrix.mul_zero]
  rw [← conjTranspose_eq_transpose_of_trivial] at hzero
  exact sub_eq_zero.mp (conjTranspose_mul_self_eq_zero.mp hzero)

/-- From a diagonal form of `aᵀ a`, where zero is inverted to zero. -/
theorem exists_isMoorePenrose (a : Mat ℝ r c) : ∃ x, IsMoorePenrose a x := by
  obtain ⟨v, values, hsingular⟩ := exists_isSingular a
  let d : Matrix (Fin c) (Fin c) ℝ := Matrix.diagonal fun i => values i ^ 2
  let e : Matrix (Fin c) (Fin c) ℝ := Matrix.diagonal fun i => (values i ^ 2)⁻¹
  have hsquare : a.toMatrixᵀ * a.toMatrix = v * d * vᵀ := hsingular.square_eq
  have hded : d * e * d = d := by
    simp only [d, e, diagonal_mul_diagonal, mul_inv_mul_cancel]
  have hede : e * d * e = e := by
    have hentry (i : Fin c) : (values i ^ 2)⁻¹ * values i ^ 2 * (values i ^ 2)⁻¹ =
        (values i ^ 2)⁻¹ := by
      simpa using mul_inv_mul_cancel (values i ^ 2)⁻¹
    simp only [d, e, diagonal_mul_diagonal, hentry]
  have hcancel (p q : Matrix (Fin c) (Fin c) ℝ) : v * p * vᵀ * (v * q * vᵀ) = v * (p * q) * vᵀ := by
    calc
      v * p * vᵀ * (v * q * vᵀ) = v * p * (vᵀ * v) * q * vᵀ := by simp only [Matrix.mul_assoc]
      _ = v * (p * q) * vᵀ := by rw [hsingular.orthogonal, Matrix.mul_one, Matrix.mul_assoc v]
  obtain ⟨x, hx⟩ := Mat.exists_toMatrix (v * e * vᵀ * a.toMatrixᵀ)
  have hright : x.toMatrix * a.toMatrix = v * (e * d) * vᵀ := by
    rw [hx, Matrix.mul_assoc, hsquare, hcancel]
  refine ⟨x, ?_, ?_, ?_, ?_⟩
  · rw [Matrix.mul_assoc]
    apply mul_eq_self_of_transpose_mul
    rw [hright, hsquare, hcancel, ← Matrix.mul_assoc d, hded]
  · rw [hright, hx, ← Matrix.mul_assoc, hcancel, hede]
  · rw [hx, IsSymm]
    simp only [transpose_mul, transpose_transpose, e, diagonal_transpose, Matrix.mul_assoc]
  · rw [hright, IsSymm]
    simp only [d, e, diagonal_mul_diagonal, transpose_mul, transpose_transpose, diagonal_transpose,
      Matrix.mul_assoc]

namespace IsMoorePenrose

/-- Two inverses have the same products with `a` on either side, and each is fixed by these. -/
theorem unique {a : Mat ℝ r c} {x y : Mat ℝ c r} (hx : IsMoorePenrose a x)
    (hy : IsMoorePenrose a y) : x = y := by
  have hleft : a.toMatrix * x.toMatrix = a.toMatrix * y.toMatrix := by
    calc
      a.toMatrix * x.toMatrix = (a.toMatrix * x.toMatrix)ᵀ := hx.isSymm_left.symm
      _ = (a.toMatrix * y.toMatrix * (a.toMatrix * x.toMatrix))ᵀ := by
        rw [← Matrix.mul_assoc, hy.inner]
      _ = a.toMatrix * x.toMatrix * (a.toMatrix * y.toMatrix) := by
        rw [transpose_mul, hx.isSymm_left.eq, hy.isSymm_left.eq]
      _ = a.toMatrix * y.toMatrix := by rw [← Matrix.mul_assoc, hx.inner]
  have hright : x.toMatrix * a.toMatrix = y.toMatrix * a.toMatrix := by
    calc
      x.toMatrix * a.toMatrix = (x.toMatrix * a.toMatrix)ᵀ := hx.isSymm_right.symm
      _ = (x.toMatrix * a.toMatrix * (y.toMatrix * a.toMatrix))ᵀ := by
        rw [Matrix.mul_assoc x.toMatrix, ← Matrix.mul_assoc a.toMatrix, hy.inner]
      _ = y.toMatrix * a.toMatrix * (x.toMatrix * a.toMatrix) := by
        rw [transpose_mul, hx.isSymm_right.eq, hy.isSymm_right.eq]
      _ = y.toMatrix * a.toMatrix := by
        rw [Matrix.mul_assoc y.toMatrix, ← Matrix.mul_assoc a.toMatrix, hx.inner]
  apply Mat.toMatrix_injective
  rw [← hx.outer, hright, Matrix.mul_assoc, hleft, ← Matrix.mul_assoc, hy.outer]

variable {a x : Mat ℝ n n}

theorem isSymm (h : IsMoorePenrose a x) (ha : a.toMatrix.IsSymm) : x.toMatrix.IsSymm := by
  have htransposed : IsMoorePenrose a x.transpose := by
    refine ⟨?_, ?_, ?_, ?_⟩
    · have hinner := congrArg transpose h.inner
      simpa only [transpose_mul, ha.eq, Mat.toMatrix_transpose, Matrix.mul_assoc] using hinner
    · have houter := congrArg transpose h.outer
      simpa only [transpose_mul, ha.eq, Mat.toMatrix_transpose, Matrix.mul_assoc] using houter
    · have hright := congrArg transpose h.isSymm_right
      simpa only [IsSymm, transpose_mul, transpose_transpose, ha.eq, Mat.toMatrix_transpose]
        using hright
    · have hleft := congrArg transpose h.isSymm_left
      simpa only [IsSymm, transpose_mul, transpose_transpose, ha.eq, Mat.toMatrix_transpose]
        using hleft
  rw [IsSymm, ← Mat.toMatrix_transpose, htransposed.unique h]

/-- By `x = x a xᵀ` the form of the inverse is that of the matrix. -/
theorem posSemidef (h : IsMoorePenrose a x) (ha : a.toMatrix.PosSemidef) :
    x.toMatrix.PosSemidef := by
  have hsymm : x.toMatrix.IsSymm := by
    refine h.isSymm ?_
    rw [IsSymm, ← conjTranspose_eq_transpose_of_trivial]
    exact ha.1
  have hform := ha.conjTranspose_mul_mul_same x.toMatrix
  rwa [conjTranspose_eq_transpose_of_trivial, hsymm.eq, h.outer] at hform

/-- What a symmetric matrix maps to zero its pseudo-inverse maps to zero. -/
theorem mulVec_eq_zero (h : IsMoorePenrose a x) (ha : a.toMatrix.IsSymm) {v : Fin n → ℝ}
    (hv : a.toMatrix *ᵥ v = 0) : x.toMatrix *ᵥ v = 0 := by
  have hfactor : x.toMatrix = x.toMatrix * x.toMatrixᵀ * a.toMatrix := by
    have hleft := h.isSymm_left.eq
    rw [transpose_mul, ha.eq] at hleft
    rw [Matrix.mul_assoc, hleft, ← Matrix.mul_assoc, h.outer]
  rw [hfactor, ← mulVec_mulVec, hv, mulVec_zero]

end IsMoorePenrose

@[reducible]
noncomputable def moorePenroseInverse : HasPseudoInverse ℝ where
  pseudoInverse a := .ok (exists_isMoorePenrose a).choose

theorem invertsMoorePenrose_moorePenroseInverse : @InvertsMoorePenrose moorePenroseInverse :=
  fun a _ _ => ⟨_, rfl, (exists_isMoorePenrose a).choose_spec⟩

end SkyCamera.Linear
