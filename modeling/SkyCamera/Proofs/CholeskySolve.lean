import Mathlib.Algebra.Order.Star.Real
import Mathlib.LinearAlgebra.Matrix.PosDef
import SkyCamera.Linear.Cholesky
import SkyCamera.Proofs.RealMatrix

/-!
The Cholesky factorisation in exact arithmetic: the symmetric matrices that have a factor are the
positive definite ones, and the factor solves their equations. Elimination of the first row leaves a
positive definite matrix, which is the quadratic form of the whole on the vectors that the first row
does not see.
-/
namespace SkyCamera.Linear

open Matrix

section Elimination

variable {n : Nat} (a : Mat ℝ (n + 1) (n + 1))

/-- The first column of the factor. -/
noncomputable def pivot : ℝ := Real.sqrt (a.toMatrix 0 0)

noncomputable def below : Vector ℝ n := .ofFn fun i => a.toMatrix i.succ 0 / pivot a

/-- What is left of a matrix when its first column has been eliminated. -/
noncomputable def remainder : Mat ℝ n n :=
  .ofFn fun i j => a[i.succ][j.succ] - (below a)[i] * (below a)[j]

theorem cholesky_succ (hcorner : 0 < a.toMatrix 0 0) :
    cholesky a = (cholesky (remainder a)).map (.column (pivot a) (below a)) := by
  rw [cholesky]
  exact if_pos hcorner

variable {a}

theorem entry_remainder (i j : Fin n) :
    a.toMatrix i.succ j.succ = (remainder a).toMatrix i j + (below a)[i] * (below a)[j] := by
  simp only [remainder, Mat.toMatrix_ofFn]
  exact (sub_add_cancel _ _).symm

theorem isSymm_remainder (hsymm : a.toMatrix.IsSymm) : (remainder a).toMatrix.IsSymm := by
  ext i j
  have hentry := hsymm.apply i.succ j.succ
  rw [entry_remainder, entry_remainder] at hentry
  rw [Matrix.transpose_apply]
  linarith

variable (hsymm : a.toMatrix.IsSymm) (hcorner : 0 < a.toMatrix 0 0)
include hcorner

theorem pivot_pos : 0 < pivot a := Real.sqrt_pos.mpr hcorner

theorem pivot_mul_self : pivot a * pivot a = a.toMatrix 0 0 := Real.mul_self_sqrt hcorner.le

theorem entry_below (i : Fin n) : a.toMatrix i.succ 0 = pivot a * (below a)[i] := by
  have hbelow : (below a)[i] = a.toMatrix i.succ 0 / pivot a := by
    simp only [below, getElem_fin, Vector.getElem_ofFn]
  rw [hbelow, mul_div_cancel₀ _ (pivot_pos hcorner).ne']

include hsymm

/-- The product with a matrix, by its first column and what is left of it. -/
theorem mulVec_cons (first : ℝ) (x : Fin n → ℝ) :
    a.toMatrix *ᵥ Fin.cons first x =
      Fin.cons (pivot a * (pivot a * first + coords (below a) ⬝ᵥ x))
        ((remainder a).toMatrix *ᵥ x +
          (pivot a * first + coords (below a) ⬝ᵥ x) • coords (below a)) := by
  funext i
  refine Fin.cases ?_ (fun i => ?_) i
  · have hrow (j : Fin n) : a.toMatrix 0 j.succ = pivot a * (below a)[j] := by
      rw [← hsymm.apply, entry_below hcorner]
    have hfirst : a.toMatrix 0 0 = pivot a * pivot a := (pivot_mul_self hcorner).symm
    simp only [mulVec, dotProduct, Fin.sum_univ_succ, Fin.cons_zero, Fin.cons_succ, hrow, hfirst,
      coords, mul_add, Finset.mul_sum]
    refine congrArg₂ (· + ·) (mul_assoc _ _ _) (Finset.sum_congr rfl fun j _ => mul_assoc _ _ _)
  · simp only [mulVec, dotProduct, Fin.sum_univ_succ, Fin.cons_zero, Fin.cons_succ, Pi.add_apply,
      Pi.smul_apply, smul_eq_mul, entry_below hcorner, entry_remainder, coords, add_mul,
      Finset.sum_add_distrib, Finset.sum_mul]
    have hsum : ∑ j, (below a)[i] * (below a)[j] * x j = ∑ j, (below a)[j] * x j * (below a)[i] :=
      Finset.sum_congr rfl fun j _ => by ring
    rw [hsum]
    ring

/-- The form of the remainder is that of the whole on vectors to which the first row is
orthogonal. -/
theorem posDef_remainder (ha : a.toMatrix.PosDef) : (remainder a).toMatrix.PosDef := by
  have hpivot := (pivot_pos hcorner).ne'
  refine Matrix.PosDef.of_dotProduct_mulVec_pos ?_ fun x hx => ?_
  · rw [IsHermitian, conjTranspose_eq_transpose_of_trivial]
    exact isSymm_remainder hsymm
  · -- The vector that the first row of the matrix is orthogonal to.
    let first : ℝ := -(coords (below a) ⬝ᵥ x) / pivot a
    have hfirst : pivot a * first + coords (below a) ⬝ᵥ x = 0 := by
      rw [mul_div_cancel₀ _ hpivot, neg_add_cancel]
    have hne : (Fin.cons first x : Fin (n + 1) → ℝ) ≠ 0 := by
      intro hzero
      exact hx (funext fun j => by simpa using congrFun hzero j.succ)
    have hpos := ha.dotProduct_mulVec_pos hne
    rw [mulVec_cons hsymm hcorner, hfirst, zero_smul, add_zero, mul_zero] at hpos
    simpa [dotProduct, Fin.sum_univ_succ] using hpos

/-- A positive pivot and a positive definite remainder make the whole positive definite: the
quadratic form is the square that the first row completes, and that of the remainder. -/
theorem posDef_of_remainder (hrest : (remainder a).toMatrix.PosDef) : a.toMatrix.PosDef := by
  have hpivot := (pivot_pos hcorner).ne'
  refine Matrix.PosDef.of_dotProduct_mulVec_pos ?_ fun x hx => ?_
  · rw [IsHermitian, conjTranspose_eq_transpose_of_trivial]
    exact hsymm
  · obtain ⟨first, y, rfl⟩ : ∃ (first : ℝ) (y : Fin n → ℝ), x = Fin.cons first y :=
      ⟨x 0, Fin.tail x, (Fin.cons_self_tail x).symm⟩
    -- The square is completed: what the first row and column add to the form of the rest is `t²`.
    let t := pivot a * first + coords (below a) ⬝ᵥ y
    have hsplit : (Fin.cons first y : Fin (n + 1) → ℝ) ⬝ᵥ a.toMatrix *ᵥ Fin.cons first y =
        first * (pivot a * t) + y ⬝ᵥ ((remainder a).toMatrix *ᵥ y + t • coords (below a)) := by
      rw [mulVec_cons hsymm hcorner, dotProduct, Fin.sum_univ_succ]
      rfl
    have hform : star (Fin.cons first y : Fin (n + 1) → ℝ) ⬝ᵥ a.toMatrix *ᵥ Fin.cons first y =
        t ^ 2 + y ⬝ᵥ (remainder a).toMatrix *ᵥ y := by
      rw [star_trivial, hsplit, dotProduct_add, dotProduct_smul, dotProduct_comm y (coords _),
        smul_eq_mul]
      ring
    rw [hform]
    by_cases hy : y = 0
    · subst hy
      have hfirst : first ≠ 0 := by
        rintro rfl
        exact hx (funext fun i => Fin.cases rfl (fun _ => rfl) i)
      have ht : t ≠ 0 := by
        simp only [t, dotProduct_zero, add_zero]
        exact mul_ne_zero hpivot hfirst
      rw [zero_dotProduct, add_zero]
      positivity
    · exact add_pos_of_nonneg_of_pos (sq_nonneg t) (hrest.dotProduct_mulVec_pos hy)

end Elimination

theorem coords_withFirst {n : Nat} (x : ℝ) (v : Vector ℝ n) :
    coords (withFirst x v) = Fin.cons x (coords v) := by
  funext i
  refine Fin.cases ?_ (fun i => ?_) i
  · simp [withFirst, coords]
  · simp [withFirst, coords]

/-- A positive definite matrix has a factor, and every right-hand side has its solution. -/
theorem exists_cholesky {n : Nat} (a : Mat ℝ n n) (ha : a.toMatrix.PosDef) :
    ∃ f, cholesky a = some f ∧ ∀ b, a.toMatrix *ᵥ coords (f.solve b) = coords b := by
  induction n with
  | zero => exact ⟨.empty, rfl, fun b => funext fun i => i.elim0⟩
  | succ n ih =>
    have hsymm : a.toMatrix.IsSymm := by
      have hherm := ha.1
      rwa [IsHermitian, conjTranspose_eq_transpose_of_trivial] at hherm
    have hcorner : 0 < a.toMatrix 0 0 := ha.diag_pos
    have hpivot := (pivot_pos hcorner).ne'
    obtain ⟨f, hf, hsolve⟩ := ih (remainder a) (posDef_remainder hsymm hcorner ha)
    refine ⟨.column (pivot a) (below a) f, ?_, fun b => ?_⟩
    · rw [cholesky_succ a hcorner, hf, Option.map_some]
    · -- One step forward, the rest by induction, and one step back.
      let y := b[0] / pivot a
      let x := f.solve (dropFirst b - (below a).map (· * y))
      have hx : (remainder a).toMatrix *ᵥ coords x + y • coords (below a) =
          coords (dropFirst b) := by
        rw [hsolve, coords_sub]
        funext i
        simp [coords, mul_comm]
      have hfirst : pivot a * ((y - dot (below a) x) / pivot a) +
          coords (below a) ⬝ᵥ coords x = y := by
        rw [mul_div_cancel₀ _ hpivot, dot_real, sub_add_cancel]
      have hy : pivot a * y = b[0] := mul_div_cancel₀ _ hpivot
      show a.toMatrix *ᵥ coords (withFirst ((y - dot (below a) x) / pivot a) x) = coords b
      rw [coords_withFirst, mulVec_cons hsymm hcorner, hfirst, hx, hy]
      funext i
      refine Fin.cases rfl (fun i => ?_) i
      simp [dropFirst, coords]

/-- Of the symmetric matrices only the positive definite ones have a factor. -/
theorem posDef_of_cholesky {n : Nat} {a : Mat ℝ n n} (hsymm : a.toMatrix.IsSymm) {f : Factor ℝ n}
    (hf : cholesky a = some f) : a.toMatrix.PosDef := by
  induction n with
  | zero =>
    refine Matrix.PosDef.of_dotProduct_mulVec_pos ?_ fun x hx => absurd (Subsingleton.elim x 0) hx
    exact Subsingleton.elim _ _
  | succ n ih =>
    by_cases hcorner : 0 < a.toMatrix 0 0
    · rw [cholesky_succ a hcorner] at hf
      obtain ⟨rest, hrest, -⟩ := Option.map_eq_some_iff.mp hf
      exact posDef_of_remainder hsymm hcorner (ih (isSymm_remainder hsymm) hrest)
    · have hnone : cholesky a = none := by
        rw [cholesky]
        exact if_neg hcorner
      rw [hnone] at hf
      cases hf

/-- Only the lower triangle of a matrix is looked at. -/
theorem cholesky_congr {α : Type} [Scalar α] {n : Nat} {a b : Mat α n n}
    (h : ∀ i j : Fin n, j ≤ i → a[i][j] = b[i][j]) : cholesky a = cholesky b := by
  induction n with
  | zero => rfl
  | succ n ih =>
    have hcorner : a[0][0] = b[0][0] := h 0 0 (le_refl _)
    have hbelow (i : Fin n) : a[i.succ][0] = b[i.succ][0] := h i.succ 0 (Fin.zero_le _)
    simp only [cholesky, hcorner, hbelow]
    split
    · refine congrArg (Option.map _) (ih fun i j hji => ?_)
      have hentry : a[i.succ][j.succ] = b[i.succ][j.succ] :=
        h i.succ j.succ (Fin.succ_le_succ_iff.mpr hji)
      simp only [getElem_fin, Mat.getElem_ofFn]
      exact congrArg (· - _) hentry
    · rfl

theorem toMatrix_inverse {n : Nat} {a : Mat ℝ n n} (ha : a.toMatrix.PosDef) {f : Factor ℝ n}
    (hf : cholesky a = some f) : f.inverse.toMatrix = a.toMatrix⁻¹ := by
  obtain ⟨g, hg, hsolve⟩ := exists_cholesky a ha
  obtain rfl := Option.some.inj (hf.symm.trans hg)
  refine (Matrix.inv_eq_right_inv ?_).symm
  ext i j
  have hcolumn : (fun k => f.inverse.toMatrix k j) = coords (f.solve (single j 1)) := by
    funext k
    simp [Factor.inverse, Mat.toMatrix, coords]
  have hentry : (a.toMatrix * f.inverse.toMatrix) i j =
      (a.toMatrix *ᵥ fun k => f.inverse.toMatrix k j) i := rfl
  rw [hentry, hcolumn, hsolve]
  simp [single, coords, Matrix.one_apply]

section Damping

variable {n : Nat} (a : Mat ℝ n n)

noncomputable def flooredDiagonal : Mat ℝ n n :=
  .ofDiagonal (a.diagonal.map (Scalar.atLeast dampingFloor))

theorem toMatrix_flooredDiagonal :
    (flooredDiagonal a).toMatrix =
      Matrix.diagonal fun i => Scalar.atLeast dampingFloor (a.toMatrix i i) := by
  ext i j
  simp [flooredDiagonal, Mat.ofDiagonal, Mat.diagonal, Matrix.diagonal_apply, Mat.toMatrix]

theorem toMatrix_damped (damping : ℝ) :
    (damped a damping).toMatrix = a.toMatrix + damping • (flooredDiagonal a).toMatrix := by
  ext i j
  rw [toMatrix_flooredDiagonal]
  by_cases hij : i = j
  · subst hij
    simp [damped, Mat.toMatrix]
  · simp [damped, Mat.toMatrix, hij]

theorem dampingFloor_pos : (0 : ℝ) < dampingFloor := by
  unfold dampingFloor
  norm_num

theorem posDef_flooredDiagonal : (flooredDiagonal a).toMatrix.PosDef := by
  rw [toMatrix_flooredDiagonal]
  exact Matrix.PosDef.diagonal fun i => Scalar.atLeast_pos dampingFloor_pos _

variable {a} {damping : ℝ}

theorem isSymm_damped (ha : a.toMatrix.IsSymm) : (damped a damping).toMatrix.IsSymm := by
  rw [toMatrix_damped, toMatrix_flooredDiagonal]
  exact ha.add ((Matrix.isSymm_diagonal _).smul damping)

theorem exists_solveDamped_of_posDef (hpos : (damped a damping).toMatrix.PosDef) (b : Vector ℝ n) :
    ∃ d, solveDamped a b damping = some d ∧
      (damped a damping).toMatrix *ᵥ coords d = coords b := by
  obtain ⟨f, hf, hsolve⟩ := exists_cholesky _ hpos
  refine ⟨f.solve b, ?_, hsolve b⟩
  have hfinite : ∀ i : Fin n, Scalar.IsFinite (f.solve b)[i] := fun i => Scalar.isFinite_real _
  rw [solveDamped, hf]
  exact if_pos hfinite

theorem solveDamped_eq_none (ha : a.toMatrix.IsSymm) (hpos : ¬ (damped a damping).toMatrix.PosDef)
    (b : Vector ℝ n) : solveDamped a b damping = none := by
  unfold solveDamped
  cases hf : cholesky (damped a damping) with
  | none => rfl
  | some f => exact absurd (posDef_of_cholesky (isSymm_damped ha) hf) hpos

variable (ha : a.toMatrix.PosSemidef) (hdamping : 0 < damping)
include ha hdamping

theorem posDef_damped : (damped a damping).toMatrix.PosDef := by
  rw [toMatrix_damped]
  exact ((posDef_flooredDiagonal a).smul hdamping).posSemidef_add ha

/-- A normal matrix is never singular once it is damped. -/
theorem exists_solveDamped (b : Vector ℝ n) :
    ∃ d, solveDamped a b damping = some d ∧
      (damped a damping).toMatrix *ᵥ coords d = coords b :=
  exists_solveDamped_of_posDef (posDef_damped ha hdamping) b

end Damping

end SkyCamera.Linear
