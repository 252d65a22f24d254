import Mathlib.Algebra.BigOperators.Fin
import Mathlib.Data.Matrix.Mul
import SkyCamera.Linear.PseudoInverse
import SkyCamera.Proofs.RealScalar

/-!
Vectors and matrices of reals as functions of their indices, on which sums and products are those
of linear algebra.
-/
namespace SkyCamera

open Matrix

theorem Scalar.sum_real {n : Nat} (f : Fin n → ℝ) : Scalar.sum f = ∑ i, f i := by
  induction n with
  | zero => rw [Scalar.sum_empty, Fin.sum_univ_zero]
  | succ n ih => rw [Scalar.sum_succ, ih, Fin.sum_univ_castSucc]

variable {r c k n n' : Nat}

def Linear.coords (v : Vector ℝ n) : Fin n → ℝ := fun i => v[i]

def Mat.toMatrix (a : Mat ℝ r c) : Matrix (Fin r) (Fin c) ℝ := fun i j => a[i][j]

namespace Linear

noncomputable instance : HasPseudoInverse ℝ := ⟨Orthogonal.pseudoInverse⟩

theorem coords_injective {u v : Vector ℝ n} (h : coords u = coords v) : u = v :=
  Vector.ext fun i hi => congrFun h ⟨i, hi⟩

@[simp] theorem coords_ofFn (f : Fin n → ℝ) : coords (Vector.ofFn f) = f := by
  funext i
  simp [coords]

@[simp] theorem coords_add (u v : Vector ℝ n) : coords (u + v) = coords u + coords v := by
  funext i
  simp [coords]

@[simp] theorem coords_sub (u v : Vector ℝ n) : coords (u - v) = coords u - coords v := by
  funext i
  simp [coords]

@[simp] theorem coords_zero : coords (0 : Vector ℝ n) = 0 := by
  funext i
  simp [coords]

theorem coords_eq_zero_iff (v : Vector ℝ n) : coords v = 0 ↔ v = 0 := by
  constructor
  · intro h
    exact coords_injective (h.trans coords_zero.symm)
  · rintro rfl
    exact coords_zero

/-- A running maximum is bounded where its start and every term are. -/
theorem foldl_le_iff {β : Type} {x : ℝ} {g : ℝ → β → ℝ} {bounded : β → Prop}
    (hg : ∀ s b, g s b ≤ x ↔ s ≤ x ∧ bounded b) (v : Vector β n) (s : ℝ) :
    v.foldl g s ≤ x ↔ s ≤ x ∧ ∀ i : Fin n, bounded v[i] := by
  have hlist (l : List β) (s : ℝ) : l.foldl g s ≤ x ↔ s ≤ x ∧ ∀ b ∈ l, bounded b := by
    induction l generalizing s with
    | nil => simp
    | cons b l ih => rw [List.foldl_cons, ih, hg, List.forall_mem_cons, and_assoc]
  have hentries : (∀ b ∈ v.toList, bounded b) ↔ ∀ i : Fin n, bounded v[i] := by
    constructor
    · exact fun h i => h _ (by simp)
    · intro h b hb
      obtain ⟨i, hi, rfl⟩ := List.getElem_of_mem hb
      simpa using h ⟨i, by simpa using hi⟩
  rw [← Vector.foldl_toList, hlist, hentries]

theorem dot_real (u v : Vector ℝ n) : dot u v = coords u ⬝ᵥ coords v := Scalar.sum_real _

theorem norm_zero : norm (0 : Vector ℝ n) = 0 := by
  show Real.sqrt _ = 0
  rw [dot_real, coords_zero, zero_dotProduct, Real.sqrt_zero]

theorem norm_nonneg (v : Vector ℝ n) : 0 ≤ norm v := Real.sqrt_nonneg _

end Linear

namespace Mat

open Linear

theorem toMatrix_injective {a b : Mat ℝ r c} (h : a.toMatrix = b.toMatrix) : a = b :=
  Vector.ext fun i hi => Vector.ext fun j hj => congrFun (congrFun h ⟨i, hi⟩) ⟨j, hj⟩

theorem exists_toMatrix (a : Matrix (Fin r) (Fin c) ℝ) : ∃ b : Mat ℝ r c, b.toMatrix = a :=
  ⟨.ofFn fun i j => a i j, Matrix.ext fun i j => getElem_ofFn _ i j i.isLt j.isLt⟩

@[simp] theorem coords_mulVec (a : Mat ℝ r c) (v : Vector ℝ c) :
    coords (a.mulVec v) = a.toMatrix *ᵥ coords v := by
  funext i
  show (a.mulVec v)[i.val] = _
  rw [getElem_mulVec, dot_real]
  rfl

@[simp] theorem toMatrix_transpose (a : Mat ℝ r c) : a.transpose.toMatrix = a.toMatrixᵀ := by
  ext i j
  exact getElem_transpose a i j i.isLt j.isLt

@[simp] theorem toMatrix_mul (a : Mat ℝ r k) (b : Mat ℝ k c) :
    (a.mul b).toMatrix = a.toMatrix * b.toMatrix := by
  ext i j
  refine (getElem_mul a b i j i.isLt j.isLt).trans ?_
  rw [dot_real, Matrix.mul_apply']
  refine congrArg (fun column => coords a[i.val] ⬝ᵥ column) (funext fun l => ?_)
  exact getElem_transpose b j l j.isLt l.isLt

@[simp] theorem toMatrix_ofFn (f : Fin r → Fin c → ℝ) : (Mat.ofFn f).toMatrix = f := by
  ext i j
  exact getElem_ofFn f i j i.isLt j.isLt

theorem toMatrix_scale (a : Mat ℝ r c) (k : ℝ) : (a.scale k).toMatrix = k • a.toMatrix := by
  ext i j
  simp [scale, toMatrix, mul_comm]

theorem toMatrix_ofDiagonal (v : Vector ℝ n) :
    (ofDiagonal v).toMatrix = Matrix.diagonal (coords v) := by
  ext i j
  rw [ofDiagonal, toMatrix_ofFn, Matrix.diagonal_apply]
  rfl

theorem toMatrix_scaleRows (v : Vector ℝ r) (a : Mat ℝ r c) :
    (a.scaleRows v).toMatrix = Matrix.diagonal (coords v) * a.toMatrix := by
  ext i j
  rw [scaleRows, toMatrix_ofFn, Matrix.diagonal_mul]
  exact mul_comm _ _

/-- The largest entry is the least bound of all. -/
theorem largest_le_iff (a : Mat ℝ r c) (x : ℝ) :
    a.largest ≤ x ↔ 0 ≤ x ∧ ∀ (i : Fin r) (j : Fin c), |a.toMatrix i j| ≤ x := by
  have hlarger (s y : ℝ) :
      (if Scalar.abs y ≤ s then s else Scalar.abs y) ≤ x ↔ s ≤ x ∧ |y| ≤ x := by
    rw [Scalar.abs_real]
    split
    next h => exact (and_iff_left_of_imp h.trans).symm
    next h => exact (and_iff_right_of_imp (not_le.mp h).le.trans).symm
  have hcolumn (s : ℝ) (column : Vector ℝ r) := foldl_le_iff hlarger column s
  have hall := foldl_le_iff hcolumn a.transpose 0
  rw [largest]
  refine hall.trans (and_congr_right' ?_)
  rw [forall_comm]
  refine forall_congr' fun i => forall_congr' fun j => ?_
  rw [getElem_fin, getElem_fin, getElem_transpose]
  rfl

/-- The largest entry does not depend on the order of rows and columns. -/
theorem largest_submatrix {a : Mat ℝ n n} {a' : Mat ℝ n' n'} (e : Fin n' ≃ Fin n)
    (h : a'.toMatrix = a.toMatrix.submatrix e e) : a'.largest = a.largest := by
  refine eq_of_forall_ge_iff fun x => ?_
  rw [largest_le_iff, largest_le_iff, h]
  refine and_congr_right' ?_
  simp only [submatrix_apply]
  exact e.forall_congr fun i => e.forall_congr fun j => Iff.rfl

/-- The symmetry test over the reals, where every comparison is decided. -/
theorem isSymmetric_iff (tolerance : ℝ) (a : Mat ℝ n n) :
    a.IsSymmetric tolerance ↔
      ∀ i j, i ≠ j → |a.toMatrix i j - a.toMatrix j i| ≤ tolerance * a.magnitude := by
  unfold IsSymmetric IsSymmetricWithin
  simp only [Scalar.abs_real, not_lt]
  constructor
  · intro h i j hne
    obtain hij | hji := hne.lt_or_gt
    · exact h i j hij
    · rw [abs_sub_comm]
      exact h j i hji
  · exact fun h i j hij => h i j hij.ne

theorem isSymmetric_submatrix {a : Mat ℝ n n} {a' : Mat ℝ n' n'} (e : Fin n' ≃ Fin n)
    (h : a'.toMatrix = a.toMatrix.submatrix e e) (tolerance : ℝ) :
    a'.IsSymmetric tolerance ↔ a.IsSymmetric tolerance := by
  rw [isSymmetric_iff, isSymmetric_iff, magnitude, magnitude, largest_submatrix e h, h]
  simp only [submatrix_apply]
  exact e.forall_congr fun i => e.forall_congr fun j => by rw [e.injective.ne_iff]

end Mat
end SkyCamera
