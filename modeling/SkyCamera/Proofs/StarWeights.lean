import SkyCamera.Proofs.BlockCovariance
import SkyCamera.Proofs.CalibrationErrors
import SkyCamera.Proofs.SolverCalls

/-!
The weights of stars that have a covariance each. A matrix with blocks along its diagonal has the
inverses of the blocks along the diagonal of its inverse, so each pair of data is weighted by its
own block, `χ²` is a sum over the stars, and what is propagated is one too.
-/
namespace SkyCamera

open Matrix Linear

section Pairs

variable {n s c : ℕ} (h : n = 2 * s)

/-- The places of data that come in pairs: `2 k` and `2 k + 1` for pair `k`. -/
def pairPlaces : Fin 2 × Fin s ≃ Fin n :=
  ((Equiv.prodComm (Fin 2) (Fin s)).trans finProdFinEquiv).trans
    (finCongr ((Nat.mul_comm s 2).trans h.symm))

theorem val_pairPlaces (x : Fin 2) (k : Fin s) : (pairPlaces h (x, k)).val = 2 * k + x :=
  Nat.add_comm x.val (2 * k.val)

def pairOf {β : Type} (v : Vector β n) (k : Fin s) : Vector β 2 :=
  .ofFn fun x => v[pairPlaces h (x, k)]

def pairRows {α : Type} (a : Mat α n c) (k : Fin s) : Mat α 2 c := pairOf h a k

theorem coords_pairOf (v : Vector ℝ n) (k : Fin s) :
    coords (pairOf h v k) = fun x => coords v (pairPlaces h (x, k)) := coords_ofFn _

theorem toMatrix_pairRows (a : Mat ℝ n c) (k : Fin s) :
    (pairRows h a k).toMatrix = a.toMatrix.submatrix (fun x => pairPlaces h (x, k)) id := by
  ext x j
  simp [pairRows, pairOf, Mat.toMatrix]

theorem sum_pairs (g : Fin n → ℝ) : ∑ i, g i = ∑ k, ∑ x, g (pairPlaces h (x, k)) := by
  rw [← (pairPlaces h).sum_comp, Fintype.sum_prod_type_right]

/-- A matrix that joins only the two data of a pair, with these blocks. -/
def IsPaired (a : Matrix (Fin n) (Fin n) ℝ) (blocks : Fin s → Matrix (Fin 2) (Fin 2) ℝ) : Prop :=
  a.submatrix (pairPlaces h) (pairPlaces h) = Matrix.blockDiagonal blocks

namespace IsPaired

variable {h} {a : Matrix (Fin n) (Fin n) ℝ} {blocks : Fin s → Matrix (Fin 2) (Fin 2) ℝ}
  (ha : IsPaired h a blocks)
include ha

/-- A paired matrix acts on each pair by its block. -/
theorem mulVec_apply (v : Fin n → ℝ) (x : Fin 2) (k : Fin s) :
    (a *ᵥ v) (pairPlaces h (x, k)) = (blocks k *ᵥ fun y => v (pairPlaces h (y, k))) x := by
  have hentry (y : Fin 2) (l : Fin s) : a (pairPlaces h (x, k)) (pairPlaces h (y, l)) =
      if k = l then blocks k x y else 0 :=
    (congrFun (congrFun ha (x, k)) (y, l)).trans (Matrix.blockDiagonal_apply' blocks x k y l)
  rw [mulVec, dotProduct, sum_pairs h, Finset.sum_eq_single k]
  · simp only [hentry, if_true]
    rfl
  · intro l _ hne
    simp [hentry, hne.symm]
  · exact fun hk => absurd (Finset.mem_univ k) hk

theorem inv (hblocks : ∀ k, IsUnit (blocks k).det) : IsPaired h a⁻¹ fun k => (blocks k)⁻¹ := by
  have hone : (fun k => blocks k * (blocks k)⁻¹) = 1 :=
    funext fun k => Matrix.mul_nonsing_inv _ (hblocks k)
  rw [IsPaired, ← Matrix.inv_submatrix_equiv, ha]
  refine Matrix.inv_eq_right_inv ?_
  rw [← Matrix.blockDiagonal_mul, hone, Matrix.blockDiagonal_one]

theorem dotProduct_mulVec (u v : Fin n → ℝ) :
    u ⬝ᵥ a *ᵥ v = ∑ k, (fun x => u (pairPlaces h (x, k))) ⬝ᵥ
      blocks k *ᵥ fun x => v (pairPlaces h (x, k)) := by
  rw [dotProduct, sum_pairs h]
  simp only [ha.mulVec_apply]
  rfl

/-- Positive definite blocks make the whole positive definite: its form is the sum of theirs. -/
theorem posDef (hblocks : ∀ k, (blocks k).PosDef) : a.PosDef := by
  refine Matrix.PosDef.of_dotProduct_mulVec_pos ?_ fun v hv => ?_
  · rw [← Matrix.isHermitian_submatrix_equiv (pairPlaces h), ha,
      Matrix.isHermitian_blockDiagonal_iff]
    exact fun k => (hblocks k).1
  · obtain ⟨i, hi⟩ := Function.ne_iff.mp hv
    obtain ⟨⟨x, k⟩, rfl⟩ := (pairPlaces h).surjective i
    rw [star_trivial, ha.dotProduct_mulVec]
    -- The pair in which `v` is not zero makes the sum positive.
    refine Finset.sum_pos' (fun l _ => ?_) ⟨k, Finset.mem_univ k, ?_⟩
    · exact (hblocks l).posSemidef.dotProduct_mulVec_nonneg _
    · exact (hblocks k).dotProduct_mulVec_pos fun hzero => hi (congrFun hzero x)

end IsPaired

end Pairs

namespace Covariance2

noncomputable def matrix (b : Covariance2 ℝ) : Matrix (Fin 2) (Fin 2) ℝ := b.toMat.toMatrix

theorem posDef_matrix {b : Covariance2 ℝ} (hsymm : b.xy = b.yx) (hb : b.IsPositive) :
    b.matrix.PosDef := by
  obtain ⟨f, hf⟩ := (exists_factor_ofBlocks_iff [b]).mpr (List.forall_mem_singleton.mpr hb)
  rw [← b.toMat_eq_ofBlocks] at hf
  refine posDef_of_cholesky ?_ hf
  ext x y
  rw [Matrix.transpose_apply, toMat, Mat.toMatrix_ofFn]
  fin_cases x <;> fin_cases y
  · rfl
  · exact hsymm.symm
  · exact hsymm
  · rfl

end Covariance2

theorem isPaired_blockDiagonal {n : ℕ} {blocks : List (Covariance2 ℝ)}
    (h : n = 2 * blocks.length) :
    IsPaired h (blockDiagonal n blocks).toMatrix fun k => (blocks.get k).matrix := by
  ext ⟨x, k⟩ ⟨y, l⟩
  rw [Matrix.submatrix_apply, Matrix.blockDiagonal_apply',
    toMatrix_blockDiagonal blocks (val_pairPlaces h x k) (val_pairPlaces h y l)]
  simp only [Fin.val_inj]
  simp [Covariance2.matrix, Covariance2.toMat]

namespace DataCovariance

variable {n : ℕ} {blocks : List (Covariance2 ℝ)}

/-- A covariance under which each star has its own weights, whatever the other stars are. -/
structure WeighsStars (h : n = 2 * blocks.length) (cov : DataCovariance ℝ n) : Prop where
  chi2_eq : ∀ r, cov.chi2 r = ∑ k, coords (pairOf h r k) ⬝ᵥ
    (blocks.get k).matrix⁻¹ *ᵥ coords (pairOf h r k)
  weightRows_eq : ∀ {c : ℕ} (j : Mat ℝ n c) k, (pairRows h (cov.weightRows j) k).toMatrix =
    (blocks.get k).matrix⁻¹ * (pairRows h j k).toMatrix
  propagate_eq : ∀ {c : ℕ} (d : Mat ℝ n c), (cov.propagate d).toMatrix =
    ∑ k, (pairRows h d k).toMatrixᵀ * (blocks.get k).matrix * (pairRows h d k).toMatrix
  chi2_nonneg : ∀ r, 0 ≤ cov.chi2 r
  chi2_eq_zero_iff : ∀ r, cov.chi2 r = 0 ↔ r = 0

/-- The inverse of a block matrix has the inverse blocks, so that no star weighs on another. -/
theorem weighsStars_of_ofMatrix (h : n = 2 * blocks.length)
    (hblocks : ∀ k, (blocks.get k).matrix.PosDef) {cov : DataCovariance ℝ n}
    (hcov : ofMatrix (blockDiagonal n blocks) = .ok cov) : cov.WeighsStars h := by
  have hpaired := isPaired_blockDiagonal h
  have hposDef := hpaired.posDef hblocks
  have hvalid : cov.IsValid := .inr ⟨_, hposDef, hcov⟩
  have hinverse : IsPaired h cov.weightMatrix fun k => (blocks.get k).matrix⁻¹ := by
    obtain ⟨f, hf, rfl⟩ := exists_factor_of_ofMatrix hcov
    rw [weightMatrix, toMatrix_inverse hposDef hf]
    exact hpaired.inv fun k => (hblocks k).isUnit.map Matrix.detMonoidHom
  exact {
    chi2_eq := fun r => by
      simp only [coords_pairOf]
      rw [chi2_real, hinverse.dotProduct_mulVec]
    weightRows_eq := fun j k => by
      ext x c
      rw [toMatrix_pairRows, toMatrix_pairRows, toMatrix_weightRows]
      exact hinverse.mulVec_apply (fun i => j.toMatrix i c) x k
    propagate_eq := fun d => by
      obtain ⟨f, -, rfl⟩ := exists_factor_of_ofMatrix hcov
      ext c c'
      rw [propagate, Mat.toMatrix_mul, Mat.toMatrix_mul, Mat.toMatrix_transpose, Matrix.mul_assoc,
        Matrix.sum_apply]
      refine (hpaired.dotProduct_mulVec (fun i => d.toMatrix i c) fun i => d.toMatrix i c').trans ?_
      refine Finset.sum_congr rfl fun k _ => ?_
      rw [toMatrix_pairRows, Matrix.mul_assoc]
      rfl
    chi2_nonneg := chi2_nonneg hvalid
    chi2_eq_zero_iff := chi2_eq_zero_iff hvalid }

end DataCovariance

namespace Solver

/-- A solver that is given the covariances of stars weighs each star by its own. -/
theorem setCovariance_weighsStars {m n : ℕ} (s : Solver ℝ m n) {blocks : List (Covariance2 ℝ)}
    (h : n = 2 * blocks.length) (hblocks : ∀ b ∈ blocks, b.matrix.PosDef) :
    ∃ cov : DataCovariance ℝ n, cov.WeighsStars h ∧
      s.setCovariance (blockEntries blocks) = .ok { s with covariance := cov } := by
  have hall (k : Fin blocks.length) : (blocks.get k).matrix.PosDef :=
    hblocks _ (List.get_mem blocks k)
  obtain ⟨cov, hcov⟩ := DataCovariance.exists_ofMatrix ((isPaired_blockDiagonal h).posDef hall)
  refine ⟨cov, DataCovariance.weighsStars_of_ofMatrix h hall hcov, ?_⟩
  rw [setCovariance_blockEntries s h, hcov]
  rfl

theorem setCovariance_weighsStars_twoStars :
    ∃ (blocks : List (Covariance2 ℝ)) (h : 4 = 2 * blocks.length) (cov : DataCovariance ℝ 4),
      blocks = [⟨1 + 1, 1, 1, 1⟩, ⟨1, -1, -1, 1 + 1⟩] ∧ cov.WeighsStars h ∧
      (ofModel (level 4) .standard).setCovariance (blockEntries blocks) =
        .ok { ofModel (level 4) .standard with covariance := cov } := by
  have hfirst : (⟨1 + 1, 1, 1, 1⟩ : Covariance2 ℝ).matrix.PosDef :=
    Covariance2.posDef_matrix rfl (by norm_num [Covariance2.IsPositive])
  have hsecond : (⟨1, -1, -1, 1 + 1⟩ : Covariance2 ℝ).matrix.PosDef :=
    Covariance2.posDef_matrix rfl (by norm_num [Covariance2.IsPositive])
  obtain ⟨cov, hcov, hset⟩ := setCovariance_weighsStars (ofModel (level 4) .standard) rfl
    (List.forall_mem_cons.mpr ⟨hfirst, List.forall_mem_singleton.mpr hsecond⟩)
  exact ⟨_, rfl, cov, rfl, hcov, hset⟩

end Solver

end SkyCamera
