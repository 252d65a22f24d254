import SkyCamera.Proofs.ReorderedStars

/-!
Covariance matrices that are made of blocks, one for each star. Such a matrix has a factor where
each block has one. But how far it may be from symmetric is measured by its largest entry: a block
that is accepted on its own is accepted among others, and one that is not may be, beside a larger
one.
-/
namespace SkyCamera

open Matrix Linear

namespace Covariance2

def toMat {α : Type} [Scalar α] (b : Covariance2 α) : Mat α 2 2 := .ofFn b.entry

/-- Whether the lower triangle is that of a positive definite matrix. -/
def IsPositive (b : Covariance2 ℝ) : Prop := 0 < b.xx ∧ b.yx * b.yx < b.xx * b.yy

noncomputable def asymmetry (b : Covariance2 ℝ) : ℝ := |b.xy - b.yx|

theorem largest_toMat_le_iff (b : Covariance2 ℝ) (t : ℝ) :
    b.toMat.largest ≤ t ↔ 0 ≤ t ∧ (|b.xx| ≤ t ∧ |b.xy| ≤ t) ∧ |b.yx| ≤ t ∧ |b.yy| ≤ t := by
  simp only [Mat.largest_le_iff, Fin.forall_fin_two, toMat, Mat.toMatrix_ofFn, entry]

end Covariance2

/-- A matrix with a block in its upper corner, which the other rows and columns do not meet. -/
structure StartsWith {n : Nat} (a : Mat ℝ (n + 2) (n + 2)) (b : Covariance2 ℝ) (rest : Mat ℝ n n) :
    Prop where
  xx : a.toMatrix 0 0 = b.xx
  xy : a.toMatrix 0 1 = b.xy
  yx : a.toMatrix 1 0 = b.yx
  yy : a.toMatrix 1 1 = b.yy
  right : ∀ j : Fin n, a.toMatrix 0 j.succ.succ = 0 ∧ a.toMatrix 1 j.succ.succ = 0
  left : ∀ i : Fin n, a.toMatrix i.succ.succ 0 = 0 ∧ a.toMatrix i.succ.succ 1 = 0
  rest : ∀ i j : Fin n, a.toMatrix i.succ.succ j.succ.succ = rest.toMatrix i j

/-- The leading pair of rows of a block matrix holds the first block, and what remains is the matrix
of the other blocks. -/
theorem startsWith_blockDiagonal (n : Nat) (b : Covariance2 ℝ) (blocks : List (Covariance2 ℝ)) :
    StartsWith (blockDiagonal (n + 2) (b :: blocks)) b (blockDiagonal n blocks) := by
  have hpair (i : Fin n) :
      i.val = 2 * (i.val / 2) + (⟨i.val % 2, Nat.mod_lt i.val Nat.two_pos⟩ : Fin 2) :=
    (Nat.div_add_mod i.val 2).symm
  have hlater (i : Fin n) :
      i.succ.succ.val =
        2 * (i.val / 2 + 1) + (⟨i.val % 2, Nat.mod_lt i.val Nat.two_pos⟩ : Fin 2) := by
    show i.val + 2 = 2 * (i.val / 2 + 1) + i.val % 2
    omega
  have hfirst {i j : Fin (n + 2)} {x y : Fin 2} (hi : i.val = 2 * 0 + x) (hj : j.val = 2 * 0 + y) :
      (blockDiagonal (n + 2) (b :: blocks)).toMatrix i j = b.entry x y :=
    (toMatrix_blockDiagonal (b :: blocks) hi hj).trans (if_pos rfl)
  have hright {i : Fin (n + 2)} {x : Fin 2} (hi : i.val = 2 * 0 + x) (j : Fin n) :
      (blockDiagonal (n + 2) (b :: blocks)).toMatrix i j.succ.succ = 0 :=
    (toMatrix_blockDiagonal (b :: blocks) hi (hlater j)).trans (if_neg (Nat.succ_ne_zero _).symm)
  have hleft {j : Fin (n + 2)} {y : Fin 2} (hj : j.val = 2 * 0 + y) (i : Fin n) :
      (blockDiagonal (n + 2) (b :: blocks)).toMatrix i.succ.succ j = 0 :=
    (toMatrix_blockDiagonal (b :: blocks) (hlater i) hj).trans (if_neg (Nat.succ_ne_zero _))
  have h0 : (0 : Fin (n + 2)).val = 2 * 0 + (0 : Fin 2).val := rfl
  have h1 : (1 : Fin (n + 2)).val = 2 * 0 + (1 : Fin 2).val := rfl
  refine ⟨hfirst h0 h0, hfirst h0 h1, hfirst h1 h0, hfirst h1 h1,
    fun j => ⟨hright h0 j, hright h1 j⟩, fun i => ⟨hleft h0 i, hleft h1 i⟩, fun i j => ?_⟩
  rw [toMatrix_blockDiagonal (b :: blocks) (hlater i) (hlater j),
    toMatrix_blockDiagonal blocks (hpair i) (hpair j), List.getElem?_cons_succ]
  simp only [Nat.add_right_cancel_iff]

namespace Linear

/-- A factorisation peels off one row: its pivot has to be positive, and the remainder has to have a
factor. -/
theorem exists_factor_succ_iff {n : Nat} (a : Mat ℝ (n + 1) (n + 1)) :
    (∃ f, cholesky a = some f) ↔
      0 < a.toMatrix 0 0 ∧ ∃ f, cholesky (remainder a) = some f := by
  by_cases hcorner : 0 < a.toMatrix 0 0
  · rw [cholesky_succ a hcorner, and_iff_right hcorner]
    simp
  · have hnone : cholesky a = none := by
      rw [cholesky]
      exact if_neg hcorner
    simp [hnone, hcorner]

theorem below_eq_zero {n : Nat} {a : Mat ℝ (n + 1) (n + 1)} (hcorner : 0 < a.toMatrix 0 0)
    {i : Fin n} (hentry : a.toMatrix i.succ 0 = 0) : (below a)[i] = 0 := by
  rw [entry_below hcorner] at hentry
  exact (mul_eq_zero.mp hentry).resolve_left (pivot_pos hcorner).ne'

end Linear

namespace StartsWith

variable {n : Nat} {a : Mat ℝ (n + 2) (n + 2)} {b : Covariance2 ℝ} {rest : Mat ℝ n n}
  (h : StartsWith a b rest)
include h

/-- The two columns of the block are eliminated without a trace in the rest. -/
theorem exists_factor_iff :
    (∃ f, cholesky a = some f) ↔ b.IsPositive ∧ ∃ f, cholesky rest = some f := by
  rw [exists_factor_succ_iff, h.xx, Covariance2.IsPositive, and_assoc]
  refine and_congr_right fun hxx => ?_
  have hcorner : 0 < a.toMatrix 0 0 := h.xx.symm ▸ hxx
  have hcolumn (i : Fin n) : (below a)[i.succ] = 0 := below_eq_zero hcorner (h.left i).1
  have hsecond : b.xx * (remainder a).toMatrix 0 0 = b.xx * b.yy - b.yx * b.yx := by
    have hentry : b.yy = (remainder a).toMatrix 0 0 + (below a)[0] * (below a)[0] :=
      h.yy.symm.trans (entry_remainder 0 0)
    have hyx : b.yx = pivot a * (below a)[0] := h.yx.symm.trans (entry_below hcorner 0)
    have hpivot : pivot a * pivot a = b.xx := (pivot_mul_self hcorner).trans h.xx
    rw [hyx, hentry, ← hpivot]
    ring
  have hpos : 0 < (remainder a).toMatrix 0 0 ↔ b.yx * b.yx < b.xx * b.yy := by
    rw [← mul_pos_iff_of_pos_left hxx, hsecond, sub_pos]
  rw [exists_factor_succ_iff, hpos]
  refine and_congr_right fun hyy => ?_
  have hrest : cholesky (remainder (remainder a)) = cholesky rest := by
    have hcorner' : 0 < (remainder a).toMatrix 0 0 := hpos.mpr hyy
    have hcolumn' (i : Fin n) : (below (remainder a))[i] = 0 := by
      have hentry : a.toMatrix i.succ.succ 1 = _ := entry_remainder i.succ 0
      rw [(h.left i).2, hcolumn, zero_mul, add_zero] at hentry
      exact below_eq_zero hcorner' hentry.symm
    refine cholesky_congr fun i j _ => ?_
    have hentry := h.rest i j
    rw [entry_remainder, entry_remainder, hcolumn, hcolumn', zero_mul, zero_mul, add_zero,
      add_zero] at hentry
    exact hentry
  rw [hrest]

/-- The largest entry stands in the first block or in the rest. -/
theorem largest_le_iff (t : ℝ) : a.largest ≤ t ↔ b.toMat.largest ≤ t ∧ rest.largest ≤ t := by
  simp only [b.largest_toMat_le_iff, Mat.largest_le_iff, Fin.forall_fin_succ,
    Fin.succ_zero_eq_one, h.xx, h.xy, h.yx, h.yy, h.right, h.left, h.rest, abs_zero]
  constructor
  · rintro ⟨ht, ⟨hxx, hxy, -⟩, ⟨hyx, hyy, -⟩, hrest⟩
    exact ⟨⟨ht, ⟨hxx, hxy⟩, hyx, hyy⟩, ht, fun i => (hrest i).2.2⟩
  · rintro ⟨⟨ht, ⟨hxx, hxy⟩, hyx, hyy⟩, -, hrest⟩
    exact ⟨ht, ⟨hxx, hxy, fun _ => ht⟩, ⟨hyx, hyy, fun _ => ht⟩, fun i => ⟨ht, ht, hrest i⟩⟩

/-- Opposite entries differ within the first block or within the rest, and are zero elsewhere. -/
theorem forall_abs_sub_le_iff (t : ℝ) :
    (∀ i j, |a.toMatrix i j - a.toMatrix j i| ≤ t) ↔
      b.asymmetry ≤ t ∧ ∀ i j, |rest.toMatrix i j - rest.toMatrix j i| ≤ t := by
  simp only [Fin.forall_fin_succ, Fin.succ_zero_eq_one, h.xx, h.xy, h.yx, h.yy, h.right, h.left,
    h.rest, sub_self, abs_zero, Covariance2.asymmetry]
  constructor
  · rintro ⟨⟨-, hxy, -⟩, -, hrest⟩
    exact ⟨hxy, fun i => (hrest i).2.2⟩
  · rintro ⟨hxy, hrest⟩
    have ht : 0 ≤ t := (abs_nonneg _).trans hxy
    have hyx : |b.yx - b.xy| ≤ t := (abs_sub_comm _ _).trans_le hxy
    exact ⟨⟨ht, hxy, fun _ => ht⟩, ⟨hyx, ht, fun _ => ht⟩, fun i => ⟨ht, ht, hrest i⟩⟩

end StartsWith

section Blocks

variable (blocks : List (Covariance2 ℝ))

noncomputable def ofBlocks : Mat ℝ (2 * blocks.length) (2 * blocks.length) :=
  blockDiagonal (2 * blocks.length) blocks

theorem startsWith_ofBlocks (b : Covariance2 ℝ) :
    StartsWith (ofBlocks (b :: blocks)) b (ofBlocks blocks) :=
  startsWith_blockDiagonal (2 * blocks.length) b blocks

/-- Induction over the blocks: each of them is factored by itself. -/
theorem exists_factor_ofBlocks_iff :
    (∃ f, cholesky (ofBlocks blocks) = some f) ↔ ∀ b ∈ blocks, b.IsPositive := by
  induction blocks with
  | nil => exact iff_of_true ⟨.empty, rfl⟩ nofun
  | cons b blocks ih =>
    rw [List.forall_mem_cons, ← ih]
    exact (startsWith_ofBlocks blocks b).exists_factor_iff

theorem largest_ofBlocks_le_iff (t : ℝ) :
    (ofBlocks blocks).largest ≤ t ↔ 0 ≤ t ∧ ∀ b ∈ blocks, b.toMat.largest ≤ t := by
  induction blocks with
  | nil =>
    rw [Mat.largest_le_iff]
    exact and_congr_right' (iff_of_true (fun i => i.elim0) nofun)
  | cons b blocks ih =>
    rw [List.forall_mem_cons, and_left_comm, ← ih]
    exact (startsWith_ofBlocks blocks b).largest_le_iff t

theorem forall_abs_sub_ofBlocks_le_iff (t : ℝ) :
    (∀ i j, |(ofBlocks blocks).toMatrix i j - (ofBlocks blocks).toMatrix j i| ≤ t) ↔
      ∀ b ∈ blocks, b.asymmetry ≤ t := by
  induction blocks with
  | nil => exact iff_of_true (fun i => i.elim0) nofun
  | cons b blocks ih =>
    rw [List.forall_mem_cons, ← ih]
    exact (startsWith_ofBlocks blocks b).forall_abs_sub_le_iff t

theorem Covariance2.toMat_eq_ofBlocks (b : Covariance2 ℝ) : b.toMat = ofBlocks [b] := by
  have h := startsWith_ofBlocks [] b
  have hentry : ∀ i j : Fin 2, b.toMat.toMatrix i j = (ofBlocks [b]).toMatrix i j := by
    simp only [Fin.forall_fin_two, toMat, Mat.toMatrix_ofFn, entry]
    exact ⟨⟨h.xx.symm, h.xy.symm⟩, h.yx.symm, h.yy.symm⟩
  exact Mat.toMatrix_injective (Matrix.ext hentry)

theorem magnitude_ofBlocks_le_iff (t : ℝ) :
    (ofBlocks blocks).magnitude ≤ t ↔
      Scalar.smallest ≤ t ∧ ∀ b ∈ blocks, b.toMat.magnitude ≤ t := by
  simp only [Mat.magnitude, Scalar.atLeast_real, max_le_iff, largest_ofBlocks_le_iff]
  constructor
  · rintro ⟨⟨-, hblocks⟩, hsmallest⟩
    exact ⟨hsmallest, fun b hb => ⟨hblocks b hb, hsmallest⟩⟩
  · rintro ⟨hsmallest, hblocks⟩
    exact ⟨⟨Scalar.smallest_pos.le.trans hsmallest, fun b hb => (hblocks b hb).1⟩, hsmallest⟩

end Blocks

namespace DataCovariance

def IsAccepted {n : Nat} (a : Mat ℝ n n) : Prop := ∃ cov, ofMatrix a = .ok cov

/-- Over the reals a factor and a small asymmetry decide the check, since every number is finite. -/
theorem isAccepted_iff {n : Nat} (a : Mat ℝ n n) :
    IsAccepted a ↔
      (∃ f, cholesky a = some f) ∧
        ∀ i j, |a.toMatrix i j - a.toMatrix j i| ≤ symmetryTolerance * a.magnitude := by
  have hsymm : a.IsSymmetric symmetryTolerance ↔
      ∀ i j, |a.toMatrix i j - a.toMatrix j i| ≤ symmetryTolerance * a.magnitude := by
    rw [Mat.isSymmetric_iff]
    refine forall₂_congr fun i j => ?_
    by_cases hij : i = j
    · subst hij
      simpa using symmetryBound_nonneg a
    · simp [hij]
  rw [← hsymm, IsAccepted, ofMatrix]
  split
  · next h =>
    cases hf : cholesky a <;> simp [h]
  · next h => simp [h]

theorem isAccepted_ofBlocks_iff (blocks : List (Covariance2 ℝ)) :
    IsAccepted (ofBlocks blocks) ↔ ∀ b ∈ blocks,
      b.IsPositive ∧ b.asymmetry ≤ symmetryTolerance * (ofBlocks blocks).magnitude := by
  rw [isAccepted_iff, exists_factor_ofBlocks_iff, forall_abs_sub_ofBlocks_le_iff]
  simp only [forall_and]

theorem isAccepted_toMat_iff (b : Covariance2 ℝ) :
    IsAccepted b.toMat ↔ b.IsPositive ∧ b.asymmetry ≤ symmetryTolerance * b.toMat.magnitude := by
  rw [b.toMat_eq_ofBlocks, isAccepted_ofBlocks_iff]
  simp

theorem isAccepted_dataCovariance_iff {f : StarFit ℝ} {blocks : List (Covariance2 ℝ)}
    (h : f.covariances? = some blocks) (sigma : ℝ) :
    (∃ cov, f.dataCovariance sigma = .ok cov) ↔ IsAccepted (ofBlocks blocks) := by
  have hcount {n : Nat} (hn : n = 2 * blocks.length) :
      (∃ cov, ofMatrix (blockDiagonal n blocks) = .ok cov) ↔ IsAccepted (ofBlocks blocks) := by
    subst hn
    exact Iff.rfl
  rw [StarFit.dataCovariance, h]
  exact hcount (StarFit.dataCount_of_covariances? h)

/-- Which matrices of blocks are accepted, beside which blocks are accepted on their own. -/
structure BlockAcceptance (blocks : List (Covariance2 ℝ)) : Prop where
  accepted_iff : IsAccepted (ofBlocks blocks) ↔ ∀ b ∈ blocks,
    b.IsPositive ∧ b.asymmetry ≤ symmetryTolerance * (ofBlocks blocks).magnitude
  block_accepted_iff : ∀ b ∈ blocks,
    (IsAccepted b.toMat ↔ b.IsPositive ∧ b.asymmetry ≤ symmetryTolerance * b.toMat.magnitude)
  positive_iff : ∀ b ∈ blocks, (b.IsPositive ↔ (mirrored b.toMat).toMatrix.PosDef)
  magnitude_le_iff : ∀ t, (ofBlocks blocks).magnitude ≤ t ↔
    Scalar.smallest ≤ t ∧ ∀ b ∈ blocks, b.toMat.magnitude ≤ t
  accepted_of_blocks : (∀ b ∈ blocks, IsAccepted b.toMat) → IsAccepted (ofBlocks blocks)
  positive_of_accepted : IsAccepted (ofBlocks blocks) → ∀ b ∈ blocks, b.IsPositive
  /-- The whole stands for its blocks if none is too far from symmetric on its own only. -/
  accepted_iff_of_clear : (∀ b ∈ blocks,
      b.asymmetry ≤ symmetryTolerance * (ofBlocks blocks).magnitude →
        b.asymmetry ≤ symmetryTolerance * b.toMat.magnitude) →
    (IsAccepted (ofBlocks blocks) ↔ ∀ b ∈ blocks, IsAccepted b.toMat)
  /-- Whether a block is symmetric does not matter beside one that is large enough. -/
  accepted_beside : ∀ b ∈ blocks, b.IsPositive →
    ∃ large : Covariance2 ℝ, IsAccepted large.toMat ∧ IsAccepted (ofBlocks [large, b])
  dataCovariance_iff : ∀ (f : StarFit ℝ) (sigma : ℝ), f.covariances? = some blocks →
    ((∃ cov, f.dataCovariance sigma = .ok cov) ↔ IsAccepted (ofBlocks blocks))

noncomputable def roundBlock (variance : ℝ) : Covariance2 ℝ := ⟨variance, 0, 0, variance⟩

theorem isPositive_roundBlock {variance : ℝ} (h : 0 < variance) :
    (roundBlock variance).IsPositive := by
  refine ⟨h, ?_⟩
  show (0 : ℝ) * 0 < variance * variance
  rw [mul_zero]
  exact mul_pos h h

theorem asymmetry_roundBlock (variance : ℝ) : (roundBlock variance).asymmetry = 0 := by
  simp [roundBlock, Covariance2.asymmetry]

theorem isAccepted_roundBlock {variance : ℝ} (h : 0 < variance) :
    IsAccepted (roundBlock variance).toMat := by
  rw [isAccepted_toMat_iff, asymmetry_roundBlock]
  exact ⟨isPositive_roundBlock h, symmetryBound_nonneg _⟩

theorem le_magnitude_of_mem {variance : ℝ} (blocks : List (Covariance2 ℝ))
    (h : roundBlock variance ∈ blocks) : variance ≤ (ofBlocks blocks).magnitude := by
  have hblock := ((largest_ofBlocks_le_iff blocks _).mp le_rfl).2 _ h
  have hentry := ((roundBlock variance).largest_toMat_le_iff _).mp hblock
  rw [Mat.magnitude, Scalar.atLeast_real]
  exact (le_abs_self variance).trans (hentry.2.1.1.trans (le_max_left _ _))

/-- Beside a round block of large variance a block may be as asymmetric as the scale of the round
one allows. -/
theorem isAccepted_besideRoundBlock {variance : ℝ} (hvariance : 0 < variance) {b : Covariance2 ℝ}
    (hb : b.IsPositive) (hsymm : b.asymmetry ≤ symmetryTolerance * variance) :
    IsAccepted (ofBlocks [roundBlock variance, b]) := by
  have hlarge := le_magnitude_of_mem [roundBlock variance, b] List.mem_cons_self
  have hbound := mul_le_mul_of_nonneg_left hlarge symmetryTolerance_pos.le
  rw [isAccepted_ofBlocks_iff, List.forall_mem_cons, List.forall_mem_singleton,
    asymmetry_roundBlock]
  exact ⟨⟨isPositive_roundBlock hvariance, symmetryBound_nonneg _⟩, hb, hsymm.trans hbound⟩

/-- However asymmetric a positive block is, some accepted block hides it. -/
theorem exists_accepted_beside {b : Covariance2 ℝ} (hb : b.IsPositive) :
    ∃ large : Covariance2 ℝ, IsAccepted large.toMat ∧ IsAccepted (ofBlocks [large, b]) := by
  have hlarge : 0 < b.asymmetry / symmetryTolerance + 1 :=
    add_pos_of_nonneg_of_pos (div_nonneg (abs_nonneg _) symmetryTolerance_pos.le) one_pos
  refine ⟨roundBlock (b.asymmetry / symmetryTolerance + 1), isAccepted_roundBlock hlarge,
    isAccepted_besideRoundBlock hlarge hb ?_⟩
  rw [mul_add, mul_div_cancel₀ _ symmetryTolerance_pos.ne', mul_one]
  exact (lt_add_of_pos_right _ symmetryTolerance_pos).le

/-- A matrix of blocks is accepted where its blocks are, but not only there. -/
theorem blockAcceptance (blocks : List (Covariance2 ℝ)) : BlockAcceptance blocks := by
  have hle : ∀ b ∈ blocks, b.toMat.magnitude ≤ (ofBlocks blocks).magnitude :=
    ((magnitude_ofBlocks_le_iff blocks _).mp le_rfl).2
  have hwiden {b : Covariance2 ℝ} (hb : b ∈ blocks)
      (h : b.asymmetry ≤ symmetryTolerance * b.toMat.magnitude) :
      b.asymmetry ≤ symmetryTolerance * (ofBlocks blocks).magnitude :=
    h.trans (mul_le_mul_of_nonneg_left (hle b hb) symmetryTolerance_pos.le)
  have hblocks (h : ∀ b ∈ blocks, IsAccepted b.toMat) : IsAccepted (ofBlocks blocks) := by
    refine (isAccepted_ofBlocks_iff blocks).mpr fun b hb => ?_
    obtain ⟨hpositive, hsymm⟩ := (isAccepted_toMat_iff b).mp (h b hb)
    exact ⟨hpositive, hwiden hb hsymm⟩
  exact {
    accepted_iff := isAccepted_ofBlocks_iff blocks
    block_accepted_iff := fun b _ => isAccepted_toMat_iff b
    positive_iff := by
      intro b _
      have hsingle := exists_factor_ofBlocks_iff [b]
      rw [List.forall_mem_singleton] at hsingle
      rw [← exists_factor_iff, b.toMat_eq_ofBlocks]
      exact hsingle.symm
    magnitude_le_iff := magnitude_ofBlocks_le_iff blocks
    accepted_of_blocks := hblocks
    positive_of_accepted := fun h b hb => ((isAccepted_ofBlocks_iff blocks).mp h b hb).1
    accepted_iff_of_clear := by
      refine fun hclear => ⟨fun h b hb => ?_, hblocks⟩
      obtain ⟨hpositive, hsymm⟩ := (isAccepted_ofBlocks_iff blocks).mp h b hb
      exact (isAccepted_toMat_iff b).mpr ⟨hpositive, hclear b hb hsymm⟩
    accepted_beside := fun b _ hb => exists_accepted_beside hb
    dataCovariance_iff := fun f sigma h => isAccepted_dataCovariance_iff h sigma }

/-- A block that is rejected on its own is accepted beside a larger one. -/
theorem isAccepted_besideLarger :
    IsAccepted (roundBlock 1000000000000).toMat ∧
      ¬ IsAccepted (Covariance2.toMat ⟨1, 1 / 2, 1 / 4, 1⟩) ∧
      IsAccepted (ofBlocks [roundBlock 1000000000000, ⟨1, 1 / 2, 1 / 4, 1⟩]) := by
  let b : Covariance2 ℝ := ⟨1, 1 / 2, 1 / 4, 1⟩
  have hasymmetry : b.asymmetry = 1 / 4 := by
    norm_num [Covariance2.asymmetry, b]
  have hpositive : b.IsPositive := by
    norm_num [Covariance2.IsPositive, b]
  have hmagnitude : b.toMat.magnitude ≤ 1 := by
    have hlargest : b.toMat.largest ≤ 1 := by
      rw [b.largest_toMat_le_iff]
      norm_num [b]
    rw [Mat.magnitude, Scalar.atLeast_real]
    exact max_le hlargest Scalar.smallest_le_one
  have hbound : symmetryTolerance * b.toMat.magnitude < 1 / 4 := by
    refine (mul_le_of_le_one_right symmetryTolerance_pos.le hmagnitude).trans_lt ?_
    unfold symmetryTolerance
    norm_num
  refine ⟨isAccepted_roundBlock (by norm_num), ?_, isAccepted_besideRoundBlock (by norm_num)
    hpositive ?_⟩
  · rw [isAccepted_toMat_iff]
    exact fun h => (h.2.trans_lt hbound).ne hasymmetry
  · rw [hasymmetry]
    unfold symmetryTolerance
    norm_num

end DataCovariance

end SkyCamera
