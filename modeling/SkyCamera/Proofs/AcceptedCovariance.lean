import SkyCamera.Proofs.FloatOverflow
import SkyCamera.Proofs.Weights

/-!
What is known of a covariance matrix of floats that was accepted. Its factor is read from the lower
triangle, whose entries are finite and whose variances are above zero. The entries above the
diagonal only enter comparisons, in which one that is undefined never counts as too far away: the
matrix is accepted with it, and weights do not see it, but all that is propagated is undefined.
-/
namespace SkyCamera

open Linear

namespace Binary64

variable {n : Nat}

/-- A sum is a number only if all of its terms are. -/
theorem isNumber_of_sum {f : Fin n → Float} (h : Scalar.IsNumber (Scalar.sum f)) (i : Fin n) :
    Scalar.IsNumber (f i) := by
  induction n with
  | zero => exact i.elim0
  | succ n ih =>
    rw [Scalar.sum_succ] at h
    obtain ⟨hbefore, hlast⟩ := isNumber_of_add h
    exact Fin.lastCases hlast (fun i => ih hbefore i) i

theorem isNumber_of_dot {u v : Vector Float n} (h : Scalar.IsNumber (dot u v)) (i : Fin n) :
    Scalar.IsNumber u[i] ∧ Scalar.IsNumber v[i] :=
  isNumber_of_mul (isNumber_of_sum h i)

theorem isFinite_of_same {x y : Float} (hy : Scalar.IsFinite y) (h : Scalar.Same x y) :
    Scalar.IsFinite x := by
  obtain ⟨q, hq⟩ := (isFinite_iff y).mp hy
  exact (isFinite_iff x).mpr (exists_isValue_of_mem hq hq h.2 h.1)

/-- Numbers that compare as equal do not differ. -/
theorem not_lt_abs_sub_of_same {x y bound : Float} (hy : Scalar.IsFinite y) (h : Scalar.Same x y)
    (hbound : 0 ≤ bound) : ¬ bound < Scalar.abs (x - y) := by
  obtain ⟨q, hq⟩ := (isFinite_iff y).mp hy
  obtain ⟨p, hp⟩ := (isFinite_iff x).mp (isFinite_of_same hy h)
  obtain rfl : p = q := le_antisymm ((hp.le_iff hq).mp h.1) ((hq.le_iff hp).mp h.2)
  obtain ⟨r, hr, hresult⟩ := hp.sub hq
  obtain rfl : r = 0 := hr.eq (sub_self p ▸ rounds_zero)
  have hzero : IsValue (x - y) 0 := by
    cases hresult with
    | value hvalue => exact hvalue
    | overflow s _ hpos => cases s <;> exact absurd hpos (lt_irrefl 0)
  have habs : Scalar.abs (x - y) = x - y :=
    if_neg ((hzero.lt_iff isValue_zero).not.mpr (lt_irrefl 0))
  intro hlt
  rw [habs, OrderedScalar.lt_iff] at hlt
  exact hlt.2 (OrderedScalar.le_trans ((hzero.le_iff isValue_zero).mpr le_rfl) hbound)

/-- What is undefined has no distance, so none above a bound. -/
theorem not_lt_abs_sub_of_undefined {x y bound : Float} (hx : ¬ Scalar.IsNumber x) :
    ¬ bound < Scalar.abs (x - y) := by
  have hundefined : ¬ Scalar.IsNumber (x - y) := fun h => hx (isNumber_of_sub h).1
  have habs : Scalar.abs (x - y) = x - y := if_neg fun h =>
    hundefined (OrderedScalar.isNumber_of_le (OrderedScalar.lt_iff.mp h).1).1
  rw [habs]
  exact fun h => hundefined (OrderedScalar.isNumber_of_le (OrderedScalar.lt_iff.mp h).1).2

end Binary64

namespace DataCovariance

open Binary64 Float.Model

variable {n : Nat}

theorem magnitude_nonneg (a : Mat Float n n) : 0 ≤ a.magnitude := by
  have hsmallest : (0 : Float) ≤ Scalar.smallest := by decide +kernel
  unfold Mat.magnitude Scalar.atLeast
  split
  next h => exact OrderedScalar.le_trans hsmallest h
  next => exact hsmallest

/-- No bound on the asymmetry is negative, and where an entry is infinite it may be as well. -/
theorem tolerance_nonneg (a : Mat Float n n) : 0 ≤ symmetryTolerance * a.magnitude := by
  have hunpack : (symmetryTolerance : Float).toModel.unpack =
      .finite .positive 7737125245533627 (-86) (by decide) := rfl
  have htolerance := isValue_of_unpack hunpack
  have hnonneg := magnitude_nonneg a
  rcases exists_isValue_or a.magnitude with ⟨q, hq⟩ | hundefined | ⟨s, hinfinite⟩
  · exact mul_nonneg_of_isValue htolerance hq
      (mul_nonneg (by norm_num [signed]) ((isValue_zero.le_iff hq).mp hnonneg))
  · exact absurd (OrderedScalar.isNumber_of_le hnonneg).2 (not_isNumber_of_unpack hundefined)
  · have hproduct : (symmetryTolerance * a.magnitude).toModel = .pack (.infinity .positive) := by
      have hmul : (symmetryTolerance * a.magnitude).toModel = .pack (UnpackedFloat.mul .binary64
          (symmetryTolerance : Float).toModel.unpack a.magnitude.toModel.unpack) := rfl
      rw [hmul, hunpack, hinfinite, (zero_le_infinity_iff hinfinite).mp hnonneg]
      rfl
    exact (zero_le_infinity_iff ((IsUnbounded.infinity .positive).unpack_eq hproduct)).mpr rfl

/-- The first column of a matrix that has a factor, and what is left without it. -/
theorem exists_rest_of_cholesky {a : Mat Float (n + 1) (n + 1)} {f : Factor Float (n + 1)}
    (h : cholesky a = some f) :
    let o : Fin (n + 1) := ⟨0, n.succ_pos⟩
    0 < a[o][o] ∧ ∃ (rest : Mat Float n n) (g : Factor Float n), cholesky rest = some g ∧
      ∀ i j : Fin n, rest[i][j] = a[i.succ][j.succ] -
        a[i.succ][o] / Scalar.sqrt a[o][o] * (a[j.succ][o] / Scalar.sqrt a[o][o]) := by
  intro o
  rw [cholesky] at h
  dsimp only at h
  split at h
  · next hcorner =>
    obtain ⟨g, hg, -⟩ := Option.map_eq_some_iff.mp h
    refine ⟨hcorner, _, g, hg, fun i j => ?_⟩
    simp [o]
  · cases h

/-- A matrix has a factor only if its variances are above zero and the entries below them finite. -/
theorem entries_of_cholesky {a : Mat Float n n} {f : Factor Float n} (h : cholesky a = some f) :
    (∀ i : Fin n, 0 < a[i][i]) ∧ ∀ i j : Fin n, j < i → Scalar.IsFinite a[i][j] := by
  induction n with
  | zero => exact ⟨fun i => i.elim0, fun i => i.elim0⟩
  | succ n ih =>
    obtain ⟨hcorner, rest, g, hg, hrest⟩ := exists_rest_of_cholesky h
    obtain ⟨hvariance, hbelow⟩ := ih hg
    have hrow (i : Fin n) :
        0 < a[i.succ][i.succ] ∧ Scalar.IsFinite a[i.succ][(0 : Fin (n + 1))] := by
      have hpos := hvariance i
      rw [hrest] at hpos
      have hnumber := (OrderedScalar.isNumber_of_le (OrderedScalar.lt_iff.mp hpos).1).2
      have hsquare := nonneg_mul_self (isNumber_of_sub hnumber).2
      obtain ⟨hentry, hfinite⟩ := pos_of_sub_pos hsquare hpos
      exact ⟨hentry, isFinite_of_div (isFinite_of_mul hfinite)⟩
    refine ⟨Fin.cases hcorner fun i => (hrow i).1, ?_⟩
    refine Fin.cases (fun j hj => absurd hj (Fin.not_lt_zero j)) fun i => ?_
    refine Fin.cases (fun _ => (hrow i).2) fun j hj => ?_
    have hentry := hbelow i j (Fin.succ_lt_succ_iff.mp hj)
    rw [hrest] at hentry
    exact isFinite_of_sub hentry

/-- An entry that is undefined makes all that is propagated undefined. -/
theorem isNumber_of_propagate {c : Nat} {a inverse : Mat Float n n} {d : Mat Float n c}
    {k l : Fin c} (h : Scalar.IsNumber ((full a inverse).propagate d)[k][l]) (i j : Fin n) :
    Scalar.IsNumber a[i][j] := by
  have hproduct : ((full a inverse).propagate d)[k][l] =
      dot (d.transpose.mul a)[k] d.transpose[l] := Mat.getElem_mul _ _ _ _ _ _
  rw [hproduct] at h
  have hrow := (isNumber_of_dot h j).1
  have hentry : (d.transpose.mul a)[k][j] = dot d.transpose[k] a.transpose[j] :=
    Mat.getElem_mul _ _ _ _ _ _
  rw [hentry] at hrow
  have hnumber := (isNumber_of_dot hrow i).2
  have htranspose : a.transpose[j][i] = a[i][j] := Mat.getElem_transpose _ _ _ _ _
  rwa [htranspose] at hnumber

/-- Whether a matrix is symmetric, apart from entries above the diagonal that are undefined. -/
def SymmetricWhereDefined (a : Mat Float n n) : Prop :=
  ∀ i j : Fin n, i < j → Scalar.IsNumber a[i][j] → Scalar.Same a[i][j] a[j][i]

theorem isSymmetric_of_whereDefined {a : Mat Float n n}
    (hbelow : ∀ i j : Fin n, j < i → Scalar.IsFinite a[i][j]) (h : SymmetricWhereDefined a) :
    a.IsSymmetric symmetryTolerance := by
  intro i j hij
  by_cases hnumber : Scalar.IsNumber a[i][j]
  · exact not_lt_abs_sub_of_same (hbelow j i hij) (h i j hij hnumber) (tolerance_nonneg a)
  · exact not_lt_abs_sub_of_undefined hnumber

/-- What acceptance of the matrix `a` says about its entries, and what it does not. -/
structure Accepts (a : Mat Float n n) (cov : DataCovariance Float n) : Prop where
  covariance_eq : ∃ f, cholesky a = some f ∧ cov = .full a f.inverse
  variance_pos : ∀ i : Fin n, 0 < a[i][i]
  finite_below : ∀ i j : Fin n, j < i → Scalar.IsFinite a[i][j]
  finite_of_same : (∀ i : Fin n, Scalar.IsFinite a[i][i]) →
    (∀ i j : Fin n, i < j → Scalar.Same a[i][j] a[j][i]) → ∀ i j : Fin n, Scalar.IsFinite a[i][j]
  /-- Any entries above the diagonal may be undefined instead. Weights are the same with them, but
  all that is propagated is undefined. -/
  undefined_above : ∀ b : Mat Float n n, (∀ i j : Fin n, j ≤ i → b[i][j] = a[i][j]) →
    SymmetricWhereDefined b → ∃ cov', ofMatrix b = .ok cov' ∧
      (∀ r, cov'.weight r = cov.weight r) ∧ (∀ r, cov'.chi2 r = cov.chi2 r) ∧
      ∀ i j : Fin n, ¬ Scalar.IsNumber b[i][j] →
        ∀ {c : Nat} (d : Mat Float n c) (k l : Fin c), ¬ Scalar.IsNumber (cov'.propagate d)[k][l]

/-- What is known of every covariance matrix that is accepted. -/
theorem accepts_ofMatrix {a : Mat Float n n} {cov : DataCovariance Float n}
    (h : ofMatrix a = .ok cov) : Accepts a cov := by
  obtain ⟨f, hf, rfl⟩ := exists_factor_of_ofMatrix h
  obtain ⟨hvariance, hbelow⟩ := entries_of_cholesky hf
  refine ⟨⟨f, hf, rfl⟩, hvariance, hbelow, fun hfinite hsame i j => ?_, fun b hb hsymm => ?_⟩
  · rcases lt_trichotomy i j with hij | rfl | hij
    · exact isFinite_of_same (hbelow j i hij) (hsame i j hij)
    · exact hfinite i
    · exact hbelow i j hij
  · have hfactor : cholesky b = some f := (cholesky_congr hb).trans hf
    have hbelow' : ∀ i j : Fin n, j < i → Scalar.IsFinite b[i][j] := fun i j hij =>
      (hb i j hij.le).symm ▸ hbelow i j hij
    refine ⟨.full b f.inverse, ?_, fun r => rfl, fun r => rfl, fun i j hundefined c d k l hnumber =>
      hundefined (isNumber_of_propagate hnumber i j)⟩
    rw [ofMatrix, if_pos (isSymmetric_of_whereDefined hbelow' hsymm), hfactor]

def halfUndefined : Mat Float 2 2 := #v[#v[1.0, Scalar.undefined], #v[0.0, 1.0]]

theorem exists_ofMatrix_halfUndefined :
    ∃ cov, ofMatrix halfUndefined = .ok cov ∧ Scalar.IsFinite (cov.chi2 #v[1.0, 1.0]) := by
  have hweighted : (ofMatrix halfUndefined).toOption.any
      fun cov => decide (Scalar.IsFinite (cov.chi2 #v[1.0, 1.0])) := by decide +kernel
  cases hcov : ofMatrix halfUndefined with
  | ok cov =>
    rw [hcov] at hweighted
    exact ⟨cov, rfl, of_decide_eq_true hweighted⟩
  | error fault =>
    rw [hcov] at hweighted
    cases hweighted

theorem accepts_halfUndefined :
    ∃ cov, ofMatrix halfUndefined = .ok cov ∧ Accepts halfUndefined cov := by
  obtain ⟨cov, hcov, -⟩ := exists_ofMatrix_halfUndefined
  exact ⟨cov, hcov, accepts_ofMatrix hcov⟩

/-- Not all that is accepted is finite, and then a finite `χ²` may stand beside a propagated
covariance that is undefined. Nor are variances finite that are accepted as a matrix. -/
theorem ofMatrix_halfUndefined :
    (∃ cov, ofMatrix halfUndefined = .ok cov ∧
      (∃ i j : Fin 2, ¬ Scalar.IsFinite halfUndefined[i][j]) ∧
      Scalar.IsFinite (cov.chi2 #v[1.0, 1.0]) ∧ ∀ k l : Fin 1,
        ¬ Scalar.IsNumber (cov.propagate (#v[#v[1.0], #v[1.0]] : Mat Float 2 1))[k][l]) ∧
    (ofMatrix (#v[#v[Scalar.infinity]] : Mat Float 1 1)).isOk := by
  obtain ⟨cov, hcov, hweighted⟩ := exists_ofMatrix_halfUndefined
  have hentry : ¬ Scalar.IsNumber halfUndefined[(0 : Fin 2)][(1 : Fin 2)] := by decide +kernel
  refine ⟨⟨cov, hcov, ⟨0, 1, by decide +kernel⟩, hweighted, fun k l hnumber => ?_⟩,
    by decide +kernel⟩
  obtain ⟨f, -, rfl⟩ := exists_factor_of_ofMatrix hcov
  exact hentry (isNumber_of_propagate hnumber 0 1)

end DataCovariance
end SkyCamera
