import SkyCamera.Proofs.AffineMinimum
import SkyCamera.Proofs.CovarianceForms
import SkyCamera.Proofs.ExactInverse
import SkyCamera.Proofs.LandingFit

/-!
The sensitivities of the parameters to the data, found by refitting with each datum displaced. Where
an affine model is fitted to its minimum every time they are the estimator of weighted least
squares, so the covariance of the data that they carry over is the inverse of the normal matrix.
Refits that come close to the minimum give sensitivities that are as close, beside the displacement.
-/
namespace SkyCamera

open Matrix Linear

variable {m n : Nat}

namespace DataCovariance

variable {cov : DataCovariance ℝ n} (hcov : cov.IsValid)
include hcov

theorem IsValid.isMade : cov.IsMade := hcov.imp id fun ⟨a, _, ha⟩ => ⟨a, ha⟩

theorem toMatrix_propagate {c : Nat} (d : Mat ℝ n c) :
    (cov.propagate d).toMatrix = d.toMatrixᵀ * cov.matrix * d.toMatrix := by
  obtain ⟨v, hv⟩ | ⟨a, hpos, ha⟩ := hcov
  · obtain ⟨rfl, -⟩ := pos_of_ofVariances hv
    rw [propagate, Mat.toMatrix_mul, Mat.toMatrix_transpose, Mat.toMatrix_scaleRows,
      Matrix.mul_assoc, matrix]
  · obtain ⟨f, -, rfl⟩ := exists_factor_of_ofMatrix ha
    have hsymm : a.toMatrix.IsSymm := hpos.1
    rw [propagate, Mat.toMatrix_mul, Mat.toMatrix_mul, Mat.toMatrix_transpose, matrix,
      mirrored_of_isSymm hsymm]

/-- The estimator carries the covariance of the data over to the inverse of the normal matrix. -/
theorem propagate_estimator {x d : Mat ℝ n m} (hrank : x.toMatrix.rank = m)
    (hd : d.toMatrix = (cov.estimator x)ᵀ) :
    (cov.propagate d).toMatrix = (x.toMatrixᵀ * cov.matrix⁻¹ * x.toMatrix)⁻¹ := by
  obtain ⟨hpos, hweight⟩ := weightMatrix_of_isMade (IsValid.isMade hcov)
  have hnormal := posDef_normal hcov hrank
  have hcancel : cov.matrix⁻¹ * cov.matrix = 1 :=
    nonsing_inv_mul _ ((isUnit_iff_isUnit_det _).mp hpos.isUnit)
  have hsymm : cov.matrix⁻¹ᵀ = cov.matrix⁻¹ := hpos.inv.1
  rw [hweight] at hnormal
  let a := x.toMatrixᵀ * (cov.matrix⁻¹ * x.toMatrix)
  have hinvSymm : a⁻¹ᵀ = a⁻¹ := hnormal.inv.1
  have hone : a⁻¹ * a = 1 := nonsing_inv_mul _ ((isUnit_iff_isUnit_det _).mp hnormal.isUnit)
  rw [toMatrix_propagate hcov, hd, transpose_transpose, estimator, hweight, Matrix.mul_assoc _ _
    x.toMatrix]
  calc
    a⁻¹ * (x.toMatrixᵀ * cov.matrix⁻¹) * cov.matrix * (a⁻¹ * (x.toMatrixᵀ * cov.matrix⁻¹))ᵀ
      = a⁻¹ * x.toMatrixᵀ * (cov.matrix⁻¹ * cov.matrix) * (cov.matrix⁻¹ * x.toMatrix * a⁻¹) := by
        simp only [transpose_mul, transpose_transpose, hsymm, hinvSymm, Matrix.mul_assoc]
    _ = a⁻¹ * a * a⁻¹ := by
        rw [hcancel, Matrix.mul_one]
        simp only [a, Matrix.mul_assoc]
    _ = a⁻¹ := by rw [hone, Matrix.one_mul]

end DataCovariance

namespace Solver

section Refits

variable {α : Type} [Scalar α] (s : Solver α m n) (last : Fit α m n) (data : Vector α n)
  (solution : Vector α m)

/-- What a solver holds when it has been fitted and can be asked for a covariance. -/
structure IsFitted : Prop where
  lastFit_eq : s.lastFit = some last
  status_ne : last.status ≠ .notRun
  data_eq : s.data = some data
  parameters_eq : s.parameters? = some solution

def displaced (i : Fin n) (offset : α) : Problem α m n :=
  s.problem (data.set i (data[i] + offset) i.isLt)

def refitted (i : Fin n) (offset : α) : Vector α m :=
  ((s.displaced data i offset).fit solution last.maxIterations).last.parameters

def offsets : List α :=
  let h := s.settings.dataStep
  [2.0 * h, h, -h, -(2.0 * h)]

/-- The slope of each parameter along each datum, by five-point quotients of the refits. -/
def sensitivities : Mat α n m :=
  let h := s.settings.dataStep
  let refitted := s.refitted last data solution
  Vector.ofFn fun i =>
    Model.fivePoint h (refitted i (2.0 * h)) (refitted i h) (refitted i (-h))
      (refitted i (-(2.0 * h)))

variable {s last data solution}

theorem IsFitted.fourthOrderCovariance_eq (h : s.IsFitted last data solution) :
    s.fourthOrderCovariance =
      .ok (s.covariance.propagate (s.sensitivities last data solution)) := by
  unfold fourthOrderCovariance
  rw [h.lastFit_eq, h.data_eq, h.parameters_eq]
  rfl

theorem isFitted_of_fit {t : Solver α m n} {limit : Nat} (h : s.fit limit = .ok t) :
    ∃ last data solution, t.IsFitted last data solution := by
  obtain ⟨data, start, hdata, -, rfl⟩ := fit_eq_ok h
  exact ⟨_, data, _, rfl, Problem.status_ne_notRun _ _ _, hdata, rfl⟩

/-- After a fit every call leaves the solver fitted, by this fit or by another. -/
theorem IsFitted.apply {t : Solver α m n} (h : s.IsFitted last data solution) {call : Call α}
    (hcall : s.apply call = .ok t) : ∃ last data solution, t.IsFitted last data solution := by
  cases effect_of_apply hcall with
  | setData _ v => exact ⟨last, v, solution, h.lastFit_eq, h.status_ne, rfl, h.parameters_eq⟩
  | setParameters _ v => exact ⟨last, data, v, h.lastFit_eq, h.status_ne, h.data_eq, rfl⟩
  | setVariance | setCovariance =>
    exact ⟨last, data, solution, h.lastFit_eq, h.status_ne, h.data_eq, h.parameters_eq⟩
  | fit limit => exact isFitted_of_fit hcall

/-- Whatever is called after a fit, data and parameters stay there for a covariance. -/
theorem exists_fourthOrderCovariance {t : Solver α m n} {calls : List (Call α)} {limit : Nat}
    (hmem : .fit limit ∈ calls) (h : s.after calls = .ok t) :
    ∃ c, t.fourthOrderCovariance = .ok c := by
  have hstays (calls : List (Call α)) {u : Solver α m n}
      (hu : ∃ last data solution, u.IsFitted last data solution) (hafter : u.after calls = .ok t) :
      ∃ last data solution, t.IsFitted last data solution := by
    induction calls generalizing u with
    | nil =>
      cases hafter
      exact hu
    | cons call rest ih =>
      obtain ⟨last, data, solution, hu⟩ := hu
      rw [after_cons] at hafter
      obtain ⟨middle, hmiddle, hrest⟩ := bind_eq_ok.mp hafter
      exact ih (hu.apply hmiddle) hrest
  obtain ⟨before, since, rfl⟩ := List.append_of_mem hmem
  rw [after_append] at h
  obtain ⟨first, -, hafter⟩ := bind_eq_ok.mp h
  rw [after_cons] at hafter
  obtain ⟨fitted, hfit, hrest⟩ := bind_eq_ok.mp hafter
  obtain ⟨last, data, solution, ht⟩ := hstays since (isFitted_of_fit hfit) hrest
  exact ⟨_, ht.fourthOrderCovariance_eq⟩

end Refits

section Affine

variable {s : Solver ℝ m n} {last : Fit ℝ m n} {data : Vector ℝ n} {solution : Vector ℝ m}
  {f0 : Vector ℝ n} {x : Mat ℝ n m}

variable (s last data solution) in
/-- Every refit ends where its displaced data are met best. -/
def RefitsReachMinimum : Prop :=
  ∀ i, ∀ offset ∈ s.offsets,
    (s.displaced data i offset).IsMinimum (s.refitted last data solution i offset)

/-- What errors of at most `ε` in the four refits do to the quotient. -/
theorem abs_fivePoint_le {h ε a b b' a' : ℝ} (hh : h ≠ 0) (ha : |a| ≤ ε) (hb : |b| ≤ ε)
    (hb' : |b'| ≤ ε) (ha' : |a'| ≤ ε) :
    |(-a + b * 8 - b' * 8 + a') / (12 * h)| ≤ 3 * ε / (2 * |h|) := by
  have hpos : 0 < |h| := abs_pos.mpr hh
  have hsum : |-a + b * 8 - b' * 8 + a'| ≤ 18 * ε := by
    rw [abs_le] at *
    constructor <;> linarith
  rw [abs_div, abs_mul, Nat.abs_ofNat, div_le_div_iff₀ (by positivity) (by positivity)]
  calc
    |-a + b * 8 - b' * 8 + a'| * (2 * |h|) ≤ 18 * ε * (2 * |h|) :=
      mul_le_mul_of_nonneg_right hsum (by positivity)
    _ = 3 * ε * (12 * |h|) := by ring

/-- The minimum moves with a datum by what the estimator makes of it. -/
theorem minimum_displaced (i : Fin n) (offset : ℝ) (k : Fin m) :
    (s.displaced data i offset).minimum f0 x k =
      (s.problem data).minimum f0 x k + offset * s.covariance.estimator x k i := by
  have hdata : coords (s.displaced data i offset).data - coords f0 =
      coords data - coords f0 + Pi.single i offset := by
    show coords (data.set i (data[i] + offset) i.isLt) - coords f0 = _
    rw [coords_set, add_sub_cancel_left, add_sub_right_comm]
  have hcovariance : (s.displaced data i offset).covariance = s.covariance := rfl
  rw [Problem.minimum, hdata, hcovariance, mulVec_add, Pi.add_apply, mulVec_single]
  exact congrArg _ (mul_comm _ _)

variable (hmodel : s.model.IsAffine f0 x) (hcov : s.covariance.IsValid)
  (hrank : x.toMatrix.rank = m) (hstep : s.settings.dataStep ≠ 0)
include hmodel hcov hrank hstep

/-- Refits that end near the minimum give sensitivities near the estimator. -/
theorem abs_sensitivities_sub_le {ε : ℝ}
    (hnear : ∀ i, ∀ offset ∈ s.offsets, ∀ q, (s.displaced data i offset).IsMinimum q →
      ∀ k : Fin m, |(s.refitted last data solution i offset)[k] - q[k]| ≤ ε)
    (i : Fin n) (k : Fin m) :
    |(s.sensitivities last data solution)[i][k] - s.covariance.estimator x k i| ≤
      3 * ε / (2 * |s.settings.dataStep|) := by
  obtain ⟨h, hh⟩ : ∃ h, h = s.settings.dataStep := ⟨_, rfl⟩
  obtain ⟨e, he⟩ : ∃ e, e = s.covariance.estimator x k i := ⟨_, rfl⟩
  obtain ⟨b, hb⟩ : ∃ b, b = (s.problem data).minimum f0 x k := ⟨_, rfl⟩
  have hend (offset : ℝ) (hoffset : offset ∈ s.offsets) :
      |(s.refitted last data solution i offset)[k] - (b + offset * e)| ≤ ε := by
    have hmin := (Problem.isMinimum_iff (s.displaced data i offset) hmodel hcov hrank
      (.ofFn _)).mpr (coords_ofFn _)
    have hclose := hnear i offset hoffset _ hmin k
    rw [getElem_fin (Vector.ofFn _), Vector.getElem_ofFn, Fin.eta, minimum_displaced, ← hb, ← he]
      at hclose
    exact hclose
  have height : (8.0 : ℝ) = 8 := by norm_num
  have htwelve : (12.0 : ℝ) = 12 := by norm_num
  rw [← hh] at hstep
  simp only [offsets, List.forall_mem_cons, ← hh, Scalar.two_real] at hend
  obtain ⟨hfar, hnext, hnext', hfar', -⟩ := hend
  have hslope : (s.sensitivities last data solution)[i][k] - e =
      (-((s.refitted last data solution i (2 * h))[k] - (b + 2 * h * e)) +
        ((s.refitted last data solution i h)[k] - (b + h * e)) * 8 -
        ((s.refitted last data solution i (-h))[k] - (b + -h * e)) * 8 +
        ((s.refitted last data solution i (-(2 * h)))[k] - (b + -(2 * h) * e))) / (12 * h) := by
    simp only [sensitivities, Model.fivePoint, getElem_fin, Vector.getElem_ofFn, Fin.eta,
      Vector.getElem_map, Vector.getElem_add, Vector.getElem_sub, Vector.getElem_neg, ← hh, height,
      htwelve, Scalar.two_real]
    field_simp
    ring
  rw [← he, ← hh, hslope]
  exact abs_fivePoint_le hstep hfar hnext hnext' hfar'

/-- Refits that reach the minimum make the sensitivities exact, since it is affine in the data. -/
theorem toMatrix_sensitivities (hrefits : s.RefitsReachMinimum last data solution) :
    (s.sensitivities last data solution).toMatrix = (s.covariance.estimator x)ᵀ := by
  have hnear : ∀ i, ∀ offset ∈ s.offsets, ∀ q, (s.displaced data i offset).IsMinimum q →
      ∀ k : Fin m, |(s.refitted last data solution i offset)[k] - q[k]| ≤ 0 := by
    intro i offset hoffset q hq k
    have hrefit := (Problem.isMinimum_iff (s.displaced data i offset) hmodel hcov
      hrank _).mp (hrefits i offset hoffset)
    have hsame := (Problem.isMinimum_iff (s.displaced data i offset) hmodel hcov
      hrank _).mp hq
    rw [coords_injective (hrefit.trans hsame.symm), sub_self, abs_zero]
  ext i k
  have hslope := abs_sensitivities_sub_le hmodel hcov hrank hstep hnear i k
  rw [mul_zero, zero_div, abs_nonpos_iff, sub_eq_zero] at hslope
  exact hslope

end Affine

/-- A solver with an affine model of full column rank that has been fitted, and whose refits reach
their minima. -/
structure RefitsAffine (s : Solver ℝ m n) (last : Fit ℝ m n) (data : Vector ℝ n)
    (solution : Vector ℝ m) (f0 : Vector ℝ n) (x : Mat ℝ n m) : Prop where
  fitted : s.IsFitted last data solution
  affine : s.model.IsAffine f0 x
  rank_eq : x.toMatrix.rank = m
  valid : s.covariance.IsValid
  step_ne : s.settings.dataStep ≠ 0
  reaches : s.RefitsReachMinimum last data solution

variable {s : Solver ℝ m n} {last : Fit ℝ m n} {data : Vector ℝ n} {solution : Vector ℝ m}
  {f0 : Vector ℝ n} {x : Mat ℝ n m}

theorem RefitsAffine.toMatrix_lastNormal (h : s.RefitsAffine last data solution f0 x)
    (hderives : s.model.Derives solution x) :
    s.lastNormal.toMatrix = x.toMatrixᵀ * s.covariance.matrix⁻¹ * x.toMatrix := by
  have hparameters : s.parameters = solution := by
    rw [parameters, h.fitted.parameters_eq, Option.getD_some]
  rw [lastNormal, hparameters, h.affine.jacobian_eq hderives, Mat.toMatrix_mul,
    Mat.toMatrix_transpose, DataCovariance.toMatrix_weightRows,
    (DataCovariance.weightMatrix_of_isMade h.valid.isMade).2, Matrix.mul_assoc]

theorem RefitsAffine.fourthOrderCovariance_eq (h : s.RefitsAffine last data solution f0 x) :
    ∃ c, s.fourthOrderCovariance = .ok c ∧
      c.toMatrix = (x.toMatrixᵀ * s.covariance.matrix⁻¹ * x.toMatrix)⁻¹ :=
  ⟨_, h.fitted.fourthOrderCovariance_eq, DataCovariance.propagate_estimator h.valid h.rank_eq
    (toMatrix_sensitivities h.affine h.valid h.rank_eq h.step_ne h.reaches)⟩

/-- The other covariance of the same fit: the inverse normal matrix times the reduced `χ²`. -/
theorem RefitsAffine.parameterCovariance_eq [HasPseudoInverse ℝ]
    (h : s.RefitsAffine last data solution f0 x) (hdof : m < n) {inverse : Mat ℝ m m}
    (hinverse : pseudoInverse s.lastNormal = .ok inverse) :
    s.reducedChi2 = some (s.chi2 / (s.dof : ℝ)) ∧
      s.parameterCovariance = .ok (inverse.scale (s.chi2 / (s.dof : ℝ))) := by
  have hstatus : s.status ≠ .notRun := by
    rw [status, h.fitted.lastFit_eq]
    exact h.fitted.status_ne
  have hdof' : s.dof ≠ 0 := Nat.sub_ne_zero_of_lt hdof
  refine ⟨if_neg hdof', ?_⟩
  rw [parameterCovariance_of_dof_ne_zero hstatus h.fitted.parameters_eq hdof', hinverse]
  rfl

section Landed

theorem chi2_pos_of_fitted {problem : Problem ℝ m n} {start : Vector ℝ m} {limit : Nat}
    (hcov : problem.covariance.IsValid) (hmiss : ∀ p, problem.model.values p ≠ problem.data) :
    0 < (problem.fit start limit).last.chi2 := by
  have hlast := problem.coherent_last start limit
  rw [hlast.chi2_eq, hlast.values_eq]
  refine (DataCovariance.chi2_nonneg hcov _).lt_of_ne fun hzero => ?_
  have hmeets := (DataCovariance.chi2_eq_zero_iff hcov _).mp hzero.symm
  rw [← coords_eq_zero_iff, coords_sub, sub_eq_zero] at hmeets
  exact hmiss (problem.fit start limit).last.parameters (coords_injective hmeets.symm)

noncomputable def landing (f0 : Vector ℝ n) (x : Mat ℝ n m) (covariance : DataCovariance ℝ n)
    (data : Vector ℝ n) (start : Vector ℝ m) : Solver ℝ m n :=
  let first := Problem.firstDamping (x.transpose.mul (covariance.weightRows x))
  { ofModel (.landing f0 x start) (.landing first) with
    data := some data, parameters? := some start, covariance }

/-- The same solver after a fit with two attempts, and back at its start. -/
noncomputable def landed (f0 : Vector ℝ n) (x : Mat ℝ n m) (covariance : DataCovariance ℝ n)
    (data : Vector ℝ n) (start : Vector ℝ m) : Solver ℝ m n :=
  let s := landing f0 x covariance data start
  { s with lastFit := some ((s.problem data).fit start 2) }

theorem after_landing (f0 : Vector ℝ n) (x : Mat ℝ n m) (covariance : DataCovariance ℝ n)
    (data : Vector ℝ n) (start : Vector ℝ m) (hcount : m ≤ n) :
    (landing f0 x covariance data start).after [.fit 2, .setParameters start.toList] =
      .ok (landed f0 x covariance data start) := by
  let s := landing f0 x covariance data start
  let fit := (s.problem data).fit start 2
  have hfit : s.fit 2 =
      .ok { s with parameters? := some fit.last.parameters, lastFit := some fit } :=
    if_neg (Nat.not_lt.mpr hcount)
  have hback (t : Solver ℝ m n) :
      t.setParameters start.toList = .ok { t with parameters? := some start } := by
    rw [setParameters, vectorOfLength_toList]
    rfl
  rw [after_cons, apply, hfit]
  exact congrArg (· >>= fun t => t.after []) (hback _)

variable {covariance : DataCovariance ℝ n} {start : Vector ℝ m} {a : Fin m → ℝ}
  (hcov : covariance.IsValid)
  (hnormal : x.toMatrixᵀ * (covariance.weightMatrix * x.toMatrix) = .diagonal a)
  (hfloor : ∀ k, 4 * dampingFloor ≤ a k)
  (hstart : coords start = covariance.estimator x *ᵥ (coords data - coords f0))
include hcov hnormal hfloor hstart

/-- Displaced data move the minimum away from the start, and the refit lands on it. -/
theorem refitsAffine_landed
    (hinfluence : ∀ i, ∃ k, (x.toMatrixᵀ * covariance.weightMatrix) k i ≠ 0) :
    ∃ last, (landed f0 x covariance data start).RefitsAffine last data start f0 x := by
  have hpos (k : Fin m) : 0 < a k := (mul_pos four_pos dampingFloor_pos).trans_le (hfloor k)
  have hrank : x.toMatrix.rank = m := by
    have hfull : (Matrix.diagonal a).rank = m := by
      rw [rank_of_det_ne_zero, Fintype.card_fin]
      rw [det_diagonal]
      exact Finset.prod_ne_zero_iff.mpr fun k _ => (hpos k).ne'
    refine le_antisymm (rank_le_width _) ?_
    calc
      m = (x.toMatrixᵀ * (covariance.weightMatrix * x.toMatrix)).rank := by rw [hnormal, hfull]
      _ ≤ x.toMatrix.rank := (rank_mul_le_right _ _).trans (rank_mul_le_right _ _)
  refine ⟨_, ⟨⟨rfl, Problem.status_ne_notRun _ _ _, rfl, rfl⟩, Problem.isAffine_landing, hrank,
    hcov, one_ne_zero, fun i offset hoffset => ?_⟩⟩
  -- Where the data are displaced the start is not the minimum any more.
  have hne : offset ≠ 0 := by
    have hstep : (landed f0 x covariance data start).settings.dataStep = 1 := rfl
    simp only [offsets, hstep, Scalar.two_real, List.mem_cons, List.not_mem_nil] at hoffset
    obtain rfl | rfl | rfl | rfl | hnone := hoffset <;> norm_num at *
  obtain ⟨k, hk⟩ := hinfluence i
  refine Problem.isMinimum_landing rfl hcov hrank hnormal rfl rfl hfloor fun hsame => hk ?_
  have hmoved := congrFun hsame k
  rw [minimum_displaced, hstart] at hmoved
  have hzero : covariance.estimator x k i = 0 :=
    (mul_eq_zero.mp (left_eq_add.mp hmoved)).resolve_left hne
  rw [← DataCovariance.normal_mul_estimator hcov hrank, hnormal, diagonal_mul, hzero, mul_zero]

omit hnormal hfloor hstart in
theorem chi2_landed_pos
    (hmiss : ∀ p : Fin m → ℝ, coords f0 + x.toMatrix *ᵥ p ≠ coords data) :
    0 < (landed f0 x covariance data start).chi2 := by
  refine chi2_pos_of_fitted hcov fun p hp => hmiss (coords p) ?_
  exact (Problem.isAffine_landing.coords_values p).symm.trans (congrArg coords hp)

end Landed

noncomputable def opposite : Mat ℝ 2 1 := #v[.replicate 1 1, .replicate 1 (-1)]

theorem weightMatrix_correlated {covariance : DataCovariance ℝ 2}
    (hmade : DataCovariance.ofMatrix correlated = .ok covariance) :
    covariance.weightMatrix = !![2 / 3, -1 / 3; -1 / 3, 2 / 3] := by
  have hentries : correlated.toMatrix = !![2, 1; 1, 2] := by
    ext i j
    fin_cases i <;> fin_cases j <;> simp [correlated] <;> norm_num
  obtain ⟨f, -, rfl⟩ := DataCovariance.exists_factor_of_ofMatrix hmade
  rw [(DataCovariance.weightMatrix_of_isMade (Or.inr ⟨_, hmade⟩)).2, DataCovariance.matrix,
    DataCovariance.mirrored_of_isSymm posDef_correlated.1, hentries]
  refine inv_eq_right_inv (Matrix.ext fun i j => ?_)
  fin_cases i <;> fin_cases j <;> simp [Matrix.mul_apply, Fin.sum_univ_two] <;> norm_num

theorem normal_opposite {covariance : DataCovariance ℝ 2}
    (hmade : DataCovariance.ofMatrix correlated = .ok covariance) :
    opposite.toMatrixᵀ * covariance.weightMatrix = !![1, -1] ∧
      opposite.toMatrixᵀ * (covariance.weightMatrix * opposite.toMatrix) =
        .diagonal fun _ => 2 := by
  have hentries : opposite.toMatrix = !![1; -1] := by
    ext i j
    fin_cases i <;> fin_cases j <;> simp [opposite, Mat.toMatrix]
  have hpull : opposite.toMatrixᵀ * covariance.weightMatrix = !![1, -1] := by
    rw [weightMatrix_correlated hmade, hentries]
    ext i j
    fin_cases i
    fin_cases j <;> simp [Matrix.mul_apply, Fin.sum_univ_two] <;> norm_num
  refine ⟨hpull, ?_⟩
  rw [← Matrix.mul_assoc, hpull, hentries]
  ext i j
  fin_cases i
  fin_cases j
  simp [Matrix.mul_apply, Fin.sum_univ_two]
  norm_num

theorem refitsAffine_opposite {covariance : DataCovariance ℝ 2}
    (hmade : DataCovariance.ofMatrix correlated = .ok covariance) :
    ∃ last, (landed #v[0, 0] opposite covariance #v[1, 1] #v[0]).RefitsAffine last
      #v[1, 1] #v[0] #v[0, 0] opposite := by
  have hcov : covariance.IsValid := Or.inr ⟨correlated, posDef_correlated, hmade⟩
  obtain ⟨hpull, hnormal⟩ := normal_opposite hmade
  refine refitsAffine_landed hcov hnormal (fun _ => ?_) ?_ fun i => ⟨0, ?_⟩
  · unfold dampingFloor
    norm_num
  · have hzero : (!![1, -1] : Matrix (Fin 1) (Fin 2) ℝ) *ᵥ
        (coords #v[1, 1] - coords #v[0, 0]) = 0 := by
      ext i
      fin_cases i
      simp [coords, mulVec, dotProduct, Fin.sum_univ_two]
    rw [DataCovariance.estimator, ← mulVec_mulVec, hpull, hzero, mulVec_zero]
    ext i
    fin_cases i
    rfl
  · rw [hpull]
    fin_cases i <;> norm_num

theorem chi2_opposite_pos {covariance : DataCovariance ℝ 2}
    (hmade : DataCovariance.ofMatrix correlated = .ok covariance) :
    0 < (landed #v[0, 0] opposite covariance #v[1, 1] #v[0]).chi2 := by
  refine chi2_landed_pos (Or.inr ⟨correlated, posDef_correlated, hmade⟩) fun p hp => ?_
  have hfirst := congrFun hp 0
  have hsecond := congrFun hp 1
  simp [opposite, mulVec, dotProduct, coords, Mat.toMatrix] at hfirst hsecond
  linarith

/-- Columns that are orthogonal, of which the second is shorter than the first by a factor of a
million and more. -/
noncomputable def steep : Mat ℝ 3 2 :=
  #v[#v[1000000, 1], #v[1000000, -1], #v[1000000, 0]]

theorem isValid_identity {k : Nat} : (DataCovariance.identity : DataCovariance ℝ k).IsValid :=
  Or.inl ⟨_, DataCovariance.ofVariances_of_pos fun i => by simp⟩

/-- Two directions whose weights are twelve orders apart, the smaller one below the cut-off. -/
theorem normal_steep :
    steep.toMatrixᵀ * (DataCovariance.identity : DataCovariance ℝ 3).weightMatrix =
        !![1000000, 1000000, 1000000; 1, -1, 0] ∧
      steep.toMatrixᵀ * ((DataCovariance.identity : DataCovariance ℝ 3).weightMatrix *
        steep.toMatrix) = .diagonal ![3000000000000, 2] := by
  have hweight : (DataCovariance.identity : DataCovariance ℝ 3).weightMatrix = 1 := by
    rw [DataCovariance.identity, DataCovariance.weightMatrix, ← diagonal_one]
    simp
  have hentries : steep.toMatrix = !![1000000, 1; 1000000, -1; 1000000, 0] := by
    ext i j
    fin_cases i <;> fin_cases j <;> simp [steep, Mat.toMatrix]
  rw [hweight, Matrix.one_mul, Matrix.mul_one, hentries]
  constructor <;> ext i j <;> fin_cases i <;> fin_cases j <;>
    simp [Matrix.mul_apply, Fin.sum_univ_three] <;> norm_num

theorem refitsAffine_steep :
    ∃ last, (landed #v[0, 0, 0] steep .identity #v[1, 1, -2] #v[0, 0]).RefitsAffine last
      #v[1, 1, -2] #v[0, 0] #v[0, 0, 0] steep := by
  obtain ⟨hpull, hnormal⟩ := normal_steep
  refine refitsAffine_landed isValid_identity hnormal ?_ ?_ fun i => ⟨0, ?_⟩
  · intro k
    unfold dampingFloor
    fin_cases k <;> norm_num
  · have hzero : (!![1000000, 1000000, 1000000; 1, -1, 0] : Matrix (Fin 2) (Fin 3) ℝ) *ᵥ
        (coords #v[1, 1, -2] - coords #v[0, 0, 0]) = 0 := by
      ext i
      fin_cases i <;> simp [coords, mulVec, dotProduct, Fin.sum_univ_three]
      norm_num
    rw [DataCovariance.estimator, ← mulVec_mulVec, hpull, hzero, mulVec_zero]
    ext i
    fin_cases i <;> rfl
  · rw [hpull]
    fin_cases i <;> norm_num

theorem chi2_steep_pos : 0 < (landed #v[0, 0, 0] steep .identity #v[1, 1, -2] #v[0, 0]).chi2 := by
  refine chi2_landed_pos isValid_identity fun p hp => ?_
  have hfirst := congrFun hp 0
  have hsecond := congrFun hp 1
  have hthird := congrFun hp 2
  simp [steep, mulVec, dotProduct, coords, Mat.toMatrix] at hfirst hsecond hthird
  linarith

noncomputable def constant (value datum : Vector ℝ 1) : Solver ℝ 0 1 :=
  let s := ofAffine value #v[#v[]] (fun _ => []) .standard .identity datum #v[]
  { s with lastFit := some ((s.problem datum).fit #v[] 0) }

section Constant

variable (value datum : Vector ℝ 1)

theorem fit_constant :
    (ofAffine value #v[#v[]] (fun _ => []) .standard .identity datum #v[]).fit 0 =
      .ok (constant value datum) := by
  let s := ofAffine value #v[#v[]] (fun _ => []) .standard .identity datum #v[]
  let fit := (s.problem datum).fit #v[] 0
  have hfit : s.fit 0 =
      .ok { s with parameters? := some fit.last.parameters, lastFit := some fit } :=
    if_neg (Nat.not_lt_zero 1)
  have hempty : fit.last.parameters = #v[] := Vector.eq_empty
  rw [hfit, hempty]
  rfl

theorem refitsAffine_constant :
    ∃ last, (constant value datum).RefitsAffine last datum #v[] value #v[#v[]] := by
  refine ⟨_, ⟨rfl, Problem.status_ne_notRun _ _ _, rfl, rfl⟩, ⟨fun _ => rfl, rfl⟩,
    Nat.le_zero.mp (rank_le_width _), isValid_identity, ?_, ?_⟩
  · show (Settings.standard : Settings ℝ).dataStep ≠ 0
    simp only [Settings.standard]
    norm_num
  · intro i offset _ q
    exact le_of_eq (congrArg _ (congrArg _ (Vector.eq_empty.trans Vector.eq_empty.symm)))

theorem chi2_constant_pos {value datum : Vector ℝ 1} (hne : value ≠ datum) :
    0 < (constant value datum).chi2 := by
  refine chi2_pos_of_fitted isValid_identity fun p hp => hne ?_
  have hmodel : (Model.affine value (#v[#v[]] : Mat ℝ 1 0) fun _ => []).IsAffine value #v[#v[]] :=
    ⟨fun _ => rfl, rfl⟩
  have hvalues := (hmodel.coords_values p).symm.trans (congrArg coords hp)
  rw [Subsingleton.elim (coords p) 0, mulVec_zero, add_zero] at hvalues
  exact coords_injective hvalues

theorem parameterCovariance_constant :
    (constant value datum).parameterCovariance = .error (.badNormalMatrix .noEntries) := by
  have hempty (a : Mat ℝ 0 0) : pseudoInverse a = .error .noEntries := by
    show Orthogonal.pseudoInverse a = _
    rw [Orthogonal.pseudoInverse, if_pos (Or.inl rfl)]
  have hstatus : (constant value datum).status ≠ .notRun :=
    Problem.status_ne_notRun ((constant value datum).problem datum) #v[] 0
  rw [parameterCovariance_of_dof_ne_zero hstatus rfl one_ne_zero, hempty]
  rfl

end Constant

/-- If every refit of an affine model reaches its minimum, the fourth-order covariance is the
inverse of the normal matrix. It is the covariance of the parameters over `χ²` for each degree of
freedom where the pseudo-inverse leaves out no direction of the normal matrix. -/
theorem fourthOrderCovariance_affine [HasPseudoInverse ℝ] (hexact : InvertsExactly)
    (h : s.RefitsAffine last data solution f0 x) :
    ∃ c, s.fourthOrderCovariance = .ok c ∧
      c.toMatrix = (x.toMatrixᵀ * s.covariance.matrix⁻¹ * x.toMatrix)⁻¹ ∧
      (m ≠ 0 → m < n → 0 < s.chi2 → s.model.Derives solution x → KeepsAll s.lastNormal →
        ∃ r p, s.reducedChi2 = some r ∧ s.parameterCovariance = .ok p ∧
          c.toMatrix = r⁻¹ • p.toMatrix) := by
  obtain ⟨c, hc, hinverse⟩ := h.fourthOrderCovariance_eq
  refine ⟨c, hc, hinverse, fun hm hdof hchi2 hderives hkeeps => ?_⟩
  obtain ⟨inverse, hok, hpseudo⟩ := hexact s.lastNormal hm hm
  obtain ⟨hreduced, hcovariance⟩ := h.parameterCovariance_eq hdof hok
  have hpos : 0 < s.chi2 / (s.dof : ℝ) := div_pos hchi2 (Nat.cast_pos.mpr (Nat.sub_pos_of_lt hdof))
  refine ⟨_, _, hreduced, hcovariance, ?_⟩
  rw [hinverse, Mat.toMatrix_scale, smul_smul, inv_mul_cancel₀ hpos.ne', one_smul,
    hpseudo.eq_inv hkeeps, h.toMatrix_lastNormal hderives]

theorem fourthOrderCovariance_affine_opposite :
    ∃ _ : HasPseudoInverse ℝ, InvertsExactly ∧
      ∃ covariance, DataCovariance.ofMatrix correlated = .ok covariance ∧
        let s := landed #v[0, 0] opposite covariance #v[1, 1] #v[0]
        (landing #v[0, 0] opposite covariance #v[1, 1] #v[0]).after
          [.fit 2, .setParameters [0]] = .ok s ∧
        ∃ last, s.RefitsAffine last #v[1, 1] #v[0] #v[0, 0] opposite ∧
          0 < s.chi2 ∧ s.model.Derives #v[0] opposite ∧ KeepsAll s.lastNormal ∧
          ∃ c, s.fourthOrderCovariance = .ok c ∧
            c.toMatrix =
              (opposite.toMatrixᵀ * s.covariance.matrix⁻¹ * opposite.toMatrix)⁻¹ ∧
            ∃ r p, s.reducedChi2 = some r ∧ s.parameterCovariance = .ok p ∧
              c.toMatrix = r⁻¹ • p.toMatrix := by
  let _ : HasPseudoInverse ℝ := exactPseudoInverse
  have hexact : InvertsExactly := invertsExactly_exactPseudoInverse
  obtain ⟨covariance, hmade⟩ := DataCovariance.exists_ofMatrix posDef_correlated
  obtain ⟨last, h⟩ := refitsAffine_opposite hmade
  have hchi2 := chi2_opposite_pos hmade
  have hderives : (landed #v[0, 0] opposite covariance #v[1, 1] #v[0]).model.Derives #v[0]
    opposite := if_pos rfl
  have hkeeps : KeepsAll (landed #v[0, 0] opposite covariance #v[1, 1] #v[0]).lastNormal := by
    have hlast := h.toMatrix_lastNormal hderives
    rw [← (DataCovariance.weightMatrix_of_isMade h.valid.isMade).2, Matrix.mul_assoc] at hlast
    have hdiagonal := hlast.trans (normal_opposite hmade).2
    refine ⟨1, fun _ => 2, isSingular_diagonal hdiagonal fun _ => two_pos.le, fun _ _ => ?_⟩
    have := rankTolerance_lt_one
    linarith
  obtain ⟨c, hc, hinverse, hrest⟩ := fourthOrderCovariance_affine hexact h
  exact ⟨exactPseudoInverse, hexact, covariance, hmade, after_landing _ _ _ _ _ (by decide), last,
    h, hchi2, hderives, hkeeps, c, hc, hinverse,
    hrest one_ne_zero (by decide) hchi2 hderives hkeeps⟩

/-- A model without parameters has no covariance of its parameters, and the pseudo-inverse leaves
out what the data constrain a million times less than something else. -/
theorem exists_fourthOrderCovariance_ne :
    ((ofAffine #v[0] #v[#v[]] (fun _ => []) .standard .identity #v[1] #v[]).fit 0 =
        .ok (constant #v[0] #v[1]) ∧
      ∃ last, (constant #v[0] #v[1]).RefitsAffine last #v[1] #v[] #v[0] #v[#v[]] ∧
        0 < (constant #v[0] #v[1]).chi2 ∧
        (constant #v[0] #v[1]).model.Derives #v[] #v[#v[]] ∧
        (constant #v[0] #v[1]).parameterCovariance = .error (.badNormalMatrix .noEntries)) ∧
    ∃ _ : HasPseudoInverse ℝ, InvertsExactly ∧
      let s := landed #v[0, 0, 0] steep .identity #v[1, 1, -2] #v[0, 0]
      (landing #v[0, 0, 0] steep .identity #v[1, 1, -2] #v[0, 0]).after
        [.fit 2, .setParameters [0, 0]] = .ok s ∧
      ∃ last c r p, s.RefitsAffine last #v[1, 1, -2] #v[0, 0] #v[0, 0, 0] steep ∧
        0 < s.chi2 ∧ s.model.Derives #v[0, 0] steep ∧ s.fourthOrderCovariance = .ok c ∧
        s.reducedChi2 = some r ∧ s.parameterCovariance = .ok p ∧
        c.toMatrix ≠ r⁻¹ • p.toMatrix := by
  constructor
  · obtain ⟨last, h⟩ := refitsAffine_constant #v[0] #v[1]
    exact ⟨fit_constant _ _, last, h, chi2_constant_pos (by simp), rfl,
      parameterCovariance_constant _ _⟩
  · let _ : HasPseudoInverse ℝ := exactPseudoInverse
    have hexact : InvertsExactly := invertsExactly_exactPseudoInverse
    obtain ⟨last, h⟩ := refitsAffine_steep
    have hderives : (landed #v[0, 0, 0] steep .identity #v[1, 1, -2] #v[0, 0]).model.Derives
      #v[0, 0] steep := if_pos rfl
    have hweight := (DataCovariance.weightMatrix_of_isMade h.valid.isMade).2
    have hlast := h.toMatrix_lastNormal hderives
    rw [← hweight, Matrix.mul_assoc] at hlast
    have hdiagonal := hlast.trans normal_steep.2
    obtain ⟨inverse, hok, hpseudo⟩ := hexact _ two_ne_zero two_ne_zero
    obtain ⟨hreduced, hcovariance⟩ := h.parameterCovariance_eq (by decide) hok
    obtain ⟨c, hc, hinverse⟩ := h.fourthOrderCovariance_eq
    refine ⟨exactPseudoInverse, hexact, after_landing _ _ _ _ _ (by decide), last, c, _, _, h,
      chi2_steep_pos, hderives, hc, hreduced, hcovariance, fun hsame => ?_⟩
    -- The second direction has a variance, and none in the pseudo-inverse.
    have hkept : c.toMatrix 1 1 = 1 / 2 := by
      have hinv : (Matrix.diagonal ![3000000000000, 2] : Matrix (Fin 2) (Fin 2) ℝ)⁻¹ =
          .diagonal ![1 / 3000000000000, 1 / 2] := by
        refine inv_eq_right_inv ?_
        rw [diagonal_mul_diagonal, ← diagonal_one]
        exact congrArg _ (funext fun i => by fin_cases i <;> norm_num)
      rw [hinverse, ← h.toMatrix_lastNormal hderives, hdiagonal, hinv, diagonal_apply_eq]
      rfl
    have hcut : inverse.toMatrix 1 1 = 0 := by
      rw [hpseudo.toMatrix_diagonal hdiagonal fun i => by fin_cases i <;> norm_num,
        diagonal_apply_eq, inverseSquare, if_neg, zero_mul]
      intro hall
      have hfirst := hall 0
      unfold rankTolerance at hfirst
      norm_num at hfirst
    have hentry := congrFun (congrFun hsame 1) 1
    rw [hkept, Mat.toMatrix_scale, Matrix.smul_apply, Matrix.smul_apply, hcut, smul_zero,
      smul_zero] at hentry
    norm_num at hentry

end Solver
end SkyCamera
