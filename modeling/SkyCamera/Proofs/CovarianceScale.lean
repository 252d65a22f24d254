import Mathlib.LinearAlgebra.Matrix.PosDef
import SkyCamera.Proofs.ExactInverse
import SkyCamera.Proofs.FitScale
import SkyCamera.Proofs.ZenithStars

/-!
What a solver reports, and a calibration, under a covariance that is a multiple of another. The
pseudo-inverse of the normal matrix grows as `χ²` shrinks, so the covariance of the parameters does
not depend on the scale. The parameters themselves do, through the first damping: a fit to one datum
shows it after one step.
-/
namespace SkyCamera

open Matrix Linear

namespace Solver

section Damped

variable {α : Type} [Scalar α] {m n : Nat}

def withFit (s : Solver α m n) (fit : Fit α m n) : Solver α m n :=
  { s with parameters? := some fit.last.parameters, lastFit := some fit }

/-- A fit of the solver whose first damping is `first` of what it would be. -/
def fitDamped (first : α → α) (s : Solver α m n) (maxIterations : Nat) :
    Except (FitError α) (Solver α m n) :=
  if n < m then .error (.underdetermined n m)
  else
    match s.data, s.parameters? with
    | none, _ => .error .missingData
    | some _, none => .error .missingParameters
    | some data, some start =>
      .ok (s.withFit ((s.problem data).fitDamped first start maxIterations))

theorem fitDamped_eq (first : α → α) {s : Solver α m n} {data : Vector α n}
    (hdata : s.data = some data) {start : Vector α m} (hstart : s.parameters? = some start)
    (hcount : ¬ n < m) (limit : Nat) :
    s.fitDamped first limit = .ok (s.withFit ((s.problem data).fitDamped first start limit)) := by
  simp only [fitDamped, if_neg hcount, hdata, hstart]

theorem fitDamped_id (s : Solver α m n) (limit : Nat) : s.fitDamped id limit = s.fit limit := rfl

end Damped

variable {m n : Nat} [HasPseudoInverse ℝ]

/-- A normal matrix that is divided by `c` has a pseudo-inverse that is `c` times as large, which
the smaller `χ²` makes up for. -/
theorem parameterCovariance_over (hexact : InvertsExactly) {c : ℝ} {s s' : Solver ℝ m n}
    (hcov : s.covariance.IsMultiple c s'.covariance) (hmodel : s'.model = s.model)
    (hstatus : s.status ≠ .notRun) (hstatus' : s'.status ≠ .notRun) {p : Vector ℝ m}
    (hp : s.parameters? = some p) (hp' : s'.parameters? = some p) (hchi2 : s'.chi2 = s.chi2 / c)
    (hcount : m ≠ 0) : s'.parameterCovariance = s.parameterCovariance := by
  by_cases hdof : m < n
  · have hscaled : s'.normalMatrix = c⁻¹ • s.normalMatrix := by
      have hplace : s'.parameters = s.parameters := by rw [parameters, hp', parameters, hp]
      have hweight := hcov.weightMatrix_eq
      rw [(DataCovariance.weightMatrix_of_isMade hcov.isMade').2,
        (DataCovariance.weightMatrix_of_isMade hcov.isMade).2] at hweight
      simp only [normalMatrix, hmodel, hplace, hweight, Matrix.mul_smul, Matrix.smul_mul]
    obtain ⟨normal, hnormal⟩ := Mat.exists_toMatrix s.normalMatrix
    obtain ⟨normal', hnormal'⟩ := Mat.exists_toMatrix s'.normalMatrix
    obtain ⟨x, hx, hinverse⟩ := hexact normal hcount hcount
    obtain ⟨y, hy, hinverse'⟩ := hexact normal' hcount hcount
    have hxy := hinverse.smul (inv_pos.mpr hcov.pos)
      (by rw [hnormal', hscaled, hnormal]) hinverse'
    have hproduct (reduced : ℝ) : y.scale (reduced / c) = x.scale reduced := by
      apply Mat.toMatrix_injective
      ext i j
      have hentry : y[i][j] = c * x[i][j] := by
        have h := congrFun (congrFun hxy i) j
        rwa [inv_inv] at h
      simp only [Mat.scale, Mat.toMatrix_ofFn, hentry]
      rw [mul_right_comm, mul_div_cancel₀ _ hcov.pos.ne', mul_comm]
    rw [parameterCovariance_of_fitted hstatus hcov.isMade hp hdof hnormal,
      parameterCovariance_of_fitted hstatus' hcov.isMade' hp' hdof hnormal', hx, hy, hchi2,
      div_right_comm]
    exact congrArg Except.ok (hproduct _)
  · have hnone : s.dof = 0 := Nat.sub_eq_zero_of_le (Nat.not_lt.mp hdof)
    rw [parameterCovariance_of_dof hstatus hnone, parameterCovariance_of_dof hstatus' hnone]

/-- What two solvers report that have one solution, and `c` times the covariance in the second. -/
structure ScaledReport (c : ℝ) (t t' : Solver ℝ m n) : Prop where
  accepted_eq : t'.lastFit.map (fun fit => fit.attempts.map (·.accepted)) =
    t.lastFit.map (fun fit => fit.attempts.map (·.accepted))
  parameters_eq : t'.parameters = t.parameters
  values_eq : t'.values = t.values
  residuals_eq : t'.residuals = t.residuals
  status_eq : t'.status = t.status
  iterations_eq : t'.iterations = t.iterations
  chi2_eq : t'.chi2 = t.chi2 / c
  history_eq : t'.history = t.history.map (· / c)
  parameterCovariance_eq : t'.parameterCovariance = t.parameterCovariance
  standardErrors_eq : t'.parameterCovariance.map standardErrors =
    t.parameterCovariance.map standardErrors

/-- In the covariance of the parameters the factor of `χ²` and that of the inverse cancel. -/
theorem scaledReport_withFit (hexact : InvertsExactly) {c : ℝ} {s : Solver ℝ m n}
    {cov' : DataCovariance ℝ n} (hcov : s.covariance.IsMultiple c cov') {fit : Fit ℝ m n}
    (hstatus : fit.status ≠ .notRun) (hcount : m ≠ 0) :
    ScaledReport c (s.withFit fit) ({ s with covariance := cov' }.withFit (fit.over c)) := by
  have hcovariance : ({ s with covariance := cov' }.withFit (fit.over c)).parameterCovariance =
      (s.withFit fit).parameterCovariance :=
    parameterCovariance_over hexact hcov rfl hstatus hstatus rfl rfl rfl hcount
  refine ⟨congrArg some ?_, rfl, rfl, rfl, rfl, fit.iterations_over c, rfl, fit.history_over c,
    hcovariance, congrArg _ hcovariance⟩
  simp only [Fit.over, List.map_map]
  exact List.map_congr_left fun a _ => a.accepted_over c

/-- A fit under the multiple reports what one does from the smaller first damping. -/
theorem endAlike_fit_over (hexact : InvertsExactly) {c : ℝ} {s : Solver ℝ m n}
    {cov' : DataCovariance ℝ n} (hcov : s.covariance.IsMultiple c cov') {data : Vector ℝ n}
    (hdata : s.data = some data) {start : Vector ℝ m} (hstart : s.parameters? = some start)
    {limit : Nat} (hregime : (s.problem data).InRegime c cov' start limit) :
    EndAlike (ScaledReport c) (s.fitDamped (· / c) limit)
      ({ s with covariance := cov' }.fit limit) := by
  have hfit : ({ s with covariance := cov' }.problem data).fitDamped id start limit =
      ((s.problem data).fitDamped (· / c) start limit).over c :=
    ((s.problem data).sameCourse_withCovariance hcov hregime).fit_eq
  have hstatus : (({ s with covariance := cov' }.problem data).fit start limit).status ≠ .notRun :=
    Problem.status_ne_notRun _ start limit
  have hcount : m ≠ 0 := by
    rintro rfl
    exact hregime.matrix_ne (Subsingleton.elim _ _)
  rw [← Problem.fitDamped_id, hfit] at hstatus
  rw [← fitDamped_id]
  by_cases hless : n < m
  · rw [fitDamped, if_pos hless, fitDamped, if_pos hless]
    exact .error _
  · have hdata' : ({ s with covariance := cov' } : Solver ℝ m n).data = some data := hdata
    have hstart' : ({ s with covariance := cov' } : Solver ℝ m n).parameters? = some start := hstart
    rw [fitDamped_eq _ hdata hstart hless, fitDamped_eq _ hdata' hstart' hless, hfit]
    exact .ok (scaledReport_withFit hexact hcov hstatus hcount)

end Solver

section Calibrations

variable {α : Type} [Scalar α]

def StarFit.problem (f : StarFit α) (config : CalibrationConfig α) :
    Problem α f.parameterCount f.dataCount where
  model := f.model config.jacobian
  data := f.observed
  covariance := .diagonal (.replicate f.dataCount (config.pixelSigma * config.pixelSigma))
  settings := config.settings

variable [HasPseudoInverse α]

def StarFit.calibrationDamped (first : α → α) (f : StarFit α) (config : CalibrationConfig α) :
    Except (FitError α) (Calibration α) := do
  let solver ← f.solver? config
  let solver ← solver.fitDamped first config.maxIterations
  match solver.parameterCovariance with
  | .ok covariance => return ⟨f, solver, some covariance⟩
  | .error .noDegreesOfFreedom => return ⟨f, solver, none⟩
  | .error e => throw e

def calibrateDamped (first : α → α) (camera : Camera α) (orientation : Quaternion α)
    (pairs : List (Correspondence α)) (gmst : α) (site : Sky.Site α)
    (config : CalibrationConfig α) : Except (FitError α) (Calibration α) := do
  let start ← StarFit.ofCorrespondences camera orientation pairs gmst site config.faintLimit
  start.calibrationDamped first config

theorem StarFit.calibrationDamped_id (f : StarFit α) (config : CalibrationConfig α) :
    f.calibrationDamped id config = f.calibration config := by
  unfold StarFit.calibration StarFit.calibrationDamped Solver.fitWithCovariance
  refine congrArg (f.solver? config >>= ·) (funext fun s => ?_)
  rw [Solver.fitDamped_id]
  cases s.fit config.maxIterations with
  | error e => rfl
  | ok solver =>
    simp only [bind, Except.bind, pure, Except.pure]
    cases solver.parameterCovariance with
    | ok covariance => rfl
    | error e => cases e <;> rfl

theorem calibrateDamped_id (camera : Camera α) (orientation : Quaternion α)
    (pairs : List (Correspondence α)) (gmst : α) (site : Sky.Site α)
    (config : CalibrationConfig α) :
    calibrateDamped id camera orientation pairs gmst site config =
      calibrate camera orientation pairs gmst site config := by
  rw [calibrate_eq]
  exact congrArg _ (funext fun f => f.calibrationDamped_id config)

end Calibrations

/-- What two calibrations say that have one solution. -/
structure Calibration.SameSolution (c d : Calibration ℝ) : Prop where
  camera_eq : d.camera = c.camera
  orientation_eq : d.orientation = c.orientation
  residuals_eq : d.residuals = c.residuals
  standardErrors_eq : d.standardErrors.map Vector.toList = c.standardErrors.map Vector.toList

/-- With one standard deviation for all pixels, another is another scale of their covariance. -/
theorem DataCovariance.isMultiple_replicate (n : Nat) {sigma t : ℝ} (hsigma : 0 < sigma)
    (ht : 0 < t) :
    IsMultiple (t * t) (.diagonal (.replicate n (sigma * sigma)))
      (.diagonal (.replicate n (t * sigma * (t * sigma)))) := by
  have hmade {variance : ℝ} (hpos : 0 < variance) :
      (diagonal (.replicate n variance)).IsMade :=
    Or.inl ⟨_, ofVariances_of_pos fun i => by simpa using hpos⟩
  have hproduct := mul_pos ht hsigma
  refine ⟨mul_pos ht ht, hmade (mul_pos hsigma hsigma), hmade (mul_pos hproduct hproduct), ?_⟩
  ext i j
  by_cases hij : i = j
  · subst hij
    simp [matrix, coords, mul_mul_mul_comm]
  · simp [matrix, hij]

namespace StarFit

variable {f : StarFit ℝ} {config : CalibrationConfig ℝ}

theorem solver?_of_none (hnone : f.covariances? = none) (hsigma : 0 < config.pixelSigma) :
    f.solver? config = .ok { Solver.ofModel (f.model config.jacobian) config.settings with
      data := some f.observed
      parameters? := some f.initial
      covariance := (f.problem config).covariance } := by
  have hcovariance : (f.input config.jacobian).dataCovariance config.pixelSigma =
      .ok (f.problem config).covariance := by
    have hinput : (f.input config.jacobian).covariances? = none := hnone
    rw [FitInput.dataCovariance, hinput]
    exact DataCovariance.ofVariances_of_pos fun i => by simpa using mul_pos hsigma hsigma
  rw [solver?, FitInput.solver?, hcovariance]
  rfl

variable [HasPseudoInverse ℝ]

/-- Where every pixel has its own covariance, the standard deviation for all is not looked at. -/
theorem calibration_of_covariances (hsome : f.covariances? ≠ none) (sigma : ℝ) :
    f.calibration { config with pixelSigma := sigma } = f.calibration config := by
  have hcovariance (sigma : ℝ) : (f.input config.jacobian).dataCovariance sigma =
      (f.input config.jacobian).dataCovariance config.pixelSigma := by
    obtain ⟨blocks, hblocks⟩ := Option.ne_none_iff_exists'.mp hsome
    have hinput : (f.input config.jacobian).covariances? = some blocks := hblocks
    rw [FitInput.dataCovariance, hinput, FitInput.dataCovariance, hinput]
  have hsolver : f.solver? { config with pixelSigma := sigma } = f.solver? config := by
    rw [solver?, solver?, FitInput.solver?, FitInput.solver?]
    rw [hcovariance sigma]
  rw [calibration, hsolver, calibration]

/-- With one variance for all stars a wider `σ` is a multiple of the covariance. -/
theorem endAlike_calibration_over (hexact : InvertsExactly) (hnone : f.covariances? = none)
    {t : ℝ} (ht : 0 < t) (hsigma : 0 < config.pixelSigma)
    (hregime : (f.problem config).InRegime (t * t)
      (f.problem { config with pixelSigma := t * config.pixelSigma }).covariance f.initial
      config.maxIterations) :
    EndAlike Calibration.SameSolution (f.calibrationDamped (· / (t * t)) config)
      (f.calibrationDamped id { config with pixelSigma := t * config.pixelSigma }) := by
  let config' : CalibrationConfig ℝ := { config with pixelSigma := t * config.pixelSigma }
  have hsigma' : 0 < config'.pixelSigma := mul_pos ht hsigma
  let s : Solver ℝ f.parameterCount f.dataCount :=
    { Solver.ofModel (f.model config.jacobian) config.settings with
      data := some f.observed
      parameters? := some f.initial
      covariance := (f.problem config).covariance }
  have hfit : EndAlike (Solver.ScaledReport (t * t))
      (s.fitDamped (· / (t * t)) config.maxIterations)
      ({ s with covariance := (f.problem config').covariance }.fitDamped id config.maxIterations) :=
    Solver.endAlike_fit_over hexact
      (DataCovariance.isMultiple_replicate f.dataCount hsigma ht) rfl rfl hregime
  unfold calibrationDamped
  rw [solver?_of_none hnone hsigma, solver?_of_none hnone hsigma']
  refine hfit.bind fun last last' _ _ hreport => ?_
  rw [hreport.parameterCovariance_eq]
  have hcamera := congrArg f.cameraAt hreport.parameters_eq
  have horientation := congrArg f.orientationAt hreport.parameters_eq
  have hresiduals (covariance : Option (Mat ℝ f.parameterCount f.parameterCount)) :
      Calibration.residuals ⟨f, last', covariance⟩ =
        Calibration.residuals ⟨f, last, covariance⟩ := by
    simp only [Calibration.residuals, hreport.residuals_eq]
  cases last.parameterCovariance with
  | ok covariance => exact .ok ⟨hcamera, horientation, hresiduals _, rfl⟩
  | error e =>
    cases e with
    | noDegreesOfFreedom => exact .ok ⟨hcamera, horientation, hresiduals _, rfl⟩
    | _ => exact .error _

end StarFit

namespace Solver

section Datum

/-- A solver for one datum at 1 with the given variance, and the start 0. -/
noncomputable def ofDatum (variance : ℝ) : Solver ℝ 1 1 :=
  { ofModel (level 1) .standard with
    data := some #v[1], parameters? := some #v[0], covariance := .diagonal #v[variance] }

noncomputable def datum (variance : ℝ) : Problem ℝ 1 1 := (ofDatum variance).problem #v[1]

theorem isMultiple_ofDatum {c v : ℝ} (hc : 0 < c) (hv : 0 < v) :
    (ofDatum v).covariance.IsMultiple c (.diagonal #v[c * v]) := by
  have hmade {x : ℝ} (hx : 0 < x) : (DataCovariance.diagonal #v[x]).IsMade :=
    Or.inl ⟨_, DataCovariance.ofVariances_of_pos fun i => by fin_cases i; exact hx⟩
  refine ⟨hc, hmade hv, hmade (mul_pos hc hv), ?_⟩
  ext i j
  fin_cases i
  fin_cases j
  simp [ofDatum, DataCovariance.matrix, coords]

theorem exists_eq_singleton (p : Vector ℝ 1) : ∃ x, p = #v[x] := by
  refine ⟨p[0], Vector.ext fun i hi => ?_⟩
  obtain rfl : i = 0 := by omega
  rfl

theorem jacobian_level (p : Vector ℝ 1) : (level 1).jacobian p = #v[#v[1]] := by
  obtain ⟨x, rfl⟩ := exists_eq_singleton p
  ext i hi j hj
  obtain rfl : i = 0 := by omega
  obtain rfl : j = 0 := by omega
  simp [level, Curve.model, JacobianMode.derivative, Model.jacobian, Curve.jacobian,
    CurveKind.slopes?]

theorem equations_datum (v : ℝ) (pt : Point ℝ 1 1) :
    ((datum v).equations pt).matrix.toMatrix 0 0 = v⁻¹ ∧
      coords ((datum v).equations pt).gradient 0 = v⁻¹ * ((1 : ℝ) - pt.values[0]) := by
  have hjacobian : (datum v).model.jacobian pt.parameters = #v[#v[1]] := jacobian_level _
  simp only [Problem.equations, hjacobian]
  constructor
  · simp [datum, ofDatum, Solver.problem, DataCovariance.weightRows, Mat.divideRows, dot_real,
      Mat.toMatrix, dotProduct, coords, Mat.transpose, Mat.ofFn, Mat.mul]
  · simp [datum, ofDatum, Solver.problem, DataCovariance.weightRows, Mat.divideRows, dot_real,
      dotProduct, coords, Mat.transpose, Mat.ofFn, Mat.mulVec]

theorem isClear_datum {v : ℝ} (hfloor : dampingFloor ≤ v⁻¹) (pt : Point ℝ 1 1) :
    ((datum v).equations pt).IsClear := by
  intro k
  fin_cases k
  exact Or.inr (hfloor.trans_eq (equations_datum v pt).1.symm)

theorem dampingFloor_le_inv {v : ℝ} (hv : 0 < v) (hle : v ≤ 1000) : dampingFloor ≤ v⁻¹ := by
  refine le_trans ?_ (inv_anti₀ hv hle)
  unfold dampingFloor
  norm_num

theorem staysClear_datum {v : ℝ} (hfloor : dampingFloor ≤ v⁻¹) (first : ℝ → ℝ)
    (start : Vector ℝ 1) (limit : Nat) : (datum v).StaysClear first start limit :=
  Problem.forall_mem_visited (isClear_datum hfloor) first start limit

theorem matrix_datum_ne_zero {v : ℝ} (hv : 0 < v) (start : Vector ℝ 1) :
    ((datum v).firstIterate start).equations.matrix.toMatrix ≠ 0 := by
  intro hzero
  have hentry := congrFun (congrFun hzero 0) 0
  have hmatrix : ((datum v).firstIterate start).equations.matrix.toMatrix 0 0 = v⁻¹ :=
    (equations_datum v _).1
  rw [hmatrix] at hentry
  exact (inv_pos.mpr hv).ne' hentry

theorem point_datum (v x : ℝ) :
    ((datum v).point #v[x]).parameters = #v[x] ∧ ((datum v).point #v[x]).values = #v[x] ∧
      ((datum v).point #v[x]).chi2 = v⁻¹ * (1 - x) ^ 2 := by
  have hvalues : (level 1).values #v[x] = #v[x] := values_level 1 x
  refine ⟨rfl, hvalues, ?_⟩
  show (DataCovariance.diagonal #v[v]).chi2 (#v[1] - (level 1).values #v[x]) = _
  rw [hvalues, DataCovariance.chi2_real]
  simp [coords, DataCovariance.weightMatrix, dotProduct, Matrix.mulVec]
  ring

theorem damping_datum {v : ℝ} (hv : 0 < v) (start : Vector ℝ 1) :
    ((datum v).firstIterate start).damping = 1e-3 * v⁻¹ := by
  have hentry : ((datum v).equations ((datum v).point start)).matrix[(0 : Fin 1)][(0 : Fin 1)] =
      v⁻¹ := (equations_datum v _).1
  refine Problem.firstDamping_of_pos one_ne_zero ?_ (inv_pos.mpr hv)
  rw [Scalar.sum_real, Fin.sum_univ_one, Nat.cast_one, div_one]
  exact hentry

/-- The damped step from 0 falls short of the datum. -/
theorem exists_trial_datum {v : ℝ} (hv : 0 < v) (hfloor : dampingFloor ≤ v⁻¹) :
    ∃ x, (1 + 1e-3 * v⁻¹) * x = 1 ∧
      (datum v).trial? ((datum v).firstIterate #v[0]) = some ((datum v).point #v[x]) := by
  have hinv : 0 < v⁻¹ := inv_pos.mpr hv
  let it := (datum v).firstIterate #v[0]
  have hmatrix : it.equations.matrix.toMatrix 0 0 = v⁻¹ := (equations_datum v it.point).1
  have hgradient : coords it.equations.gradient 0 = v⁻¹ := by
    obtain ⟨-, hvalues, -⟩ := point_datum v 0
    have hfirst : it.point.values[0] = 0 := congrArg (·[0]) hvalues
    have h := (equations_datum v it.point).2
    rwa [hfirst, sub_zero, mul_one] at h
  have hdamping : it.damping = 1e-3 * v⁻¹ := damping_datum hv #v[0]
  have hscale : 0 < it.damping := hdamping ▸ mul_pos (by norm_num) hinv
  have hnormal : it.equations.matrix.toMatrix.PosSemidef :=
    (datum v).posSemidef_equations it.point (isMultiple_ofDatum one_pos hv).posDef_weightMatrix
  obtain ⟨d, hd, hsolves⟩ := exists_solveDamped hnormal hscale it.equations.gradient
  obtain ⟨x, rfl⟩ := exists_eq_singleton d
  have hx : (1 + it.damping) * x = 1 := by
    have hrow := congrFun hsolves 0
    have hfloored : Scalar.atLeast dampingFloor v⁻¹ = v⁻¹ := if_pos hfloor
    have hentry : coords #v[x] 0 = x := rfl
    rw [toMatrix_damped, toMatrix_flooredDiagonal, hgradient] at hrow
    simp only [Matrix.mulVec, dotProduct, Fin.sum_univ_one, Matrix.add_apply, Matrix.smul_apply,
      Matrix.diagonal_apply_eq, smul_eq_mul, hmatrix, hfloored, hentry] at hrow
    refine mul_left_cancel₀ hinv.ne' ?_
    linarith
  have hplace : it.point.parameters + #v[x] = #v[x] := by
    have hstart : it.point.parameters = #v[0] := rfl
    rw [hstart]
    ext i hi
    obtain rfl : i = 0 := by omega
    simp
  refine ⟨x, hdamping ▸ hx, ?_⟩
  show (solveDamped it.equations.matrix it.equations.gradient it.damping).map _ = _
  rw [hd, Option.map_some, hplace]

theorem improves_datum {v x : ℝ} (hv : 0 < v) (hpos : 0 < x) (hle : x ≤ 1) :
    Problem.Improves ((datum v).firstIterate #v[0]) ((datum v).point #v[x]) := by
  obtain ⟨-, -, hchi2⟩ := point_datum v 0
  obtain ⟨-, -, hchi2'⟩ := point_datum v x
  have hbetter : (1 - x) ^ 2 < (1 - 0) ^ 2 := by nlinarith
  refine ⟨Scalar.isFinite_real _, ?_⟩
  rw [hchi2']
  exact (mul_lt_mul_of_pos_left hbetter (inv_pos.mpr hv)).trans_eq hchi2.symm

/-- The first damping is a multiple of the inverse variance, so the first step depends on it. -/
theorem parameters_fit_datum {v : ℝ} (hv : 0 < v) (hfloor : dampingFloor ≤ v⁻¹) :
    ∃ x, (1 + 1e-3 * v⁻¹) * x = 1 ∧ ((datum v).fit #v[0] 1).last.parameters = #v[x] := by
  obtain ⟨x, hx, htrial⟩ := exists_trial_datum hv hfloor
  have hdamping : 0 < 1e-3 * v⁻¹ := mul_pos (by norm_num) (inv_pos.mpr hv)
  have hpos : 0 < x := pos_of_mul_pos_right (hx ▸ one_pos) (by linarith)
  have himproves := improves_datum hv hpos (by nlinarith)
  have hzero : ¬ Scalar.IsZero ((datum v).point #v[0]).chi2 := by
    obtain ⟨-, -, hchi2⟩ := point_datum v 0
    rw [Scalar.isZero_real_iff, hchi2]
    simpa using hv.ne'
  obtain ⟨hparameters, -, -⟩ := point_datum v x
  refine ⟨x, hx, ?_⟩
  rw [(datum v).last_fit_one hzero htrial himproves, hparameters]

end Datum

end Solver

section Zenith

open StarFit

noncomputable def oneStep (sigma : ℝ) : CalibrationConfig ℝ :=
  { zenithConfig with maxIterations := 1, pixelSigma := sigma }

theorem problem_oneStep (f : StarFit ℝ) :
    f.problem (oneStep 1) = f.problemUnder (oneStep 1) (.diagonal (.replicate f.dataCount 1)) := by
  show f.problemUnder (oneStep 1) (.diagonal (.replicate f.dataCount (1 * 1))) = _
  rw [mul_one]

/-- The first trial of the calibration tilts the camera, and no derivative becomes small by it. -/
theorem one_le_sq_jacobian_trial {trial : Point ℝ _ _}
    (htrial : ((ofZenith plainCamera 5 3).problem (oneStep 1)).trial?
      (((ofZenith plainCamera 5 3).problem (oneStep 1)).firstDampedBy (· / (2 * 2))
        (ofZenith plainCamera 5 3).initial) = some trial)
    (i : Fin (ofZenith plainCamera 5 3).dataCount) (c : Fin 8) :
    ((ofZenith plainCamera 5 3).jacobian trial.parameters).toMatrix i c = 0 ∨
      1 ≤ ((ofZenith plainCamera 5 3).jacobian trial.parameters).toMatrix i c ^ 2 := by
  let f := ofZenith plainCamera 5 3
  let problem := f.problemUnder (oneStep 1) (.diagonal (.replicate f.dataCount 1))
  let it := problem.firstDampedBy (· / (2 * 2)) f.initial
  have hdamping : it.damping = 0.00625 / (2 * 2) :=
    congrArg (· / (2 * 2)) ((damping_plainCamera 5 3 rfl (by decide)).trans (by norm_num))
  have hpositive : 0 < it.damping := by
    rw [hdamping]
    norm_num
  have hmode : (oneStep 1).jacobian = .analytic := rfl
  obtain ⟨step, s, hstep, htilt, hcamera, hquaternion⟩ :=
    exists_tilt 5 3 hmode (by decide) hpositive
  have hparameters : trial.parameters = f.withUnitQuaternion (f.initial + step) := by
    rw [problem_oneStep] at htrial
    have hmade : problem.trial? it = some (problem.point (it.point.parameters + step)) :=
      congrArg (Option.map _) hstep
    have hstart : it.point.parameters = f.initial := f.withUnitQuaternion_initial rfl
    rw [hmade, hstart] at htrial
    rw [← Option.some.inj htrial]
    rfl
  obtain ⟨w, y, hunit, hw, hwy, hone, hdepth⟩ : ∃ w y, unitOrIdentity ⟨1, 0, s, 0⟩ = ⟨w, 0, y, 0⟩ ∧
      0 < w ∧ w ≤ 2 * y ∧ w * w + y * y = 1 ∧ 0 < w * w - y * y := by
    rw [hdamping] at htilt
    exact exists_unit_tilt (by linarith) (by linarith)
  obtain ⟨⟨k, e⟩, rfl⟩ := f.placeEquiv.surjective i
  have hcamera' := (f.cameraAt_withUnitQuaternion (f.initial + step)).trans hcamera
  have hquaternion' := f.quaternionAt_withUnitQuaternion (f.initial + step)
  rw [hquaternion, hunit] at hquaternion'
  rw [hparameters, placeEquiv_apply,
    jacobian_tilt 5 3 hcamera' hquaternion' hone rfl hdepth]
  exact one_le_sq_rowsOf_tilt hw hwy hone rfl hdepth c e

/-- The floor has no part in a calibration of one step, nor in one with twice the standard
deviation. -/
theorem inRegime_oneStep :
    let f := ofZenith plainCamera 5 3
    (f.problem (oneStep 1)).InRegime (2 * 2) (f.problem (oneStep (2 * 1))).covariance f.initial
      1 := by
  intro f
  let problem := f.problem (oneStep 1)
  have hcovariance : problem.covariance = .diagonal (.replicate f.dataCount (1 * 1)) := rfl
  have hmultiple : problem.covariance.IsMultiple (2 * 2) (f.problem (oneStep (2 * 1))).covariance :=
    DataCovariance.isMultiple_replicate f.dataCount one_pos two_pos
  have hclear (pt : Point ℝ f.parameterCount f.dataCount)
      (hentries : ∀ i c, (f.jacobian pt.parameters).toMatrix i c = 0 ∨
        1 ≤ (f.jacobian pt.parameters).toMatrix i c ^ 2) :
      (problem.equations pt).IsClear ∧ ((problem.equations pt).over (2 * 2)).IsClear := by
    refine Problem.isClear_of_jacobian hcovariance pt (by norm_num) ?_ ?_ hentries
    · exact Solver.dampingFloor_le_inv (by norm_num) (by norm_num)
    · rw [← one_div, div_div, one_div]
      exact Solver.dampingFloor_le_inv (by norm_num) (by norm_num)
  have hstart : (problem.point f.initial).parameters = f.initial := f.withUnitQuaternion_initial rfl
  have hjacobian (k : Fin f.stars.size) (e : Fin 2) (c : Fin 8) :
      (f.jacobian (problem.point f.initial).parameters).toMatrix (f.place k e) c =
        coordinate (![0, 0, 1, 0, 0, 0, 2, 0] c, ![0, 0, 0, 1, 0, -2, 0, 0] c) e := by
    rw [hstart]
    exact jacobian_plainCamera 5 3 k e c
  refine problem.inRegime_one hmultiple ?_ (hclear _ fun i c => ?_) fun trial htrial =>
    hclear trial fun i c => one_le_sq_jacobian_trial htrial i c
  · let first : Fin f.stars.size := ⟨0, by simp [f, size_ofZenith]⟩
    have hentry : (problem.model.jacobian (problem.point f.initial).parameters).toMatrix
        (f.place first 0) (2 : Fin 8) ≠ 0 := (hjacobian first 0 2).trans_ne one_ne_zero
    exact Problem.matrix_ne_zero_of_jacobian hcovariance _ (by norm_num) hentry
  · obtain ⟨⟨k, e⟩, rfl⟩ := f.placeEquiv.surjective i
    rw [placeEquiv_apply]
    exact (congrArg (fun y : ℝ => y = 0 ∨ 1 ≤ y ^ 2) (hjacobian k e c)).mpr
      (one_le_sq_rowsOf_start c e)

/-- The stars were not seen where they are, so the step is tried. -/
theorem iterations_oneStep [HasPseudoInverse ℝ] {d : Calibration ℝ}
    (hd : calibrate plainCamera .identity (zenithStars 5 3) 0 ⟨0, 0, 0⟩ (oneStep (2 * 1)) = .ok d)
    (hstart : d.start = ofZenith plainCamera 5 3) : 0 < d.solver.iterations := by
  obtain ⟨f, solver, estimate⟩ := d
  obtain rfl : f = ofZenith plainCamera 5 3 := hstart
  obtain ⟨covariance, hunder⟩ := Calibration.exists_fittedUnder hd
  let f := ofZenith plainCamera 5 3
  have hsize : f.stars.size ≠ 0 := by simp [f, size_ofZenith]
  obtain ⟨hcovariance, -⟩ := dataCovariance_eq_ok hunder.covariance_eq hsize
    (exists_star_ofZenith (by decide))
  have hmultiple := DataCovariance.isMultiple_replicate f.dataCount one_pos two_pos
  have hmode : (oneStep 1).jacobian = .analytic := rfl
  have hchi2 : ((f.problemUnder (oneStep (2 * 1)) covariance).point f.initial).chi2 =
      f.stars.size * (3 * 3 + 0 * 0) / (2 * 2) := by
    have hfirst := (movesAlike_plainCamera 5 3 hmode).chi2_eq
    rw [← problem_oneStep] at hfirst
    rw [hcovariance]
    refine (congrArg Point.chi2 ((f.problem (oneStep 1)).point_over hmultiple f.initial)).trans ?_
    exact congrArg (· / (2 * 2)) hfirst
  have hsolver := hunder.solver_eq
  dsimp only at hsolver
  rw [hsolver]
  refine Problem.iterations_pos _ ?_ one_ne_zero
  rw [Scalar.isZero_real_iff, hchi2]
  have hcast : (f.stars.size : ℝ) ≠ 0 := Nat.cast_ne_zero.mpr hsize
  positivity

end Zenith

/-- Where every source has a covariance, so does every kept star. -/
theorem StarFit.covariances?_ne_none {camera : Camera ℝ} {orientation : Quaternion ℝ}
    {pairs : List (Correspondence ℝ)} {gmst : ℝ} {site : Sky.Site ℝ} {limit : ℝ} {f : StarFit ℝ}
    (hf : ofCorrespondences camera orientation pairs gmst site limit = .ok f)
    (hpairs : ∀ pair ∈ pairs, pair.source.covariance ≠ none) : f.covariances? ≠ none := by
  obtain ⟨-, hstars, -⟩ := stars_of_ofCorrespondences hf
  have hknown : ∀ star ∈ f.stars.toList, star.covariance ≠ none := by
    intro star hstar
    rw [hstars] at hstar
    obtain ⟨x, hx, rfl⟩ := List.mem_map.mp hstar
    exact hpairs x.1 (List.mem_of_getElem? (Correspondence.getElem?_of_mem_numberedKept hx))
  intro hnone
  obtain ⟨star, hstar, hunknown⟩ := covariances?_eq_none_iff.mp hnone
  exact hknown star hstar hunknown

/-- A fit under `c` times the covariance is the fit under the covariance itself with its first
damping divided by `c`, and reports the same but for `χ²`. So the solution of a calibration depends
on the one standard deviation of all pixels through the first damping only, and not at all if every
kept source has a covariance. -/
theorem fit_scaledCovariance [HasPseudoInverse ℝ] (hexact : InvertsExactly) :
    (∀ {m n : Nat} (s : Solver ℝ m n) (data : Vector ℝ n) (start : Vector ℝ m) (c : ℝ)
        (cov' : DataCovariance ℝ n) (limit : Nat),
      s.data = some data → s.parameters? = some start → s.covariance.IsMultiple c cov' →
      (s.problem data).InRegime c cov' start limit →
        (s.problem data).SameCourse c ((s.problem data).withCovariance cov') start limit ∧
        EndAlike (Solver.ScaledReport c) (s.fitDamped (· / c) limit)
          ({ s with covariance := cov' }.fit limit)) ∧
    ∀ (camera : Camera ℝ) (orientation : Quaternion ℝ) (pairs : List (Correspondence ℝ)) (gmst : ℝ)
        (site : Sky.Site ℝ) (config : CalibrationConfig ℝ) (t : ℝ),
      0 < t → 0 < config.pixelSigma →
      let config' : CalibrationConfig ℝ := { config with pixelSigma := t * config.pixelSigma }
      let start? := StarFit.ofCorrespondences camera orientation pairs gmst site config.faintLimit
      ((∀ f, start? = .ok f → f.covariances? = none ∧
          (f.problem config).InRegime (t * t) (f.problem config').covariance f.initial
            config.maxIterations) →
        EndAlike Calibration.SameSolution
          (calibrateDamped (· / (t * t)) camera orientation pairs gmst site config)
          (calibrate camera orientation pairs gmst site config')) ∧
      ((∀ f, start? = .ok f → f.covariances? ≠ none) →
        calibrate camera orientation pairs gmst site config' =
          calibrate camera orientation pairs gmst site config) := by
  refine ⟨fun s data start c cov' limit hdata hstart hcov hregime => ?_,
    fun camera orientation pairs gmst site config t ht hsigma => ⟨fun hregime => ?_,
      fun hsome => ?_⟩⟩
  · exact ⟨(s.problem data).sameCourse_withCovariance hcov hregime,
      Solver.endAlike_fit_over hexact hcov hdata hstart hregime⟩
  · rw [← calibrateDamped_id]
    refine (EndAlike.refl _).bind ?_
    rintro f _ hf - rfl
    obtain ⟨hnone, hclear⟩ := hregime f hf
    exact StarFit.endAlike_calibration_over hexact hnone ht hsigma hclear
  · rw [calibrate_eq, calibrate_eq]
    dsimp only
    cases hf : StarFit.ofCorrespondences camera orientation pairs gmst site config.faintLimit with
    | error e => rfl
    | ok f => exact StarFit.calibration_of_covariances (hsome f hf) (t * config.pixelSigma)

noncomputable def sixWithCovariances : List (Correspondence ℝ) :=
  let pair := equatorPair 1 0
  List.replicate 6 { pair with source := { pair.source with covariance := some ⟨1, 0, 0, 1⟩ } }

theorem fit_scaledCovariance_ofDatum :
    ∃ _ : HasPseudoInverse ℝ, InvertsExactly ∧
      (∃ t t', (Solver.ofDatum 1).fitDamped (· / 4) 1 = .ok t ∧
        { Solver.ofDatum 1 with covariance := .diagonal #v[4 * 1] }.fit 1 = .ok t' ∧
        (Solver.datum 1).SameCourse 4 ((Solver.datum 1).withCovariance (.diagonal #v[4 * 1]))
          #v[0] 1 ∧
        Solver.ScaledReport 4 t t') ∧
      (∃ c d, calibrateDamped (· / (2 * 2)) plainCamera .identity (zenithStars 5 3) 0 ⟨0, 0, 0⟩
          (oneStep 1) = .ok c ∧
        calibrate plainCamera .identity (zenithStars 5 3) 0 ⟨0, 0, 0⟩ (oneStep (2 * 1)) = .ok d ∧
        0 < d.solver.iterations ∧ c.SameSolution d) ∧
      calibrate StarFit.zenithCamera .identity sixWithCovariances 0 ⟨0, 0, 0⟩
          { zenithConfig with pixelSigma := 2 * 1 } =
        calibrate StarFit.zenithCamera .identity sixWithCovariances 0 ⟨0, 0, 0⟩ zenithConfig := by
  let _ : HasPseudoInverse ℝ := exactPseudoInverse
  have hexact : InvertsExactly := invertsExactly_exactPseudoInverse
  obtain ⟨hsolver, hcalibration⟩ := fit_scaledCovariance hexact
  refine ⟨exactPseudoInverse, hexact, ?_, ?_, ?_⟩
  · have hclear : (Solver.datum 1).StaysClear (· / 4) #v[0] 1 :=
      Solver.staysClear_datum (Solver.dampingFloor_le_inv one_pos (by norm_num)) _ _ _
    have hclear' : (Solver.datum (4 * 1)).StaysClear id #v[0] 1 :=
      Solver.staysClear_datum (Solver.dampingFloor_le_inv (by norm_num) (by norm_num)) _ _ _
    obtain ⟨hcourse, hend⟩ := hsolver (Solver.ofDatum 1) #v[1] #v[0] 4 (.diagonal #v[4 * 1]) 1 rfl
      rfl (Solver.isMultiple_ofDatum four_pos one_pos)
      ⟨Solver.matrix_datum_ne_zero one_pos _, hclear, hclear'⟩
    obtain ⟨t', -, ht', -, -⟩ := Solver.exists_fit
      (s := { Solver.ofDatum 1 with covariance := .diagonal #v[4 * 1] }) rfl rfl (Nat.le_refl 1) 1
    obtain ⟨t, ht, hreport⟩ := hend.exists_left ht'
    exact ⟨t, t', ht, ht', hcourse, hreport⟩
  · have hend := (hcalibration plainCamera .identity (zenithStars 5 3) 0 ⟨0, 0, 0⟩ (oneStep 1) 2
      two_pos one_pos).1 fun f hf => by
        rw [show (oneStep 1).faintLimit = 6 from rfl,
          StarFit.ofCorrespondences_zenithStars plainCamera 5 3 (by decide)] at hf
        cases hf
        exact ⟨StarFit.covariances?_eq_none_iff.mpr (StarFit.exists_star_ofZenith (by decide)),
          inRegime_oneStep⟩
    have hinverse {n : Nat} (a : Mat ℝ n n) (hn : n ≠ 0) : ∃ x, pseudoInverse a = .ok x :=
      (hexact a hn hn).imp fun _ => And.left
    have hsigma : (0 : ℝ) < 2 * 1 := by norm_num
    obtain ⟨d, hd, hstart⟩ := exists_calibrate_zenithStars_of_inverses hinverse plainCamera 5 3
      (oneStep (2 * 1)) rfl hsigma (by decide)
    obtain ⟨c, hc, hsame⟩ := hend.exists_left hd
    exact ⟨c, d, hc, hd, iterations_oneStep hd hstart, hsame⟩
  · refine (hcalibration StarFit.zenithCamera .identity sixWithCovariances 0 ⟨0, 0, 0⟩ zenithConfig
      2 two_pos one_pos).2 fun f hf => f.covariances?_ne_none hf fun pair hpair => ?_
    rw [List.eq_of_mem_replicate hpair]
    exact Option.some_ne_none _

/-- The first damping takes part in the first step, so without the division the solutions differ. -/
theorem parameters_ne_of_scaledCovariance :
    ∃ t t', (Solver.ofDatum 1).fit 1 = .ok t ∧ (Solver.ofDatum 2).fit 1 = .ok t' ∧
      Solver.ofDatum 2 = { Solver.ofDatum 1 with covariance := (Solver.ofDatum 2).covariance } ∧
      (Solver.ofDatum 1).covariance.IsMultiple 2 (Solver.ofDatum 2).covariance ∧
      ((Solver.datum 1).firstIterate #v[0]).equations.matrix.toMatrix ≠ 0 ∧
      (Solver.datum 1).StaysClear id #v[0] 1 ∧ (Solver.datum 2).StaysClear id #v[0] 1 ∧
      t'.parameters ≠ t.parameters := by
  have hfloor : dampingFloor ≤ (1 : ℝ)⁻¹ := Solver.dampingFloor_le_inv one_pos (by norm_num)
  have hfloor' : dampingFloor ≤ (2 : ℝ)⁻¹ := Solver.dampingFloor_le_inv two_pos (by norm_num)
  have hmultiple := Solver.isMultiple_ofDatum two_pos one_pos
  rw [mul_one] at hmultiple
  refine ⟨(Solver.ofDatum 1).withFit ((Solver.datum 1).fit #v[0] 1),
    (Solver.ofDatum 2).withFit ((Solver.datum 2).fit #v[0] 1), rfl, rfl, rfl, hmultiple,
    Solver.matrix_datum_ne_zero one_pos _, Solver.staysClear_datum hfloor _ _ _,
    Solver.staysClear_datum hfloor' _ _ _, fun hsame => ?_⟩
  obtain ⟨x, hx, hparameters⟩ := Solver.parameters_fit_datum one_pos hfloor
  obtain ⟨y, hy, hparameters'⟩ := Solver.parameters_fit_datum two_pos hfloor'
  have hlast : ((Solver.datum 2).fit #v[0] 1).last.parameters =
      ((Solver.datum 1).fit #v[0] 1).last.parameters := hsame
  rw [hparameters, hparameters'] at hlast
  obtain rfl : y = x := congrArg (·[0]) hlast
  norm_num at hx hy
  linarith

end SkyCamera
