import SkyCamera.Proofs.CovarianceForms
import SkyCamera.Proofs.KeptCalibration

/-!
The errors of a calibration. It is a chain of calls that check the lengths of lists, and any of them
could fail; but the lengths fit, so only four things can go wrong: no star is kept, the covariance
of the pixels is rejected, there are too few pixels, and the normal matrix has no pseudo-inverse.
They come in this order, and the numbers alone decide which. No law of the arithmetic is used.
-/
namespace SkyCamera

variable {α : Type}

namespace StarFit

def observedList (f : StarFit α) : List α := f.stars.toList.flatMap fun star => [star.i, star.j]

theorem observedList_eq (f : StarFit α) : f.observedList = f.observed.toList :=
  (toList_flatten_ofFn f.stars fun star => #v[star.i, star.j]).symm

def cameraOf (f : StarFit α) (p : List α) : Except (FitError α) (Camera α) := do
  let v ← f.parametersOf p
  f.camera.setParameters (v.toList.take f.intrinsicCount)

theorem cameraOf_toList (f : StarFit α) (p : Vector α f.parameterCount) :
    f.cameraOf p.toList = .ok (f.cameraAt p) := by
  unfold cameraOf parametersOf
  rw [vectorOfLength_toList]
  exact f.setParameters_take p

end StarFit

variable [Scalar α]

section Steps

/-- The matrix with the blocks along its diagonal, row after row. -/
def blockEntries (blocks : List (Covariance2 α)) : List α :=
  (Table.ofMat (blockDiagonal (2 * blocks.length) blocks)).toList

namespace StarFit

variable (f : StarFit α)

def orientationOf (p : List α) : Except (FitError α) (Quaternion α) := do
  return f.orientationAt (← f.parametersOf p)

def solverInSteps (config : CalibrationConfig α) :
    Except (FitError α) (Solver α f.parameterCount f.dataCount) := do
  let s ← (Solver.ofModel (f.model config.jacobian) config.settings).setData f.observedList
  let s ← s.setParameters f.initialList
  match f.covariances? with
  | some blocks => s.setCovariance (blockEntries blocks)
  | none => s.setVariance (.replicate f.dataCount (config.pixelSigma * config.pixelSigma))

def fittedInSteps (config : CalibrationConfig α) :
    Except (FitError α) (Solver α f.parameterCount f.dataCount) := do
  let s ← f.solverInSteps config
  s.fit config.maxIterations

def report [Linear.HasPseudoInverse α] (s : Solver α f.parameterCount f.dataCount) :
    Except (FitError α) (Calibration α) :=
  match s.parameterCovariance with
  | .ok covariance => .ok ⟨f, s, some covariance⟩
  | .error .noDegreesOfFreedom => .ok ⟨f, s, none⟩
  | .error e => .error e

end StarFit

section Calls

variable (camera : Camera α) (orientation : Quaternion α) (pairs : List (Correspondence α))
  (gmst : α) (site : Sky.Site α) (config : CalibrationConfig α)

def fitInSteps :
    Except (FitError α) ((f : StarFit α) × Solver α f.parameterCount f.dataCount) := do
  let f ← StarFit.ofCorrespondences camera orientation pairs gmst site config.faintLimit
  let s ← f.fittedInSteps config
  return ⟨f, s⟩

/-- A calibration with its camera and its orientation, where every call checks what it is given. -/
def calibrateInSteps [Linear.HasPseudoInverse α] :
    Except (FitError α) (Calibration α × Camera α × Quaternion α) := do
  let ⟨f, s⟩ ← fitInSteps camera orientation pairs gmst site config
  let fittedCamera ← f.cameraOf s.parameters.toList
  let fittedOrientation ← f.orientationOf s.parameters.toList
  let c ← f.report s
  return (c, fittedCamera, fittedOrientation)

end Calls

/-- Blocks of the right number are never refused for their length. -/
theorem setCovariance_blockEntries {m n : Nat} (s : Solver α m n) {blocks : List (Covariance2 α)}
    (hn : n = 2 * blocks.length) :
    s.setCovariance (blockEntries blocks) =
      (DataCovariance.ofMatrix (blockDiagonal n blocks)).mapError FitError.badCovariance >>=
        fun covariance => .ok { s with covariance } := by
  subst hn
  exact s.setCovariance_toList _

namespace StarFit

variable (f : StarFit α)

/-- The lists that a solver is told have the lengths that it asks for. -/
theorem solverInSteps_eq (config : CalibrationConfig α) :
    f.solverInSteps config =
      (f.dataCovariance config.pixelSigma).mapError FitError.badCovariance >>= fun covariance =>
        .ok (f.solverUnder config covariance) := by
  have hdata (s : Solver α f.parameterCount f.dataCount) :
      s.setData f.observedList = .ok { s with data := some f.observed } := by
    rw [observedList_eq, Solver.setData, vectorOfLength_toList]
    rfl
  have hparameters (s : Solver α f.parameterCount f.dataCount) :
      s.setParameters f.initialList = .ok { s with parameters? := some f.initial } := by
    rw [← toList_initial, Solver.setParameters, vectorOfLength_toList]
    rfl
  unfold solverInSteps dataCovariance
  rw [hdata]
  show (Solver.setParameters _ f.initialList >>= _) = _
  rw [hparameters]
  cases hcovariances : f.covariances? with
  | some blocks => exact setCovariance_blockEntries _ (dataCount_of_covariances? hcovariances)
  | none =>
    have hreplicate := Vector.toList_replicate (n := f.dataCount)
      (a := config.pixelSigma * config.pixelSigma)
    show Solver.setVariance _ (List.replicate _ _) = _
    rw [← hreplicate]
    exact Solver.setVariance_toList _ _

theorem orientationOf_toList (p : Vector α f.parameterCount) :
    f.orientationOf p.toList = .ok (f.orientationAt p) := by
  unfold orientationOf parametersOf
  rw [vectorOfLength_toList]
  rfl

end StarFit

section Chain

variable [Linear.HasPseudoInverse α]

theorem StarFit.calibration_eq (f : StarFit α) (config : CalibrationConfig α) :
    f.calibration config = f.fittedInSteps config >>= f.report := by
  have hsolver : f.solver? config =
      (f.dataCovariance config.pixelSigma).mapError FitError.badCovariance >>= fun covariance =>
        .ok (f.solverUnder config covariance) := rfl
  unfold calibration fittedInSteps Solver.fitWithCovariance
  rw [solverInSteps_eq, hsolver]
  cases (f.dataCovariance config.pixelSigma).mapError FitError.badCovariance with
  | error e => rfl
  | ok covariance =>
    show ((f.solverUnder config covariance).fit config.maxIterations >>= _) >>= _ =
      (f.solverUnder config covariance).fit config.maxIterations >>= _
    cases (f.solverUnder config covariance).fit config.maxIterations with
    | error e => rfl
    | ok s =>
      simp only [bind, Except.bind, report]
      cases s.parameterCovariance with
      | ok _ => rfl
      | error e => cases e <;> rfl

theorem StarFit.exists_of_report {f : StarFit α} {s : Solver α f.parameterCount f.dataCount}
    {c : Calibration α} (h : f.report s = .ok c) : ∃ covariance, c = ⟨f, s, covariance⟩ := by
  unfold report at h
  split at h
  · cases h
    exact ⟨_, rfl⟩
  · cases h
    exact ⟨_, rfl⟩
  · cases h

variable (camera : Camera α) (orientation : Quaternion α) (pairs : List (Correspondence α))
  (gmst : α) (site : Sky.Site α) (config : CalibrationConfig α)

/-- A calibration is its fit in steps and then the report. -/
theorem calibrate_eq_report :
    calibrate camera orientation pairs gmst site config =
      fitInSteps camera orientation pairs gmst site config >>= fun x => x.1.report x.2 := by
  rw [calibrate_eq]
  unfold fitInSteps
  cases StarFit.ofCorrespondences camera orientation pairs gmst site config.faintLimit with
  | error e => rfl
  | ok f =>
    show f.calibration config = (f.fittedInSteps config >>= _) >>= _
    rw [f.calibration_eq]
    cases f.fittedInSteps config with
    | error e => rfl
    | ok s => rfl

/-- No check of a length fails. -/
theorem calibrateInSteps_eq :
    calibrateInSteps camera orientation pairs gmst site config =
      (calibrate camera orientation pairs gmst site config).map fun c =>
        (c, c.camera, c.orientation) := by
  rw [calibrate_eq_report]
  unfold calibrateInSteps
  cases fitInSteps camera orientation pairs gmst site config with
  | error e => rfl
  | ok x =>
    obtain ⟨f, s⟩ := x
    simp only [bind, Except.bind, f.cameraOf_toList, f.orientationOf_toList]
    cases hreport : f.report s with
    | error e => rfl
    | ok c =>
      obtain ⟨covariance, rfl⟩ := StarFit.exists_of_report hreport
      rfl

end Chain
end Steps

section Faults

/-- Why the covariance of pixels is rejected, where `covariances` are those of their sources and
`sigma` stands in for all of them if one is missing. -/
inductive CovarianceRejected (sigma : α) (covariances : List (Option (Covariance2 α))) :
    CovarianceFault α → Prop
  | matrix {blocks : List (Covariance2 α)} (hall : covariances = blocks.map some)
      {fault : CovarianceFault α}
      (hfault : DataCovariance.ofMatrix (blockDiagonal (2 * blocks.length) blocks) =
        .error fault) : CovarianceRejected sigma covariances fault
  | variance (hmissing : none ∈ covariances)
      (hfault : ¬ (Scalar.IsFinite (sigma * sigma) ∧ 0 < sigma * sigma)) :
      CovarianceRejected sigma covariances (.notPositive (sigma * sigma) 0)

theorem DataCovariance.ofVariances_replicate_eq_error_iff {n : Nat} (hn : n ≠ 0) {variance : α}
    {fault : CovarianceFault α} :
    ofVariances (.replicate n variance) = .error fault ↔
      ¬ (Scalar.IsFinite variance ∧ 0 < variance) ∧ fault = .notPositive variance 0 := by
  obtain ⟨k, rfl⟩ := Nat.exists_eq_succ_of_ne_zero hn
  unfold ofVariances
  by_cases hpos : Scalar.IsFinite variance ∧ 0 < variance
  · simp [List.find?_eq_none.mpr, hpos]
  · simp [List.finRange_succ, hpos, eq_comm]

theorem ofMatrix_blockDiagonal_eq_error_iff {n : Nat} {blocks : List (Covariance2 α)}
    (hn : n = 2 * blocks.length) {fault : CovarianceFault α} :
    DataCovariance.ofMatrix (blockDiagonal n blocks) = .error fault ↔
      DataCovariance.ofMatrix (blockDiagonal (2 * blocks.length) blocks) = .error fault := by
  subst hn
  rfl

/-- Where all stars have a covariance their matrix is checked, and where one has none the common
variance is. -/
theorem StarFit.dataCovariance_eq_error_iff {f : StarFit α} (hstars : f.stars.size ≠ 0)
    {sigma : α} {fault : CovarianceFault α} :
    f.dataCovariance sigma = .error fault ↔
      CovarianceRejected sigma (f.stars.toList.map (·.covariance)) fault := by
  have hcount : f.dataCount ≠ 0 := by
    unfold dataCount
    omega
  unfold dataCovariance
  cases hcovariances : f.covariances? with
  | some blocks =>
    have hall := covariances?_eq_some_iff.mp hcovariances
    rw [ofMatrix_blockDiagonal_eq_error_iff (dataCount_of_covariances? hcovariances)]
    refine ⟨.matrix hall, fun h => ?_⟩
    cases h with
    | matrix hall' hfault =>
      rw [hall] at hall'
      obtain rfl := List.map_injective_iff.mpr (Option.some_injective _) hall'
      exact hfault
    | variance hmissing =>
      rw [hall] at hmissing
      simp at hmissing
  | none =>
    have hmissing : none ∈ f.stars.toList.map (·.covariance) :=
      List.mem_map.mpr (covariances?_eq_none_iff.mp hcovariances)
    rw [DataCovariance.ofVariances_replicate_eq_error_iff hcount]
    constructor
    · rintro ⟨hfault, rfl⟩
      exact .variance hmissing hfault
    · intro h
      cases h with
      | matrix hall =>
        rw [hall] at hmissing
        simp at hmissing
      | variance _ hfault => exact ⟨hfault, rfl⟩

end Faults

theorem StarFit.fittedInSteps_of_fault {f : StarFit α} {config : CalibrationConfig α}
    {fault : CovarianceFault α} (h : f.dataCovariance config.pixelSigma = .error fault) :
    f.fittedInSteps config = .error (.badCovariance fault) := by
  unfold fittedInSteps
  rw [solverInSteps_eq, h]
  rfl

theorem StarFit.fittedInSteps_of_covariance {f : StarFit α} {config : CalibrationConfig α}
    {covariance : DataCovariance α f.dataCount}
    (h : f.dataCovariance config.pixelSigma = .ok covariance) :
    f.fittedInSteps config = (f.solverUnder config covariance).fit config.maxIterations := by
  unfold fittedInSteps
  rw [solverInSteps_eq, h]
  rfl

def FitError.IsOfCalibration : FitError α → Prop
  | .noCorrespondences | .badCovariance _ | .underdetermined .. | .badNormalMatrix _ => True
  | .wrongLength .. | .missingData | .missingParameters | .notFitted | .noDegreesOfFreedom => False

def HaveWeights (kept : List (Correspondence α)) (sigma : α) : Prop :=
  kept.length ≠ 0 ∧
    ∀ fault, ¬ CovarianceRejected sigma (kept.map (·.source.covariance)) fault

/-- Each list of covariances is refused for one reason. -/
theorem CovarianceRejected.unique {sigma : α} {covariances : List (Option (Covariance2 α))}
    {fault fault' : CovarianceFault α} (h : CovarianceRejected sigma covariances fault)
    (h' : CovarianceRejected sigma covariances fault') : fault = fault' := by
  cases h with
  | matrix hall hfault =>
    subst hall
    cases h' with
    | matrix hall' hfault' =>
      obtain rfl := List.map_injective_iff.mpr (Option.some_injective _) hall'
      exact Except.error.inj (hfault.symm.trans hfault')
    | variance hmissing' => simp at hmissing'
  | variance hmissing =>
    cases h' with
    | matrix hall' => simp [hall'] at hmissing
    | variance => rfl

section Ending

variable [Linear.HasPseudoInverse α]

theorem StarFit.report_of_dof {f : StarFit α} {s : Solver α f.parameterCount f.dataCount}
    (hstatus : s.status ≠ .notRun) (hdof : s.dof = 0) : f.report s = .ok ⟨f, s, none⟩ := by
  unfold report
  rw [Solver.parameterCovariance_of_dof hstatus hdof]

theorem StarFit.report_of_dof_ne_zero {f : StarFit α} {s : Solver α f.parameterCount f.dataCount}
    (hstatus : s.status ≠ .notRun) {p : Vector α f.parameterCount} (hp : s.parameters? = some p)
    (hdof : s.dof ≠ 0) :
    f.report s = ((Linear.pseudoInverse s.lastNormal).mapError FitError.badNormalMatrix).map
      fun inverse => ⟨f, s, some (inverse.scale (s.chi2 / (s.dof : α)))⟩ := by
  unfold report
  rw [Solver.parameterCovariance_of_dof_ne_zero hstatus hp hdof]
  cases Linear.pseudoInverse s.lastNormal with
  | error fault => rfl
  | ok inverse => rfl

section Endings

variable (kept : List (Correspondence α)) (m : Nat) (sigma : α)
  (fitted : Except (FitError α) ((f : StarFit α) × Solver α f.parameterCount f.dataCount))

/-- How a calibration with `m` parameters ends that keeps the correspondences `kept`. -/
inductive CalibrationEnding : Except (FitError α) (Calibration α) → Prop
  | noStars (hnone : kept.length = 0) : CalibrationEnding (.error .noCorrespondences)
  | rejected (hsome : kept.length ≠ 0) {fault : CovarianceFault α}
      (hfault : CovarianceRejected sigma (kept.map (·.source.covariance)) fault) :
      CalibrationEnding (.error (.badCovariance fault))
  | tooFew (hweights : HaveWeights kept sigma) (hcount : 2 * kept.length < m) :
      CalibrationEnding (.error (.underdetermined (2 * kept.length) m))
  | exact (hweights : HaveWeights kept sigma) (hcount : 2 * kept.length = m) {f : StarFit α}
      {last : Solver α f.parameterCount f.dataCount} (hlast : fitted = .ok ⟨f, last⟩)
      (hdof : last.dof = 0) : CalibrationEnding (.ok ⟨f, last, none⟩)
  | estimated (hweights : HaveWeights kept sigma) (hcount : m < 2 * kept.length) {f : StarFit α}
      {last : Solver α f.parameterCount f.dataCount} (hlast : fitted = .ok ⟨f, last⟩)
      (hdof : last.dof ≠ 0) {inverse : Mat α f.parameterCount f.parameterCount}
      (hinverse : Linear.pseudoInverse last.lastNormal = .ok inverse) :
      CalibrationEnding (.ok ⟨f, last, some (inverse.scale (last.chi2 / (last.dof : α)))⟩)
  | refused (hweights : HaveWeights kept sigma) (hcount : m < 2 * kept.length) {f : StarFit α}
      {last : Solver α f.parameterCount f.dataCount} (hlast : fitted = .ok ⟨f, last⟩)
      {fault : Linear.MatrixFault} (hfault : Linear.pseudoInverse last.lastNormal = .error fault) :
      CalibrationEnding (.error (.badNormalMatrix fault))

/-- What decides how a calibration ends, and what it then reports. -/
structure CalibrationDecided (result : Except (FitError α) (Calibration α)) : Prop where
  noCorrespondences_iff : result = .error .noCorrespondences ↔ kept.length = 0
  badCovariance_iff : ∀ fault, result = .error (.badCovariance fault) ↔
    kept.length ≠ 0 ∧ CovarianceRejected sigma (kept.map (·.source.covariance)) fault
  underdetermined_iff : ∀ data parameters, result = .error (.underdetermined data parameters) ↔
    HaveWeights kept sigma ∧ 2 * kept.length < m ∧ data = 2 * kept.length ∧ parameters = m
  /-- With enough data a calibration returns, unless its normal matrix is refused. -/
  ends : HaveWeights kept sigma → m ≤ 2 * kept.length →
    (∃ c, result = .ok c) ∨
      m < 2 * kept.length ∧ ∃ fault, result = .error (.badNormalMatrix fault)
  badNormalMatrix_iff : ∀ fault, result = .error (.badNormalMatrix fault) ↔
    HaveWeights kept sigma ∧ m < 2 * kept.length ∧
      ∃ f last, fitted = .ok ⟨f, last⟩ ∧ Linear.pseudoInverse last.lastNormal = .error fault
  ok_iff : (∃ c, result = .ok c) ↔
    HaveWeights kept sigma ∧
      (2 * kept.length = m ∨ m < 2 * kept.length ∧
        ∃ f last inverse, fitted = .ok ⟨f, last⟩ ∧
          Linear.pseudoInverse last.lastNormal = .ok inverse)
  isOfCalibration : ∀ e, result = .error e → e.IsOfCalibration
  reports : ∀ c, result = .ok c →
    (2 * kept.length = m →
      c.covariance = none ∧ c.standardErrors = none ∧ c.solver.reducedChi2 = none) ∧
    (m < 2 * kept.length →
      c.covariance.isSome ∧ c.standardErrors.isSome ∧ c.solver.reducedChi2.isSome)

variable {kept m sigma fitted}

namespace CalibrationEnding

variable {result : Except (FitError α) (Calibration α)}
  (h : CalibrationEnding kept m sigma fitted result)
include h

theorem noCorrespondences_iff : result = .error .noCorrespondences ↔ kept.length = 0 := by
  cases h with
  | noStars hnone => exact iff_of_true rfl hnone
  | rejected hsome => exact iff_of_false nofun hsome
  | tooFew hweights | refused hweights => exact iff_of_false nofun hweights.1
  | exact hweights | estimated hweights => exact iff_of_false ok_ne_error hweights.1

theorem badCovariance_iff (fault : CovarianceFault α) : result = .error (.badCovariance fault) ↔
    kept.length ≠ 0 ∧ CovarianceRejected sigma (kept.map (·.source.covariance)) fault := by
  cases h with
  | noStars hnone => exact iff_of_false nofun fun h => h.1 hnone
  | rejected hsome hfault =>
    refine ⟨fun h => ?_, fun h => ?_⟩
    · cases h
      exact ⟨hsome, hfault⟩
    · rw [hfault.unique h.2]
  | tooFew hweights | refused hweights =>
    exact iff_of_false nofun fun h => hweights.2 fault h.2
  | exact hweights | estimated hweights =>
    exact iff_of_false ok_ne_error fun h => hweights.2 fault h.2

/-- What is neither without stars nor without weights has both. -/
theorem underdetermined_iff (data parameters : Nat) :
    result = .error (.underdetermined data parameters) ↔
      HaveWeights kept sigma ∧ 2 * kept.length < m ∧ data = 2 * kept.length ∧ parameters = m := by
  cases h with
  | noStars hnone => exact iff_of_false nofun fun h => h.1.1 hnone
  | rejected _ hfault => exact iff_of_false nofun fun h => h.1.2 _ hfault
  | tooFew hweights hcount => simp [hweights, hcount, eq_comm]
  | refused _ hcount => exact iff_of_false nofun fun h => absurd h.2.1 (by omega)
  | exact _ hcount | estimated _ hcount =>
    exact iff_of_false ok_ne_error fun h => absurd h.2.1 (by omega)

/-- The normal matrix is blamed only after a fit that ran, with more coordinates than parameters. -/
theorem badNormalMatrix_iff (fault : Linear.MatrixFault) :
    result = .error (.badNormalMatrix fault) ↔
      HaveWeights kept sigma ∧ m < 2 * kept.length ∧
        ∃ f last, fitted = .ok ⟨f, last⟩ ∧ Linear.pseudoInverse last.lastNormal = .error fault := by
  cases h with
  | noStars hnone => exact iff_of_false nofun fun h => h.1.1 hnone
  | rejected _ hfault => exact iff_of_false nofun fun h => h.1.2 _ hfault
  | tooFew _ hcount => exact iff_of_false nofun fun h => absurd h.2.1 (by omega)
  | exact _ hcount => exact iff_of_false ok_ne_error fun h => absurd h.2.1 (by omega)
  | estimated _ _ hlast _ hinverse =>
    refine iff_of_false ok_ne_error ?_
    rintro ⟨-, -, f', last', hlast', hfault⟩
    cases hlast.symm.trans hlast'
    cases hinverse.symm.trans hfault
  | refused hweights hcount hlast hfault =>
    refine ⟨fun h => ?_, ?_⟩
    · cases h
      exact ⟨hweights, hcount, _, _, hlast, hfault⟩
    · rintro ⟨-, -, f', last', hlast', hfault'⟩
      cases hlast.symm.trans hlast'
      cases hfault.symm.trans hfault'
      rfl

/-- With exactly as many coordinates as parameters a calibration never asks for an inverse. -/
theorem ok_iff : (∃ c, result = .ok c) ↔
    HaveWeights kept sigma ∧
      (2 * kept.length = m ∨ m < 2 * kept.length ∧
        ∃ f last inverse, fitted = .ok ⟨f, last⟩ ∧
          Linear.pseudoInverse last.lastNormal = .ok inverse) := by
  cases h with
  | noStars hnone => exact iff_of_false not_exists_ok fun h => h.1.1 hnone
  | rejected _ hfault => exact iff_of_false not_exists_ok fun h => h.1.2 _ hfault
  | tooFew _ hcount => exact iff_of_false not_exists_ok fun h => absurd h.2 (by omega)
  | exact hweights hcount => exact iff_of_true ⟨_, rfl⟩ ⟨hweights, Or.inl hcount⟩
  | estimated hweights hcount hlast _ hinverse =>
    exact iff_of_true ⟨_, rfl⟩ ⟨hweights, Or.inr ⟨hcount, _, _, _, hlast, hinverse⟩⟩
  | refused _ hcount hlast hfault =>
    refine iff_of_false not_exists_ok ?_
    rintro ⟨-, hexact | ⟨-, f', last', inverse, hlast', hinverse⟩⟩
    · omega
    · cases hlast.symm.trans hlast'
      cases hfault.symm.trans hinverse

theorem ends (hweights : HaveWeights kept sigma) (hcount : m ≤ 2 * kept.length) :
    (∃ c, result = .ok c) ∨
      m < 2 * kept.length ∧ ∃ fault, result = .error (.badNormalMatrix fault) := by
  cases h with
  | noStars hnone => exact absurd hnone hweights.1
  | rejected _ hfault => exact absurd hfault (hweights.2 _)
  | tooFew _ hless => omega
  | exact | estimated => exact Or.inl ⟨_, rfl⟩
  | refused _ hless => exact Or.inr ⟨hless, _, rfl⟩

theorem isOfCalibration (e : FitError α) (he : result = .error e) : e.IsOfCalibration := by
  cases h with
  | noStars | rejected | tooFew | refused =>
    cases he
    trivial
  | exact | estimated => cases he

/-- The three reports come together: all of them, or none with exactly as many coordinates as
parameters. -/
theorem reports (c : Calibration α) (hc : result = .ok c) :
    (2 * kept.length = m →
      c.covariance = none ∧ c.standardErrors = none ∧ c.solver.reducedChi2 = none) ∧
    (m < 2 * kept.length →
      c.covariance.isSome ∧ c.standardErrors.isSome ∧ c.solver.reducedChi2.isSome) := by
  cases h with
  | noStars | rejected | tooFew | refused => cases hc
  | exact _ hcount _ hdof =>
    cases hc
    exact ⟨fun _ => ⟨rfl, rfl, if_pos hdof⟩, fun hless => absurd hcount hless.ne'⟩
  | estimated _ hcount _ hdof =>
    cases hc
    refine ⟨fun hexact => absurd hexact hcount.ne', fun _ => ⟨rfl, rfl, ?_⟩⟩
    rw [Solver.reducedChi2, if_neg hdof]
    rfl

end CalibrationEnding

end Endings

/-- The ending of a calibration from what its kept stars and its fit are, in the order of the
checks. -/
theorem StarFit.ending_of_fitted {f : StarFit α} {kept : List (Correspondence α)} {sigma : α}
    {fitted : Except (FitError α) ((f : StarFit α) × Solver α f.parameterCount f.dataCount)}
    (hweights : HaveWeights kept sigma) (hkept : f.dataCount = 2 * kept.length)
    (hcount : f.parameterCount ≤ f.dataCount) {last : Solver α f.parameterCount f.dataCount}
    (hlast : fitted = .ok ⟨f, last⟩) (hstatus : last.status ≠ .notRun)
    {p : Vector α f.parameterCount} (hp : last.parameters? = some p) :
    CalibrationEnding kept f.parameterCount sigma fitted (f.report last) := by
  by_cases hdof : last.dof = 0
  · rw [report_of_dof hstatus hdof]
    unfold Solver.dof at hdof
    exact .exact hweights (by omega) hlast hdof
  · rw [report_of_dof_ne_zero hstatus hp hdof]
    have hless : f.parameterCount < 2 * kept.length := by
      unfold Solver.dof at hdof
      omega
    cases hinverse : Linear.pseudoInverse last.lastNormal with
    | ok inverse => exact .estimated hweights hless hlast hdof hinverse
    | error fault => exact .refused hweights hless hlast hinverse

/-- A calibration from stars that were chosen. -/
theorem StarFit.ending {f : StarFit α} {kept : List (Correspondence α)}
    (hkept : f.stars.toList.map (·.covariance) = kept.map (·.source.covariance))
    (hsome : kept.length ≠ 0) (config : CalibrationConfig α) :
    let fitted := f.fittedInSteps config >>= fun s => .ok (Sigma.mk f s)
    CalibrationEnding kept f.parameterCount config.pixelSigma fitted
      (fitted >>= fun x => x.1.report x.2) := by
  intro fitted
  have hsize : f.stars.size = kept.length := by
    have hlength := congrArg List.length hkept
    simpa using hlength
  have hcount : f.dataCount = 2 * kept.length := by
    unfold dataCount
    omega
  have hrejected (fault : CovarianceFault α) :
      f.dataCovariance config.pixelSigma = .error fault ↔
        CovarianceRejected config.pixelSigma (kept.map (·.source.covariance)) fault :=
    hkept ▸ dataCovariance_eq_error_iff (hsize ▸ hsome)
  cases hcovariance : f.dataCovariance config.pixelSigma with
  | error fault =>
    have hfitted : fitted = .error (.badCovariance fault) := by
      dsimp only [fitted]
      rw [fittedInSteps_of_fault hcovariance]
      rfl
    rw [hfitted]
    exact .rejected hsome ((hrejected fault).mp hcovariance)
  | ok covariance =>
    have hweights : HaveWeights kept config.pixelSigma := by
      refine ⟨hsome, fun fault hfault => ?_⟩
      cases hcovariance.symm.trans ((hrejected fault).mpr hfault)
    have hfit := fittedInSteps_of_covariance hcovariance
    by_cases hless : f.dataCount < f.parameterCount
    · have hfitted : fitted = .error (.underdetermined f.dataCount f.parameterCount) := by
        dsimp only [fitted]
        rw [hfit, Solver.fit, if_pos hless]
        rfl
      rw [hfitted, hcount]
      exact .tooFew hweights (hcount ▸ hless)
    · obtain ⟨last, p, hlast, hstatus, hp⟩ := Solver.exists_fit
        (s := f.solverUnder config covariance) rfl rfl (Nat.not_lt.mp hless) config.maxIterations
      have hfitted : fitted = .ok ⟨f, last⟩ := by
        dsimp only [fitted]
        rw [hfit, hlast]
        rfl
      have hending := ending_of_fitted hweights hcount (Nat.not_lt.mp hless) hfitted hstatus hp
      rw [hfitted] at hending ⊢
      exact hending

variable (camera : Camera α) (orientation : Quaternion α) (pairs : List (Correspondence α))
  (gmst : α) (site : Sky.Site α) (config : CalibrationConfig α)

theorem calibrate_ending :
    let toCamera := orientation.toMatrix.mul (site.celestialToHorizon gmst)
    CalibrationEnding (pairs.filter (·.isKept toCamera config.faintLimit))
      (camera.parameterCount + 4) config.pixelSigma
      (fitInSteps camera orientation pairs gmst site config)
      (calibrate camera orientation pairs gmst site config) := by
  intro toCamera
  let toHorizon := site.celestialToHorizon gmst
  let stars := Correspondence.keptStars pairs toHorizon toCamera config.faintLimit
  have hkept := Correspondence.map_covariance_keptStars pairs toHorizon toCamera config.faintLimit
  have hlength := congrArg List.length hkept
  rw [List.length_map, List.length_map] at hlength
  rw [calibrate_eq_report]
  unfold fitInSteps
  rw [StarFit.ofCorrespondences_eq]
  dsimp only [StarFit.ofStars]
  split
  next hempty =>
    have hnone : stars.length = 0 := List.length_eq_zero_iff.mpr (List.isEmpty_iff.mp hempty)
    exact .noStars (hlength ▸ hnone)
  next hnonempty =>
    have hsome : stars.length ≠ 0 := fun hnone =>
      hnonempty (List.isEmpty_iff.mpr (List.length_eq_zero_iff.mp hnone))
    exact StarFit.ending (f := ⟨camera, orientation, stars.toArray, _⟩) hkept (hlength ▸ hsome)
      config

end Ending

/-- How a calibration ends is decided by the correspondences that it keeps: by their number, by
their covariances, and by the pseudo-inverse of the last normal matrix. No other error comes up,
although each call of the chain checks what it is given. -/
theorem calibrate_decided [Linear.HasPseudoInverse α] (camera : Camera α)
    (orientation : Quaternion α) (pairs : List (Correspondence α)) (gmst : α) (site : Sky.Site α)
    (config : CalibrationConfig α) :
    let toCamera := orientation.toMatrix.mul (site.celestialToHorizon gmst)
    let kept := pairs.filter fun c =>
      c.star.magnitude ≤ config.faintLimit ∧ ¬ (toCamera.mulVec c.star.direction).z ≤ 0
    let result := calibrate camera orientation pairs gmst site config
    calibrateInSteps camera orientation pairs gmst site config =
        result.map (fun c => (c, c.camera, c.orientation)) ∧
      CalibrationDecided kept (camera.parameterCount + 4) config.pixelSigma
        (fitInSteps camera orientation pairs gmst site config) result := by
  intro toCamera kept result
  have hkept : pairs.filter (·.isKept toCamera config.faintLimit) = kept :=
    List.filter_congr fun c _ => c.isKept_eq toCamera config.faintLimit
  have hending : CalibrationEnding (pairs.filter (·.isKept toCamera config.faintLimit))
      (camera.parameterCount + 4) config.pixelSigma
      (fitInSteps camera orientation pairs gmst site config) result :=
    calibrate_ending camera orientation pairs gmst site config
  rw [hkept] at hending
  exact ⟨calibrateInSteps_eq camera orientation pairs gmst site config,
    hending.noCorrespondences_iff, hending.badCovariance_iff, hending.underdetermined_iff,
    hending.ends, hending.badNormalMatrix_iff, hending.ok_iff, hending.isOfCalibration,
    hending.reports⟩

end SkyCamera
