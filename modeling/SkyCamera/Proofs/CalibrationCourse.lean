import SkyCamera.Calibration.Calibrate
import SkyCamera.Proofs.Endings
import SkyCamera.Proofs.FitHistory

/-!
The course of a calibration: stars are chosen, a solver is made from them and fitted, and the
covariance of the parameters is estimated. Only the choice of the stars sees the correspondences.
-/
namespace SkyCamera

variable {α : Type} [Scalar α]

/-- What a calibration tells its solver of the stars. -/
structure FitInput (α : Type) (m : Nat) where
  dataCount : Nat
  model : Model α m dataCount
  observed : Vector α dataCount
  covariances? : Option (List (Covariance2 α))

def FitInput.dataCovariance {m : Nat} (input : FitInput α m) (sigma : α) :
    Except (CovarianceFault α) (DataCovariance α input.dataCount) :=
  match input.covariances? with
  | some blocks => DataCovariance.ofMatrix (blockDiagonal input.dataCount blocks)
  | none => DataCovariance.ofVariances (.replicate input.dataCount (sigma * sigma))

def FitInput.solver? {m : Nat} (input : FitInput α m) (start : Vector α m)
    (config : CalibrationConfig α) : Except (FitError α) (Solver α m input.dataCount) := do
  let covariance ← (input.dataCovariance config.pixelSigma).mapError .badCovariance
  return { Solver.ofModel input.model config.settings with
    data := some input.observed
    parameters? := some start
    covariance }

def StarFit.input (f : StarFit α) (mode : JacobianMode) : FitInput α f.parameterCount :=
  ⟨f.dataCount, f.model mode, f.observed, f.covariances?⟩

def StarFit.solver? (f : StarFit α) (config : CalibrationConfig α) :
    Except (FitError α) (Solver α f.parameterCount f.dataCount) :=
  (f.input config.jacobian).solver? f.initial config

theorem StarFit.solver?_eq_ok {f : StarFit α} {config : CalibrationConfig α}
    {s : Solver α f.parameterCount f.dataCount} (h : f.solver? config = .ok s) :
    ∃ covariance, f.dataCovariance config.pixelSigma = .ok covariance ∧
      s = { Solver.ofModel (f.model config.jacobian) config.settings with
        data := some f.observed
        parameters? := some f.initial
        covariance } := by
  obtain ⟨covariance, hcovariance, hs⟩ := bind_eq_ok.mp h
  change (f.dataCovariance config.pixelSigma).mapError FitError.badCovariance = _ at hcovariance
  cases hdata : f.dataCovariance config.pixelSigma with
  | error fault =>
    rw [hdata] at hcovariance
    cases hcovariance
  | ok data =>
    rw [hdata] at hcovariance
    cases hcovariance
    cases hs
    exact ⟨covariance, rfl, rfl⟩

/-- With data and a start, and no more parameters than data, a fit returns. -/
theorem Solver.exists_fit {m n : Nat} {s : Solver α m n} {data : Vector α n} {start : Vector α m}
    (hdata : s.data = some data) (hstart : s.parameters? = some start) (hcount : m ≤ n)
    (limit : Nat) : ∃ last p, s.fit limit = .ok last ∧ last.status ≠ .notRun ∧
      last.parameters? = some p := by
  let problem : Problem α m n := ⟨s.model, data, s.covariance, s.settings⟩
  let fit := problem.fit start limit
  refine ⟨{ s with parameters? := some fit.last.parameters, lastFit := some fit },
    fit.last.parameters, ?_, problem.status_ne_notRun start limit, rfl⟩
  simp only [Solver.fit, if_neg (Nat.not_lt.mpr hcount), hdata, hstart]
  rfl

variable [Linear.HasPseudoInverse α]

/-- A fit and the covariance of its parameters; without degrees of freedom there is none. -/
def Solver.fitWithCovariance {m n : Nat} (s : Solver α m n) (limit : Nat) :
    Except (FitError α) (Solver α m n × Option (Mat α m m)) := do
  let s ← s.fit limit
  match s.parameterCovariance with
  | .ok covariance => return (s, some covariance)
  | .error .noDegreesOfFreedom => return (s, none)
  | .error e => throw e

/-- The covariance is that of the solver after its fit, and none where that has no degrees of
freedom. -/
theorem Solver.fit_of_fitWithCovariance {m n : Nat} {s s' : Solver α m n} {limit : Nat}
    {covariance : Option (Mat α m m)} (h : s.fitWithCovariance limit = .ok (s', covariance)) :
    s.fit limit = .ok s' ∧
      ((∃ estimate, s'.parameterCovariance = .ok estimate ∧ covariance = some estimate) ∨
        s'.parameterCovariance = .error .noDegreesOfFreedom ∧ covariance = none) := by
  obtain ⟨last, hfit, hlast⟩ := bind_eq_ok.mp h
  split at hlast
  next estimate hestimate =>
    cases hlast
    exact ⟨hfit, Or.inl ⟨estimate, hestimate, rfl⟩⟩
  next hnone =>
    cases hlast
    exact ⟨hfit, Or.inr ⟨hnone, rfl⟩⟩
  next => cases hlast

theorem Solver.dof_of_parameterCovariance {m n : Nat} {s : Solver α m n}
    (h : s.parameterCovariance = .error .noDegreesOfFreedom) : s.dof = 0 := by
  by_contra hdof
  have hreduced : s.reducedChi2 = some (s.chi2 / (s.dof : α)) := if_neg hdof
  unfold parameterCovariance at h
  rw [hreduced] at h
  by_cases hstatus : s.status = .notRun
  · rw [if_pos hstatus] at h
    cases h
  · rw [if_neg hstatus] at h
    cases hp : s.parameters? with
    | none =>
      rw [hp] at h
      cases h
    | some p =>
      simp only [hp] at h
      cases hinverse : Linear.pseudoInverse
          ((s.model.jacobian p).transpose.mul (s.covariance.weightRows (s.model.jacobian p))) with
      | error fault =>
        rw [hinverse] at h
        cases h
      | ok inverse =>
        rw [hinverse] at h
        cases h

/-- With a pseudo-inverse for every matrix a fitted solver has a covariance or no degrees of
freedom. -/
theorem Solver.parameterCovariance_cases {m n : Nat} {s : Solver α m n}
    (hstatus : s.status ≠ .notRun) {p : Vector α m} (hp : s.parameters? = some p)
    (hinverse : ∀ a : Mat α m m, ∃ x, Linear.pseudoInverse a = .ok x) :
    s.parameterCovariance = .error .noDegreesOfFreedom ∨
      ∃ covariance, s.parameterCovariance = .ok covariance := by
  by_cases hdof : s.dof = 0
  · exact Or.inl (parameterCovariance_of_dof hstatus hdof)
  · obtain ⟨inverse, hx⟩ := hinverse s.lastNormal
    rw [parameterCovariance_of_dof_ne_zero hstatus hp hdof, hx]
    exact Or.inr ⟨inverse.scale (s.chi2 / (s.dof : α)), rfl⟩

/-- With a start and as many data as parameters at least, no fault is left. -/
theorem Solver.exists_fitWithCovariance {m n : Nat} {s : Solver α m n} {data : Vector α n}
    {start : Vector α m} (hdata : s.data = some data) (hstart : s.parameters? = some start)
    (hcount : m ≤ n) (hinverse : ∀ a : Mat α m m, ∃ x, Linear.pseudoInverse a = .ok x)
    (limit : Nat) : ∃ result, s.fitWithCovariance limit = .ok result := by
  obtain ⟨last, p, hfit, hstatus, hp⟩ := exists_fit hdata hstart hcount limit
  unfold fitWithCovariance
  rw [hfit]
  simp only [bind, Except.bind]
  obtain hnone | ⟨covariance, hcovariance⟩ := parameterCovariance_cases hstatus hp hinverse
  · rw [hnone]
    exact ⟨(last, none), rfl⟩
  · rw [hcovariance]
    exact ⟨(last, some covariance), rfl⟩

def StarFit.calibration (f : StarFit α) (config : CalibrationConfig α) :
    Except (FitError α) (Calibration α) := do
  let solver ← f.solver? config
  let (solver, covariance) ← solver.fitWithCovariance config.maxIterations
  return ⟨f, solver, covariance⟩

variable {camera : Camera α} {orientation : Quaternion α} {pairs : List (Correspondence α)}
  {gmst : α} {site : Sky.Site α} {config : CalibrationConfig α}

theorem calibrate_eq : calibrate camera orientation pairs gmst site config =
    StarFit.ofCorrespondences camera orientation pairs gmst site config.faintLimit >>=
      (·.calibration config) := by
  unfold calibrate
  refine congrArg _ (funext fun f => ?_)
  have hsolver : f.solver? config =
      (f.dataCovariance config.pixelSigma).mapError FitError.badCovariance >>= fun covariance =>
        .ok { Solver.ofModel (f.model config.jacobian) config.settings with
          data := some f.observed
          parameters? := some f.initial
          covariance } := rfl
  unfold StarFit.calibration Solver.fitWithCovariance
  rw [hsolver]
  cases f.dataCovariance config.pixelSigma with
  | error fault => rfl
  | ok covariance =>
    have hcovariance : (Except.ok covariance).mapError (FitError.badCovariance (α := α)) =
        .ok covariance := rfl
    simp only [hcovariance, bind, Except.bind, pure, Except.pure]
    split
    · rfl
    next solver _ =>
      cases solver.parameterCovariance with
      | ok _ => rfl
      | error e => cases e <;> rfl

theorem calibrate_eq_ok {c : Calibration α}
    (h : calibrate camera orientation pairs gmst site config = .ok c) :
    StarFit.ofCorrespondences camera orientation pairs gmst site config.faintLimit =
        .ok c.start ∧
      ∃ s, c.start.solver? config = .ok s ∧
        s.fitWithCovariance config.maxIterations = .ok (c.solver, c.covariance) := by
  rw [calibrate_eq] at h
  obtain ⟨f, hstart, hcalibration⟩ := bind_eq_ok.mp h
  obtain ⟨s, hsolver, hresult⟩ := bind_eq_ok.mp hcalibration
  obtain ⟨⟨s', covariance⟩, hfit, hc⟩ := bind_eq_ok.mp hresult
  cases hc
  exact ⟨hstart, s, hsolver, hfit⟩

def StarFit.solverUnder (f : StarFit α) (config : CalibrationConfig α)
    (covariance : DataCovariance α f.dataCount) : Solver α f.parameterCount f.dataCount :=
  { Solver.ofModel (f.model config.jacobian) config.settings with
    data := some f.observed
    parameters? := some f.initial
    covariance }

def StarFit.problemUnder (f : StarFit α) (config : CalibrationConfig α)
    (covariance : DataCovariance α f.dataCount) : Problem α f.parameterCount f.dataCount :=
  (f.solverUnder config covariance).problem f.observed

namespace Calibration

/-- The solver of a calibration is left by one fit from the parameters at the start. -/
structure FittedUnder (c : Calibration α) (config : CalibrationConfig α)
    (covariance : DataCovariance α c.start.dataCount) : Prop where
  covariance_eq : c.start.dataCovariance config.pixelSigma = .ok covariance
  enough_data : c.start.parameterCount ≤ c.start.dataCount
  fit_eq : (c.start.solverUnder config covariance).fit config.maxIterations = .ok c.solver
  solver_eq :
    let fit := (c.start.problemUnder config covariance).fit c.start.initial config.maxIterations
    c.solver = { c.start.solverUnder config covariance with
      parameters? := some fit.last.parameters
      lastFit := some fit }
  covariance_cases :
    (∃ estimate, c.solver.parameterCovariance = .ok estimate ∧ c.covariance = some estimate) ∨
      c.solver.parameterCovariance = .error .noDegreesOfFreedom ∧ c.covariance = none

theorem exists_fittedUnder {c : Calibration α}
    (h : calibrate camera orientation pairs gmst site config = .ok c) :
    ∃ covariance, c.FittedUnder config covariance := by
  obtain ⟨-, s, hsolver, hresult⟩ := calibrate_eq_ok h
  obtain ⟨covariance, hcovariance, rfl⟩ := StarFit.solver?_eq_ok hsolver
  obtain ⟨hfit, hcases⟩ := Solver.fit_of_fitWithCovariance hresult
  have hcount : ¬ c.start.dataCount < c.start.parameterCount := by
    intro hless
    rw [Solver.fit, if_pos hless] at hfit
    cases hfit
  obtain ⟨data, start, hdata, hstart, hs⟩ := Solver.fit_eq_ok hfit
  cases hdata
  cases hstart
  exact ⟨covariance, hcovariance, Nat.not_lt.mp hcount, hfit, hs, hcases⟩

namespace FittedUnder

variable {c : Calibration α} {covariance : DataCovariance α c.start.dataCount}
  (hc : c.FittedUnder config covariance)
include hc

theorem status_ne_notRun : c.solver.status ≠ .notRun := by
  rw [hc.solver_eq]
  exact (c.start.problemUnder config covariance).status_ne_notRun _ _

theorem residuals_eq :
    c.solver.residuals = c.start.observed - c.start.values c.solver.parameters := by
  have hvalues := ((c.start.problemUnder config covariance).coherent_last c.start.initial
    config.maxIterations).values_eq
  rw [hc.solver_eq]
  exact congrArg (c.start.observed - ·) hvalues

theorem chi2_eq : c.solver.chi2 = covariance.chi2 c.solver.residuals := by
  have hchi2 := ((c.start.problemUnder config covariance).coherent_last c.start.initial
    config.maxIterations).chi2_eq
  rw [hc.solver_eq]
  exact hchi2

theorem covariance_of_dof (hdof : c.solver.dof ≠ 0) :
    ∃ estimate, c.solver.parameterCovariance = .ok estimate ∧ c.covariance = some estimate := by
  obtain hsome | ⟨hnone, -⟩ := hc.covariance_cases
  · exact hsome
  · exact absurd (Solver.dof_of_parameterCovariance hnone) hdof

theorem covariance_eq_none (hdof : c.solver.dof = 0) : c.covariance = none := by
  have hnone := Solver.parameterCovariance_of_dof hc.status_ne_notRun hdof
  obtain ⟨estimate, hestimate, -⟩ | ⟨-, hcovariance⟩ := hc.covariance_cases
  · rw [hnone] at hestimate
    cases hestimate
  · exact hcovariance

end FittedUnder

/-- Without iterations the start is reported, with its quaternion brought to norm one. -/
theorem parameters_of_noIterations {c : Calibration α}
    (h : calibrate camera orientation pairs gmst site config = .ok c)
    (hlimit : config.maxIterations = 0) :
    c.solver.parameters = c.start.withUnitQuaternion c.start.initial := by
  obtain ⟨covariance, hc⟩ := exists_fittedUnder h
  let problem := c.start.problemUnder config covariance
  obtain ⟨-, hlast, -⟩ := problem.fit_course c.start.initial config.maxIterations
  have hnone : (problem.fit c.start.initial config.maxIterations).iterations = 0 :=
    Nat.le_zero.mp ((problem.iterations_le c.start.initial config.maxIterations).trans_eq hlimit)
  rw [hnone] at hlast
  rw [hc.solver_eq]
  exact congrArg Point.parameters hlast

end Calibration

/-- A calibration returns whenever the covariance of its stars is accepted and their coordinates are
at least as many as its parameters. -/
theorem exists_calibrate {f : StarFit α} {covariance : DataCovariance α f.dataCount}
    (hf : StarFit.ofCorrespondences camera orientation pairs gmst site config.faintLimit = .ok f)
    (hcovariance : f.dataCovariance config.pixelSigma = .ok covariance)
    (hcount : f.parameterCount ≤ f.dataCount)
    (hinverse : ∀ a : Mat α f.parameterCount f.parameterCount,
      ∃ x, Linear.pseudoInverse a = .ok x) :
    ∃ c, calibrate camera orientation pairs gmst site config = .ok c ∧ c.start = f := by
  let s : Solver α f.parameterCount f.dataCount :=
    { Solver.ofModel (f.model config.jacobian) config.settings with
      data := some f.observed
      parameters? := some f.initial
      covariance }
  have hsolver : f.solver? config = .ok s := by
    have hdata : (f.input config.jacobian).dataCovariance config.pixelSigma = .ok covariance :=
      hcovariance
    rw [StarFit.solver?, FitInput.solver?, hdata]
    rfl
  obtain ⟨result, hresult⟩ := Solver.exists_fitWithCovariance (s := s) rfl rfl hcount hinverse
    config.maxIterations
  refine ⟨⟨f, result.1, result.2⟩, ?_, rfl⟩
  rw [calibrate_eq]
  refine bind_eq_ok.mpr ⟨f, hf, bind_eq_ok.mpr ⟨s, hsolver, bind_eq_ok.mpr ⟨result, hresult, rfl⟩⟩⟩

end SkyCamera
