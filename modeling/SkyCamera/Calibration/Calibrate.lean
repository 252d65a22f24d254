import SkyCamera.Calibration.StarFit
import SkyCamera.LeastSquares.Report

/-!
Calibration of a camera from stars that were matched: a fit of its intrinsics and its orientation.
The pixels are weighted by the covariances of the sources if every kept source has one, else by
one standard deviation for all. A calibration keeps the solver as the fit left it, and what it
says is read from there.
-/
namespace SkyCamera

structure CalibrationConfig (α : Type) where
  /-- Stars fainter than this are left out. -/
  faintLimit : α
  /-- The standard deviation of a pixel coordinate. -/
  pixelSigma : α
  jacobian : JacobianMode
  maxIterations : Nat
  verbose : Bool
  settings : Settings α

def CalibrationConfig.standard {α : Type} [Scalar α] : CalibrationConfig α where
  faintLimit := Scalar.infinity
  pixelSigma := 1
  jacobian := .analytic
  maxIterations := 100
  verbose := false
  settings := .standard

/-- The matrix with the blocks along its diagonal, for data that come in pairs. -/
def blockDiagonal {α : Type} [Scalar α] (n : Nat) (blocks : List (Covariance2 α)) : Mat α n n :=
  let blocks := blocks.toArray
  .ofFn fun i j =>
    match blocks[i.val / 2]? with
    | none => 0
    | some b =>
      if i.val / 2 = j.val / 2 then
        match i.val % 2, j.val % 2 with
        | 0, 0 => b.xx
        | 0, _ => b.xy
        | _, 0 => b.yx
        | _, _ => b.yy
      else 0

structure Calibration (α : Type) where
  start : StarFit α
  solver : Solver α start.parameterCount start.dataCount
  /-- There is none without degrees of freedom. -/
  covariance : Option (Mat α start.parameterCount start.parameterCount)

variable {α : Type} [Scalar α]

/-- The covariance of the pixels that a fit is given. -/
def StarFit.dataCovariance (f : StarFit α) (sigma : α) :
    Except (CovarianceFault α) (DataCovariance α f.dataCount) :=
  match f.covariances? with
  | some blocks => DataCovariance.ofMatrix (blockDiagonal f.dataCount blocks)
  | none => DataCovariance.ofVariances (.replicate f.dataCount (sigma * sigma))

def calibrate [Linear.HasPseudoInverse α] (camera : Camera α) (orientation : Quaternion α)
    (pairs : List (Correspondence α)) (gmst : α) (site : Sky.Site α)
    (config : CalibrationConfig α) : Except (FitError α) (Calibration α) := do
  let start ← StarFit.ofCorrespondences camera orientation pairs gmst site config.faintLimit
  let covariance ← (start.dataCovariance config.pixelSigma).mapError .badCovariance
  let solver : Solver α start.parameterCount start.dataCount :=
    { Solver.ofModel (start.model config.jacobian) config.settings with
      data := some start.observed
      parameters? := some start.initial
      covariance }
  let solver ← solver.fit config.maxIterations
  match solver.parameterCovariance with
  | .ok covariance => return ⟨start, solver, some covariance⟩
  | .error .noDegreesOfFreedom => return ⟨start, solver, none⟩
  | .error e => throw e

namespace Calibration

variable (c : Calibration α)

def camera : Camera α := c.start.cameraAt c.solver.parameters

def orientation : Quaternion α := c.start.orientationAt c.solver.parameters

/-- Whether the solution can be used. -/
def converged : Bool := c.solver.status.isValid

def standardErrors : Option (Vector α c.start.parameterCount) :=
  c.covariance.map Linear.standardErrors

/-- The index of each kept correspondence with observed minus modelled pixel. -/
def residuals : List (Nat × α × α) :=
  let r := c.solver.residuals.toArray
  c.start.kept.zipIdx.map fun (index, k) => (index, r.getD (2 * k) 0, r.getD (2 * k + 1) 0)

def numUsed : Nat := c.start.stars.size

/-- The root mean square distance in pixels before the fit. -/
def rmsBefore : α :=
  Linear.rmsLength
    (c.start.observed - c.start.values (c.start.withUnitQuaternion c.start.initial))

def rmsAfter : α := Linear.rmsLength c.solver.residuals

end Calibration

def Exclusion.name : Exclusion → String
  | tooFaint => "TooFaint"
  | behindCamera => "BehindCamera"

/-- What is said when correspondences are left out. -/
def StarFit.log (f : StarFit α) : List LogLine :=
  if f.excluded.isEmpty then []
  else [⟨.debug, s!"Excluded {f.excluded.length} of {f.stars.size + f.excluded.length} " ++
    "correspondences (faint or behind camera)"⟩]

/-- The course of a calibration and its result. -/
def Calibration.log (c : Calibration Float) (verbose : Bool) : List LogLine :=
  let excluded := c.start.excluded.map fun (index, reason) =>
    (⟨.debug, s!"Correspondence {index} excluded: {reason.name}"⟩ : LogLine)
  let fit := (c.solver.lastFit.map (·.log verbose)).getD []
  let status := c.solver.status.name
  let iterations := c.solver.iterations
  let stuck : List LogLine :=
    if c.converged then []
    else [⟨.warn, s!"Calibration did not converge ({status} after {iterations} iterations)"⟩]
  let result : LogLine := ⟨.info,
    s!"Calibration: {c.numUsed} stars ({c.start.excluded.length} excluded), RMS " ++
      Decimal.fixed 3 c.rmsBefore ++ " px -> " ++ Decimal.fixed 3 c.rmsAfter ++
      s!" px, {status} in {iterations} iterations"⟩
  c.start.log ++ excluded ++ fit ++ stuck ++ [result]

end SkyCamera
