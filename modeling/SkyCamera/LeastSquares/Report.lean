import SkyCamera.Decimal.Text
import SkyCamera.LeastSquares.Solver
import SkyCamera.Log

/-!
The wording of errors and of the progress of a fit.
-/
namespace SkyCamera

open Decimal

def Quantity.name : Quantity → String
  | data => "data"
  | parameters => "parameters"
  | covariance => "covariance"
  | variance => "variance"
  | cameraParameters => "camera parameters"
  | calibrationParameters => "calibration parameters"

def CovarianceFault.message : CovarianceFault Float → String
  | notPositive v i => s!"variance {plain v} at index {i} is not positive"
  | notSymmetric => "matrix is not symmetric"
  | notPositiveDefinite => "matrix is not positive definite"

def Linear.MatrixFault.message : MatrixFault → String
  | noEntries => "empty normal matrix"
  | notFinite => "non-finite normal matrix"

def FitError.message : FitError Float → String
  | wrongLength what expected actual =>
    s!"{what.name}: expected {expected} elements, got {actual}"
  | underdetermined n m => s!"underdetermined problem: {n} data points for {m} parameters"
  | missingData => "no data has been set"
  | missingParameters => "no initial parameters have been set"
  | notFitted => "fit has not been run"
  | badCovariance fault => "invalid data covariance: " ++ fault.message
  | noDegreesOfFreedom => "no degrees of freedom left (N == M)"
  | badNormalMatrix fault => "numerical failure: " ++ fault.message
  | noCorrespondences => "no usable correspondences"

def FitStatus.name : FitStatus → String
  | notRun => "NotRun"
  | converged => "Converged"
  | maxIterations => "MaxIterations"
  | dampingExceeded => "DampingExceeded"

/-- What is said of the step tried as number `i`, which is aligned to four columns. -/
def Attempt.report (i : Nat) (a : Attempt Float) : LogLine :=
  let number := "".pushn ' ' (4 - (toString i).length) ++ toString i
  let damping := withExponent 3 a.nextDamping
  let text :=
    match a.verdict with
    | .singular => "damped normal matrix singular, lambda -> " ++ damping
    | .accepted chi2 change =>
      "accepted, chi2 = " ++ withExponent 6 chi2 ++ " (rel change " ++ withExponent 3 change ++
        "), lambda -> " ++ damping
    | .rejected trial chi2 =>
      "rejected, chi2 = " ++ withExponent 6 trial ++ " >= " ++ withExponent 6 chi2 ++
        ", lambda -> " ++ damping
  ⟨.debug, "  iter " ++ number ++ ": " ++ text⟩

/-- The course of a fit if `verbose`, and a warning if it got stuck. -/
def Fit.log {m n : Nat} (fit : Fit Float m n) (verbose : Bool) : List LogLine :=
  let chi2 := withExponent 6 fit.last.chi2
  let first : LogLine := ⟨.debug, s!"LM start: M={m}, N={n}, chi2 = " ++
    withExponent 6 fit.firstChi2 ++ ", lambda = " ++ withExponent 3 fit.firstDamping⟩
  let steps := fit.attempts.zipIdx.map fun (a, i) => a.report (i + 1)
  let last : LogLine :=
    ⟨.debug, s!"LM finished: {fit.status.name} after {fit.iterations} iterations, chi2 = " ++ chi2⟩
  let stuck : LogLine := ⟨.warn, "LM fit stuck: damping exceeded its ceiling after " ++
    s!"{fit.iterations} iterations (chi2 = " ++ chi2 ++ ")"⟩
  (if verbose then first :: steps ++ [last] else []) ++
    (if fit.status = .dampingExceeded then [stuck] else [])

end SkyCamera
