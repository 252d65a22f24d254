import SkyCamera.LeastSquares.Fit
import SkyCamera.Linear.Correlation

/-!
A solver holds a model, its data and its current parameters, and the last fit. Setters check
lengths, a fit starts from the current parameters and replaces them, and what fails leaves the
solver as it was.
-/
namespace SkyCamera

structure Solver (α : Type) (m n : Nat) where
  model : Model α m n
  settings : Settings α
  data : Option (Vector α n)
  parameters? : Option (Vector α m)
  covariance : DataCovariance α n
  lastFit : Option (Fit α m n)

namespace Solver

variable {α : Type} [Scalar α] {m n : Nat}

/-- A solver without data, with unit variances. -/
def ofModel (model : Model α m n) (settings : Settings α) : Solver α m n where
  model := model
  settings := settings
  data := none
  parameters? := none
  covariance := .identity
  lastFit := none

def setData (s : Solver α m n) (data : List α) : Except (FitError α) (Solver α m n) := do
  return { s with data := some (← vectorOfLength .data n data) }

def setParameters (s : Solver α m n) (parameters : List α) :
    Except (FitError α) (Solver α m n) := do
  return { s with parameters? := some (← vectorOfLength .parameters m parameters) }

def setVariance (s : Solver α m n) (variance : List α) : Except (FitError α) (Solver α m n) := do
  let v ← vectorOfLength .variance n variance
  return { s with covariance := ← (DataCovariance.ofVariances v).mapError .badCovariance }

/-- The matrix is given row after row. -/
def setCovariance (s : Solver α m n) (entries : List α) : Except (FitError α) (Solver α m n) := do
  let v ← vectorOfLength .covariance (n * n) entries
  return { s with covariance := ← (DataCovariance.ofMatrix (Mat.ofRows v)).mapError .badCovariance }

/-- A fit from the current parameters. Too few data come first among what can be missing. -/
def fit (s : Solver α m n) (maxIterations : Nat) : Except (FitError α) (Solver α m n) :=
  if n < m then .error (.underdetermined n m)
  else
    match s.data, s.parameters? with
    | none, _ => .error .missingData
    | some _, none => .error .missingParameters
    | some data, some start =>
      let fit := Problem.fit ⟨s.model, data, s.covariance, s.settings⟩ start maxIterations
      .ok { s with parameters? := some fit.last.parameters, lastFit := some fit }

variable (s : Solver α m n)

def status : FitStatus := (s.lastFit.map (·.status)).getD .notRun

/-- The number of steps that the last fit tried. -/
def iterations : Nat := (s.lastFit.map (·.iterations)).getD 0

/-- The current parameters: a start that was set, or the end of a fit. -/
def parameters : Vector α m := s.parameters?.getD 0

/-- The values of the model where the last fit ended. -/
def values : Vector α n := (s.lastFit.map (·.last.values)).getD 0

def residuals : Vector α n :=
  match s.data with
  | some data => data - s.values
  | none => 0

/-- `χ²` where the last fit ended, and no number before the first. -/
def chi2 : α := (s.lastFit.map (·.last.chi2)).getD Scalar.undefined

def history : List α := (s.lastFit.map (·.history)).getD []

/-- Degrees of freedom. -/
def dof (_ : Solver α m n) : Nat := n - m

/-- `χ²` for each degree of freedom, if there are any. -/
def reducedChi2 : Option α := if s.dof = 0 then none else some (s.chi2 / (s.dof : α))

/-- `χ²` for each degree of freedom times the pseudo-inverse of the normal matrix, so that what the
data do not constrain has no variance. -/
def parameterCovariance [Linear.HasPseudoInverse α] : Except (FitError α) (Mat α m m) := do
  if s.status = .notRun then throw .notFitted
  let some reduced := s.reducedChi2 | throw .noDegreesOfFreedom
  let some parameters := s.parameters? | throw .missingParameters
  let jacobian := s.model.jacobian parameters
  let normal := jacobian.transpose.mul (s.covariance.weightRows jacobian)
  let inverse ← (Linear.pseudoInverse normal).mapError .badNormalMatrix
  return inverse.scale reduced

/-- The covariance of the data carried over to the parameters by their sensitivities, which are
estimated by refitting with each datum displaced. -/
def fourthOrderCovariance : Except (FitError α) (Mat α m m) := do
  let some last := s.lastFit | throw .notFitted
  let some data := s.data | throw .missingData
  let some solution := s.parameters? | throw .missingParameters
  let h := s.settings.dataStep
  let refit (i : Fin n) (offset : α) : Vector α m :=
    let problem : Problem α m n :=
      ⟨s.model, data.set i (data[i] + offset) i.isLt, s.covariance, s.settings⟩
    (problem.fit solution last.maxIterations).last.parameters
  let sensitivities : Mat α n m := Vector.ofFn fun i =>
    Model.fivePoint h (refit i (2.0 * h)) (refit i h) (refit i (-h)) (refit i (-(2.0 * h)))
  return s.covariance.propagate sensitivities

end Solver
end SkyCamera
