import SkyCamera.LeastSquares.Error
import SkyCamera.LeastSquares.Model

/-!
Damped Gauss-Newton fits. From a point the step `Δ` solves `(A + λ D) Δ = b` with the normal
matrix `A = Jᵀ C⁻¹ J`, its floored diagonal `D` and the gradient `b = Jᵀ C⁻¹ r`; it is kept only if
it lowers `χ²`, and then the damping `λ` shrinks, else it grows. A fit keeps a record of every step
it tried.
-/
namespace SkyCamera

structure Settings (α : Type) where
  /-- A relative decrease of `χ²` below this ends the fit. -/
  exitTolerance : α
  /-- The largest damping, as a multiple of the first. -/
  maxDamping : α
  /-- The factor by which the damping shrinks and grows. -/
  boost : α
  /-- A step is negligible when it is this small beside the parameters. -/
  stepTolerance : α
  /-- The displacement of a datum in a fourth-order covariance. -/
  dataStep : α

def Settings.standard {α : Type} [Scalar α] : Settings α where
  exitTolerance := 1e-32
  maxDamping := 1e32
  boost := 10.0
  stepTolerance := 1e-12
  dataStep := 1e-2

inductive FitStatus
  | notRun
  | converged
  | maxIterations
  | dampingExceeded
  deriving DecidableEq

/-- Whether the parameters are a usable solution. -/
def FitStatus.isValid : FitStatus → Bool
  | .converged | .maxIterations => true
  | .notRun | .dampingExceeded => false

/-- What a fit does not change. -/
structure Problem (α : Type) (m n : Nat) where
  model : Model α m n
  data : Vector α n
  covariance : DataCovariance α n
  settings : Settings α

/-- Parameters with the values of the model there and the `χ²` of the data against them. -/
structure Point (α : Type) (m n : Nat) where
  parameters : Vector α m
  values : Vector α n
  chi2 : α

structure NormalEquations (α : Type) (m : Nat) where
  matrix : Mat α m m
  gradient : Vector α m

inductive Verdict (α : Type)
  /-- The damped normal matrix has no Cholesky factor, or no finite solution. -/
  | singular
  | accepted (chi2 relativeChange : α)
  | rejected (trialChi2 chi2 : α)

def Verdict.acceptedChi2 {α : Type} : Verdict α → Option α
  | .accepted chi2 _ => some chi2
  | .singular | .rejected .. => none

/-- A step that was tried with one damping, and the damping after it. -/
structure Attempt (α : Type) where
  damping : α
  verdict : Verdict α
  nextDamping : α

structure Iterate (α : Type) (m n : Nat) where
  point : Point α m n
  equations : NormalEquations α m
  damping : α

structure Fit (α : Type) (m n : Nat) where
  firstChi2 : α
  firstDamping : α
  attempts : List (Attempt α)
  last : Point α m n
  status : FitStatus
  maxIterations : Nat

namespace Problem

variable {α : Type} [Scalar α] {m n : Nat} (problem : Problem α m n)

def chi2 (values : Vector α n) : α := problem.covariance.chi2 (problem.data - values)

/-- The point at `p`, once the constraint has been applied to it. -/
def point (p : Vector α m) : Point α m n :=
  let parameters := problem.model.constrain p
  let values := problem.model.values parameters
  ⟨parameters, values, problem.chi2 values⟩

def equations (point : Point α m n) : NormalEquations α m :=
  let jacobian := problem.model.jacobian point.parameters
  let weighted := problem.covariance.weightRows jacobian
  ⟨jacobian.transpose.mul weighted,
    weighted.transpose.mulVec (problem.data - point.values)⟩

/-- A thousandth of the mean diagonal of the normal matrix, or of one if that mean is not a
number above zero. -/
def firstDamping (a : Mat α m m) : α :=
  let mean := if m = 0 then 0 else Scalar.sum (fun i : Fin m => a[i][i]) / (m : α)
  if Scalar.IsFinite mean ∧ 0 < mean then 1e-3 * mean else 1e-3

/-- Whether the decrease of `χ²` that the diagonal predicts is lost beside `χ²` and beside the `χ²`
of a negligible change of the data. -/
def GradientNegligible (e : NormalEquations α m) (chi2 : α) : Prop :=
  let tolerance := problem.settings.stepTolerance
  let predicted := Scalar.sum fun k : Fin m =>
    if 0 < e.matrix[k][k] then e.gradient[k] * e.gradient[k] / e.matrix[k][k] else 0
  predicted ≤ tolerance * chi2 + problem.covariance.chi2 (problem.data.map (· * tolerance))

instance (e : NormalEquations α m) (chi2 : α) : Decidable (problem.GradientNegligible e chi2) := by
  unfold GradientNegligible; infer_instance

/-- Whether the way from `p` to `q` is negligible beside `p`. -/
def StepNegligible (p q : Vector α m) : Prop :=
  let tolerance := problem.settings.stepTolerance
  Linear.norm (q - p) ≤ tolerance * (Linear.norm p + tolerance)

instance (p q : Vector α m) : Decidable (problem.StepNegligible p q) := by
  unfold StepNegligible; infer_instance

/-- The status with which a step without success ends the fit, if it does. -/
def exhausted (ceiling damping : α) : Option FitStatus :=
  if ceiling < damping then some .dampingExceeded else none

/-- One step from an iterate: what became of it, where the fit stands then, and the status if it
ends there. -/
def attempt (ceiling : α) (it : Iterate α m n) :
    Attempt α × Iterate α m n × Option FitStatus :=
  let boost := problem.settings.boost
  match Linear.solveDamped it.equations.matrix it.equations.gradient it.damping with
  | none =>
    let damping := it.damping * boost
    (⟨it.damping, .singular, damping⟩, { it with damping }, exhausted ceiling damping)
  | some step =>
    let trial := problem.point (it.point.parameters + step)
    let chi2 := it.point.chi2
    if Scalar.IsFinite trial.chi2 ∧ trial.chi2 < chi2 then
      let change := (chi2 - trial.chi2) / chi2
      let damping := it.damping / boost
      let attempt := ⟨it.damping, .accepted trial.chi2 change, damping⟩
      if change < problem.settings.exitTolerance ∨ Scalar.IsZero trial.chi2 ∨
          problem.StepNegligible it.point.parameters trial.parameters then
        (attempt, { it with point := trial, damping }, some .converged)
      else (attempt, ⟨trial, problem.equations trial, damping⟩, none)
    else
      let damping := it.damping * boost
      let status :=
        if problem.StepNegligible it.point.parameters trial.parameters ∧
            problem.GradientNegligible it.equations chi2 then some .converged
        else exhausted ceiling damping
      (⟨it.damping, .rejected trial.chi2 chi2, damping⟩, { it with damping }, status)

/-- At most `limit` further steps; `tried` holds those before, the latest first. -/
def iterate (ceiling : α) : Nat → Iterate α m n → List (Attempt α) →
    List (Attempt α) × Point α m n × FitStatus
  | 0, it, tried => (tried.reverse, it.point, .maxIterations)
  | limit + 1, it, tried =>
    match problem.attempt ceiling it with
    | (attempt, next, some status) => ((attempt :: tried).reverse, next.point, status)
    | (attempt, next, none) => iterate ceiling limit next (attempt :: tried)

/-- A fit from `start` with at most `maxIterations` steps. A `χ²` of zero needs none. -/
def fit (start : Vector α m) (maxIterations : Nat) : Fit α m n :=
  let point := problem.point start
  let equations := problem.equations point
  let damping := firstDamping equations.matrix
  let (attempts, last, status) :=
    if Scalar.IsZero point.chi2 then ([], point, .converged)
    else
      problem.iterate (problem.settings.maxDamping * damping) maxIterations
        ⟨point, equations, damping⟩ []
  ⟨point.chi2, damping, attempts, last, status, maxIterations⟩

end Problem

namespace Fit

variable {α : Type} {m n : Nat} (fit : Fit α m n)

/-- The number of steps that were tried. -/
def iterations : Nat := fit.attempts.length

/-- `χ²` at the start and after each accepted step. -/
def history : List α :=
  fit.firstChi2 :: fit.attempts.filterMap (·.verdict.acceptedChi2)

end Fit
end SkyCamera
