import SkyCamera.LeastSquares.Model

/-!
Curves that are commonly fitted, and the small problems on which least squares is usually tried.
A curve has one value for each abscissa; a problem has a fixed number of values. Values beyond
these are zero, as are the rows of a Jacobian beyond the abscissae.
-/
namespace SkyCamera

inductive CurveKind
  | line
  /-- `a exp (b x) + c` -/
  | exponential
  /-- Coefficients from the constant term upwards. -/
  | polynomial
  /-- Height, centre and width. -/
  | gaussian
  /-- Amplitude, frequency and phase. -/
  | sine
  /-- `a log (b x)` -/
  | logarithm
  /-- `a x + b (1 - x)` for a point `(a, b)` that the constraint keeps on the unit circle. -/
  | circle
  /-- `a²`, `a b` and `sin b`. -/
  | product
  | rosenbrock
  | powell
  /-- The same steep parabola for each value, with a gradient that points uphill. -/
  | uphill
  /-- The sum of the parameters for each value. -/
  | total
  | constant
  deriving DecidableEq

structure Curve (α : Type) where
  kind : CurveKind
  abscissae : List α

namespace CurveKind

def ofName? : String → Option CurveKind
  | "line" => some line
  | "exp" => some exponential
  | "poly" => some polynomial
  | "gauss" => some gaussian
  | "sine" => some sine
  | "log" => some logarithm
  | "circle" => some circle
  | "toy" => some product
  | "rosen" => some rosenbrock
  | "powell" => some powell
  | "flat" => some uphill
  | "sum" => some total
  | "const" => some constant
  | _ => none

/-- The number of parameters that must be there. -/
def arity : CurveKind → Nat
  | line | logarithm | circle | product | rosenbrock => 2
  | exponential | gaussian | sine => 3
  | powell => 4
  | uphill => 1
  | polynomial | total | constant => 0

variable {α : Type} [Scalar α]

/-- The value of a curve with parameters `p` at `x`. -/
def value (p : List α) (x : α) : CurveKind → α
  | line => p.getD 0 0 + p.getD 1 0 * x
  | exponential => p.getD 0 0 * Scalar.exp (p.getD 1 0 * x) + p.getD 2 0
  | polynomial => p.foldr (fun c sum => sum * x + c) 0
  | gaussian =>
    let d := x - p.getD 1 0
    p.getD 0 0 * Scalar.exp (-(d * d) / (2.0 * p.getD 2 0 * p.getD 2 0))
  | sine => p.getD 0 0 * Scalar.sin (p.getD 1 0 * x + p.getD 2 0)
  | logarithm => p.getD 0 0 * Scalar.log (p.getD 1 0 * x)
  | circle => p.getD 0 0 * x + p.getD 1 0 * (1 - x)
  | _ => 0

/-- The derivatives of a curve with parameters `p` at `x`, where they have a closed form. -/
def slopes? : CurveKind → Option (List α → α → List α)
  | line => some fun _ x => [1, x]
  | exponential => some fun p x =>
    let e := Scalar.exp (p.getD 1 0 * x)
    [e, p.getD 0 0 * x * e, 1]
  | polynomial => some fun p x => p.foldr (fun _ powers => 1 :: powers.map (· * x)) []
  | sine => some fun p x =>
    let t := p.getD 1 0 * x + p.getD 2 0
    [Scalar.sin t, p.getD 0 0 * x * Scalar.cos t, p.getD 0 0 * Scalar.cos t]
  | logarithm => some fun p x => [Scalar.log (p.getD 1 0 * x), p.getD 0 0 / p.getD 1 0]
  | uphill => some fun _ _ => [-1]
  | constant => some fun p _ => p.map fun _ => 0
  | _ => none

/-- The values of a problem that has no abscissae, unless they are all the same. -/
def problem (p : List α) : CurveKind → List α
  | product => [p.getD 0 0 * p.getD 0 0, p.getD 0 0 * p.getD 1 0, Scalar.sin (p.getD 1 0)]
  | rosenbrock => [10.0 * (p.getD 1 0 - p.getD 0 0 * p.getD 0 0), 1 - p.getD 0 0]
  | powell =>
    let a := p.getD 1 0 - 2.0 * p.getD 2 0
    let b := p.getD 0 0 - p.getD 3 0
    [p.getD 0 0 + 10.0 * p.getD 1 0, Scalar.sqrt 5.0 * (p.getD 2 0 - p.getD 3 0), a * a,
      Scalar.sqrt 10.0 * (b * b)]
  | _ => []

/-- The value that is the same for every datum, if there is one. -/
def uniform? (p : List α) : CurveKind → Option α
  | uphill => some (p.getD 0 0 * p.getD 0 0 * 1e6)
  | total => some (p.foldl (· + ·) 0)
  | constant => some 0
  | _ => none

def isUniform : CurveKind → Bool
  | uphill | total | constant => true
  | _ => false

def isProblem : CurveKind → Bool
  | product | rosenbrock | powell => true
  | _ => false

end CurveKind

namespace Curve

variable {α : Type} [Scalar α] {m n : Nat} (curve : Curve α)

/-- The values at `p`, before zeros are added behind them. -/
def listed (p : List α) : List α :=
  if curve.kind.isProblem then curve.kind.problem p
  else curve.abscissae.map (curve.kind.value p ·)

def values (p : List α) : Vector α n :=
  match curve.kind.uniform? p with
  | some value => .replicate n value
  | none => let listed := (curve.listed p).toArray; .ofFn fun i => listed.getD i 0

/-- The Jacobian in closed form, with a row for each abscissa. -/
def jacobian (p : Vector α m) : Mat α n m :=
  let slopes : List α → α → List α := curve.kind.slopes?.getD fun _ _ => []
  let rows := curve.abscissae.toArray.map fun x => (slopes p.toList x).toArray
  .ofFn fun i j => (rows.getD i #[]).getD j 0

/-- The first two parameters moved to the unit circle, unless they are zero. -/
def toCircle (p : Vector α m) : Vector α m :=
  let a := p.toList.getD 0 0
  let b := p.toList.getD 1 0
  let norm := Scalar.sqrt (a * a + b * b)
  if 0 < norm then .ofFn fun i => if i.val < 2 then p[i] / norm else p[i] else p

/-- What is left open about the model of a curve. -/
structure Options (α : Type) where
  mode : JacobianMode
  /-- Steps for the differences, if they are not the usual ones. -/
  steps : Option (List α)
  /-- Whether the constraint of the curve is applied. -/
  constrained : Bool

variable (options : Options α)

/-- Whether the values for `m` parameters can be stored in `n` places. -/
def valuesFit (m n : Nat) : Bool :=
  if curve.kind.isUniform then curve.kind.arity ≤ m
  else
    let count := (curve.listed []).length
    count ≤ n ∧ (count = 0 ∨ curve.kind.arity ≤ m)

/-- Whether there are rows in closed form that can be stored in `n` rows of `m` entries. Without
abscissae there are none to store. -/
def rowsFit (m n : Nat) : Bool :=
  let count := curve.abscissae.length
  let known := (curve.kind.slopes? : Option (List α → α → List α)).isSome
  count = 0 ∨ known ∧ curve.kind.arity ≤ m ∧ (m = 0 ∨ count ≤ n)

/-- Whether `m` parameters can be constrained: a point of the plane needs two. -/
def constraintFits (m : Nat) : Bool :=
  curve.kind ≠ .circle ∨ !options.constrained ∨ 2 ≤ m

/-- Whether the Jacobian can be found. Differences need values and a column for each step, and the
parameters that a step displaces are constrained again. Without steps only a forward difference
looks at the values. -/
def jacobianFits (m n : Nat) : Bool :=
  let count := (options.steps.map (·.length)).getD m
  let differs := curve.valuesFit m n && count ≤ m && curve.constraintFits options m
  match options.mode with
  | .analytic => curve.rowsFit m n
  | .forwardDifference => if count = 0 then curve.valuesFit m n else differs
  | .centralDifference => count = 0 || differs

/-- Whether a fit of `m` parameters to `n` data can be started. -/
def canFit (m n : Nat) : Bool :=
  curve.valuesFit m n && curve.constraintFits options m && curve.jacobianFits options m n

/-- The model of a curve. Where values or rows do not fit, those without a place are left out. -/
def model : Model α m n where
  values p := curve.values p.toList
  derivative := options.mode.derivative curve.jacobian
  steps p := options.steps.getD (Model.defaultSteps p)
  constrain := if curve.kind = .circle ∧ options.constrained then toCircle else id

end Curve
end SkyCamera
