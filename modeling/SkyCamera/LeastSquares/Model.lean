import SkyCamera.Linear.Matrix

/-!
The model of a fit: `n` values that depend on `m` parameters. A constraint is applied to the
parameters after every change, also to those displaced for a difference quotient, so a model is
only ever evaluated at constrained parameters. Derivatives are given in closed form or estimated
by differences, one column for each step.
-/
namespace SkyCamera

inductive Derivative (α : Type) (m n : Nat)
  | closedForm (jacobian : Vector α m → Mat α n m)
  | forwardDifference
  | centralDifference

inductive JacobianMode
  | analytic
  | forwardDifference
  | centralDifference
  deriving DecidableEq

/-- The derivative in this mode of a model whose closed form is given. -/
def JacobianMode.derivative {α : Type} {m n : Nat} (closedForm : Vector α m → Mat α n m) :
    JacobianMode → Derivative α m n
  | analytic => .closedForm closedForm
  | forwardDifference => .forwardDifference
  | centralDifference => .centralDifference

structure Model (α : Type) (m n : Nat) where
  values : Vector α m → Vector α n
  derivative : Derivative α m n := .forwardDifference
  /-- The displacement of each parameter; parameters beyond the list are not displaced. -/
  steps : Vector α m → List α
  constrain : Vector α m → Vector α m := id

namespace Model

variable {α : Type} [Scalar α] {m n : Nat}

/-- A millionth of the parameter, and of one if the parameter is smaller than that. -/
def relativeStep (p : α) : α := 1e-6 * Scalar.atLeast 1 (Scalar.abs p)

def defaultSteps (p : Vector α m) : List α := p.toList.map relativeStep

/-- The values where parameter `j` is displaced by `h`. -/
def valuesBeside (model : Model α m n) (p : Vector α m) (j : Fin m) (h : α) : Vector α n :=
  model.values (model.constrain (p.set j (p[j] + h) j.isLt))

/-- The matrix with column `j` computed from the step of parameter `j`, and zero without one. -/
def differenceColumns (steps : List α) (column : Fin m → α → Vector α n) : Mat α n m :=
  Mat.transpose (Vector.ofFn fun j =>
    match steps[j.val]? with
    | some h => column j h
    | none => 0)

/-- `(f (p + h) - f p) / h`. -/
def forwardDifference (model : Model α m n) (p : Vector α m) : Mat α n m :=
  let centre := model.values p
  differenceColumns (model.steps p) fun j h =>
    (model.valuesBeside p j h - centre).map (· / h)

/-- The five-point quotient of `-f (p + 2 h) + 8 f (p + h) - 8 f (p - h) + f (p - 2 h)` by
`12 h`. -/
def fivePoint (h : α) (far near near' far' : Vector α n) : Vector α n :=
  (-far + near.map (· * 8.0) - near'.map (· * 8.0) + far').map (· / (12.0 * h))

def centralDifference (model : Model α m n) (p : Vector α m) : Mat α n m :=
  differenceColumns (model.steps p) fun j h =>
    fivePoint h (model.valuesBeside p j (2.0 * h)) (model.valuesBeside p j h)
      (model.valuesBeside p j (-h)) (model.valuesBeside p j (-(2.0 * h)))

def jacobian (model : Model α m n) (p : Vector α m) : Mat α n m :=
  match model.derivative with
  | .closedForm f => f p
  | .forwardDifference => model.forwardDifference p
  | .centralDifference => model.centralDifference p

end Model
end SkyCamera
