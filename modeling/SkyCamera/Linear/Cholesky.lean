import SkyCamera.Linear.Matrix

/-!
The Cholesky factorisation of a symmetric matrix, read from its lower triangle. A factor is a
pivot, the entries below it, and the factor of what is left when they are eliminated; a solution
is found by the same elimination on the right-hand side.
-/
namespace SkyCamera.Linear

/-- A lower triangular matrix, column after column. -/
inductive Factor (α : Type) : Nat → Type
  | empty : Factor α 0
  | column {n : Nat} (pivot : α) (below : Vector α n) (rest : Factor α n) : Factor α (n + 1)

variable {α : Type} [Scalar α]

def dropFirst {n : Nat} (v : Vector α (n + 1)) : Vector α n := .ofFn fun i => v[i.succ]

def withFirst {n : Nat} (x : α) (v : Vector α n) : Vector α (n + 1) :=
  .ofFn fun i => if h : i.val = 0 then x else v[i.val - 1]

/-- A factor exists when every pivot is above zero. -/
def cholesky : {n : Nat} → Mat α n n → Option (Factor α n)
  | 0, _ => some .empty
  | n + 1, a =>
    let corner := a[0][0]
    if 0 < corner then
      let pivot := Scalar.sqrt corner
      let below : Vector α n := .ofFn fun i => a[i.succ][0] / pivot
      let rest : Mat α n n := .ofFn fun i j => a[i.succ][j.succ] - below[i] * below[j]
      (cholesky rest).map (.column pivot below)
    else none

namespace Factor

/-- The solution of `L Lᵀ x = b`. -/
def solve : {n : Nat} → Factor α n → Vector α n → Vector α n
  | 0, .empty, b => b
  | _ + 1, .column pivot below rest, b =>
    let y := b[0] / pivot
    let x := solve rest (dropFirst b - below.map (· * y))
    withFirst ((y - dot below x) / pivot) x

/-- The inverse of `L Lᵀ`. -/
def inverse {n : Nat} (f : Factor α n) : Mat α n n :=
  Mat.transpose (Vector.ofFn fun k => f.solve (single k 1))

end Factor

/-- The diagonal of a normal matrix is raised to this floor where it scales the damping, so that
a parameter without influence is damped too. -/
def dampingFloor : α := 1e-12

/-- The matrix `a` with `damping` times its floored diagonal added. -/
def damped {n : Nat} (a : Mat α n n) (damping : α) : Mat α n n :=
  .ofFn fun i j =>
    if i = j then a[i][i] + damping * Scalar.atLeast dampingFloor a[i][i] else a[i][j]

/-- The solution of the damped equations, if their matrix is positive definite and the solution
is finite. -/
def solveDamped {n : Nat} (a : Mat α n n) (b : Vector α n) (damping : α) :
    Option (Vector α n) :=
  (cholesky (damped a damping)).bind fun f =>
    let x := f.solve b
    if ∀ i : Fin n, Scalar.IsFinite x[i] then some x else none

end SkyCamera.Linear
