import SkyCamera.Linear.Cholesky
import SkyCamera.Linear.Correlation

/-!
Matrices of any shape. An operation gives nothing where the shapes of its arguments do not fit;
where they fit it is the operation on matrices of that shape.
-/
namespace SkyCamera

structure Table (α : Type) where
  rows : Nat
  columns : Nat
  entries : Mat α rows columns

namespace Table

variable {α : Type} [Scalar α]

def ofMat {r c : Nat} (a : Mat α r c) : Table α := ⟨r, c, a⟩

/-- The entries row after row, if there are as many as the shape asks for. -/
def ofList? (r c : Nat) (entries : List α) : Option (Table α) :=
  if h : entries.length = r * c then some (.ofMat (Mat.ofRows ⟨entries.toArray, by simpa using h⟩))
  else none

def toList (t : Table α) : List α := t.entries.toList.flatMap (·.toList)

def square? (t : Table α) : Option (Mat α t.rows t.rows) :=
  if h : t.columns = t.rows then some (h ▸ t.entries) else none

/-- The list as a vector of the length that is needed. -/
def fitted? (n : Nat) (v : List α) : Option (Vector α n) :=
  if h : v.length = n then some ⟨v.toArray, h⟩ else none

/-- The solution of the damped equations, if there is one. The right-hand side is looked at only
where the matrix has a factor, and is its own solution if there are no equations. -/
def solveDamped (t : Table α) (b : List α) (damping : α) : Option (Option (List α)) := do
  let a ← t.square?
  if t.rows = 0 then
    return if ∀ x ∈ b, Scalar.IsFinite x then some b else none
  match Linear.cholesky (Linear.damped a damping) with
  | none => return none
  | some _ => return (Linear.solveDamped a (← fitted? t.rows b) damping).map (·.toList)

def isSymmetric (tolerance : α) (t : Table α) : Bool :=
  match t.square? with
  | some a => a.IsSymmetric tolerance
  | none => false

/-- The correlations of a table that is square. -/
def correlation (t : Table α) : Option (Table α) :=
  t.square?.map fun a => .ofMat (Linear.correlation a)

end Table

end SkyCamera
