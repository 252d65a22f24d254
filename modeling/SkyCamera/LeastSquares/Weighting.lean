import SkyCamera.LeastSquares.DataCovariance
import SkyCamera.Linear.Table

/-!
Weighting of lists and tables of any length. Independent data can be weighted without those at the
end; correlated data only together.
-/
namespace SkyCamera

namespace DataCovariance

variable {α : Type} [Scalar α] {n : Nat}

/-- A covariance of as many data as the table has rows. -/
def ofTable (t : Table α) : Except (CovarianceFault α) (DataCovariance α t.rows) :=
  match t.square? with
  | some a => ofMatrix a
  | none => .error .notSymmetric

/-- The covariance of the first `r` data, where it can be told apart from the others. -/
def leading? (cov : DataCovariance α n) (r : Nat) : Option (DataCovariance α r) :=
  if h : r = n then some (h ▸ cov)
  else
    match cov with
    | .diagonal v =>
      if h : r ≤ n then some (.diagonal (.ofFn fun i => v[i.castLE h]))
      else none
    | .full .. => none

def weight? (cov : DataCovariance α n) (v : List α) : Option (List α) := do
  return (cov.weight (← Table.fitted? n v)).toList

def chi2? (cov : DataCovariance α n) (v : List α) : Option α := do
  return cov.chi2 (← Table.fitted? n v)

/-- A table without columns fits correlated data whatever its rows, and then has one for each. -/
def weightRows? (cov : DataCovariance α n) (t : Table α) : Option (Table α) :=
  if ¬ cov.isDiagonal ∧ t.columns = 0 then some (.ofMat (Mat.zero : Mat α n 0))
  else do return .ofMat ((← cov.leading? t.rows).weightRows t.entries)

/-- The full covariance of no data fits a table without columns, whatever its rows. -/
def propagate? (cov : DataCovariance α n) (t : Table α) : Option (Table α) :=
  if ¬ cov.isDiagonal ∧ n = 0 ∧ t.columns = 0 then some (.ofMat (Mat.zero : Mat α 0 0))
  else do return .ofMat ((← cov.leading? t.rows).propagate t.entries)

end DataCovariance
end SkyCamera
