import SkyCamera.Linear.Cholesky

/-!
The covariance of the data of a fit: one variance for each datum, or a full matrix kept together
with its inverse. Residuals are weighted with the inverse, sensitivities are propagated with the
matrix itself.
-/
namespace SkyCamera

inductive CovarianceFault (α : Type)
  | notPositive (variance : α) (index : Nat)
  | notSymmetric
  | notPositiveDefinite

inductive DataCovariance (α : Type) (n : Nat)
  | diagonal (variances : Vector α n)
  | full (covariance inverse : Mat α n n)

namespace DataCovariance

variable {α : Type} [Scalar α] {n c : Nat}

def identity : DataCovariance α n := .diagonal (.replicate n 1)

/-- Variances must be finite and above zero; the first that is not is reported. -/
def ofVariances (v : Vector α n) : Except (CovarianceFault α) (DataCovariance α n) :=
  match (List.finRange n).find? fun i => ¬ (Scalar.IsFinite v[i] ∧ (0 : α) < v[i]) with
  | some i => .error (.notPositive v[i] i.val)
  | none => .ok (.diagonal v)

/-- How far a covariance may be from symmetric, beside its largest entry. -/
def symmetryTolerance : α := 1e-10

def ofMatrix (a : Mat α n n) : Except (CovarianceFault α) (DataCovariance α n) :=
  if a.IsSymmetric symmetryTolerance then
    match Linear.cholesky a with
    | some f => .ok (.full a f.inverse)
    | none => .error .notPositiveDefinite
  else .error .notSymmetric

def isDiagonal : DataCovariance α n → Bool
  | .diagonal _ => true
  | .full .. => false

/-- `C⁻¹ v`. -/
def weight (v : Vector α n) : DataCovariance α n → Vector α n
  | .diagonal variances => v.zipWith (· / ·) variances
  | .full _ inverse => inverse.mulVec v

/-- `C⁻¹ J`. -/
def weightRows (j : Mat α n c) : DataCovariance α n → Mat α n c
  | .diagonal variances => j.divideRows variances
  | .full _ inverse => inverse.mul j

/-- `rᵀ C⁻¹ r`. -/
def chi2 (cov : DataCovariance α n) (r : Vector α n) : α := Linear.dot r (cov.weight r)

/-- `Dᵀ C D`. -/
def propagate (d : Mat α n c) : DataCovariance α n → Mat α c c
  | .diagonal variances => d.transpose.mul (d.scaleRows variances)
  | .full covariance _ => (d.transpose.mul covariance).mul d

end DataCovariance
end SkyCamera
