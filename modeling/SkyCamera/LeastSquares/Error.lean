import SkyCamera.LeastSquares.DataCovariance
import SkyCamera.Linear.PseudoInverse

/-!
Why a fit or a calibration cannot be set up or evaluated. A fit that makes no progress is not an
error but a status.
-/
namespace SkyCamera

/-- What a list of numbers is meant for. -/
inductive Quantity
  | data
  | parameters
  | covariance
  | variance
  | cameraParameters
  | calibrationParameters
  deriving DecidableEq

inductive FitError (α : Type)
  | wrongLength (what : Quantity) (expected actual : Nat)
  | underdetermined (data parameters : Nat)
  | missingData
  | missingParameters
  | notFitted
  | badCovariance (fault : CovarianceFault α)
  | noDegreesOfFreedom
  | badNormalMatrix (fault : Linear.MatrixFault)
  | noCorrespondences

/-- A list as a vector, if it has the length that is expected. -/
def vectorOfLength {α : Type} (what : Quantity) (n : Nat) (v : List α) :
    Except (FitError α) (Vector α n) :=
  if h : v.length = n then .ok ⟨v.toArray, by simpa using h⟩
  else .error (.wrongLength what n v.length)

end SkyCamera
