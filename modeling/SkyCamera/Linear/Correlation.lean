import SkyCamera.Linear.Matrix

/-!
Standard errors and correlations of a covariance matrix. A parameter without variance correlates
with itself only.
-/
namespace SkyCamera.Linear

variable {α : Type} [Scalar α] {n : Nat}

/-- A standard error from a variance; rounding below zero counts as zero. -/
def standardError (variance : α) : α := Scalar.sqrt (Scalar.atLeast 0 variance)

def standardErrors (covariance : Mat α n n) : Vector α n := covariance.diagonal.map standardError

def correlation (covariance : Mat α n n) : Mat α n n :=
  let errors := standardErrors covariance
  .ofFn fun i j =>
    if i = j then 1
    else if 0 < errors[i] ∧ 0 < errors[j] then covariance[i][j] / (errors[i] * errors[j])
    else 0

/-- The root mean square length of the plane vectors packed in `v`, two entries each. -/
def rmsLength (v : Vector α n) : α :=
  if n / 2 = 0 then 0 else Scalar.sqrt (dot v v / ((n / 2 : Nat) : α))

end SkyCamera.Linear
