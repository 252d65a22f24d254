import SkyCamera.Camera.Model
import SkyCamera.Camera.Source
import SkyCamera.Sky.Star

/-!
Which correspondences a fit can use, and where the stars of a list are seen by a camera. Stars are
turned into the camera frame by one rotation from the celestial frame.
-/
namespace SkyCamera

/-- A source and the star it is. -/
structure Correspondence (α : Type) where
  source : Source α
  star : Sky.Star α

inductive Exclusion
  | tooFaint
  | behindCamera
  deriving DecidableEq

/-- Indices of the correspondences to use, and of those to leave out with the reason. -/
structure Visibility where
  kept : List Nat
  excluded : List (Nat × Exclusion)

variable {α : Type} [Scalar α]

/-- Why a star cannot be used: too faint, else on or behind the plane of the image. -/
def Sky.Star.exclusion? (toCamera : Mat3 α) (limit : α) (star : Sky.Star α) : Option Exclusion :=
  if ¬ star.IsBright limit then some .tooFaint
  else if (toCamera.mulVec star.direction).z ≤ 0 then some .behindCamera
  else none

theorem Sky.Star.exclusion?_eq_none_iff (toCamera : Mat3 α) (limit : α) (star : Sky.Star α) :
    star.exclusion? toCamera limit = none ↔
      star.IsBright limit ∧ ¬ (toCamera.mulVec star.direction).z ≤ 0 := by
  unfold Sky.Star.exclusion?
  by_cases hbright : star.IsBright limit
  · simp [hbright]
  · simp [hbright]

theorem Sky.Star.exclusion?_eq_tooFaint_iff (toCamera : Mat3 α) (limit : α) (star : Sky.Star α) :
    star.exclusion? toCamera limit = some .tooFaint ↔ ¬ star.IsBright limit := by
  unfold Sky.Star.exclusion?
  by_cases hbright : star.IsBright limit
  · simp [hbright]
  · simp [hbright]

def Visibility.of (pairs : List (Correspondence α)) (toCamera : Mat3 α) (limit : α) :
    Visibility where
  kept := pairs.zipIdx.filterMap fun (c, i) =>
    match c.star.exclusion? toCamera limit with
    | none => some i
    | some _ => none
  excluded := pairs.zipIdx.filterMap fun (c, i) =>
    (c.star.exclusion? toCamera limit).map fun reason => (i, reason)

/-- A star that lands on the detector, with its index in the list and its pixel. -/
structure SeenStar (α : Type) where
  index : Nat
  star : Sky.Star α
  i : α
  j : α

/-- The stars that land on the detector and are at least as bright as `limit`. -/
def Camera.starsSeen (camera : Camera α) (stars : List (Sky.Star α)) (toCamera : Mat3 α)
    (limit : α) : List (SeenStar α) :=
  stars.zipIdx.filterMap fun (star, index) =>
    if star.IsBright limit then
      match camera.project (toCamera.mulVec star.direction) with
      | some (i, j) => if camera.Contains i j then some ⟨index, star, i, j⟩ else none
      | none => none
    else none

end SkyCamera
