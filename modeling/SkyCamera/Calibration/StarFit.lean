import SkyCamera.LeastSquares.Model
import SkyCamera.Matching.Visibility
import SkyCamera.Sky.Site

/-!
The model of a calibration. Its parameters are the intrinsics of a camera and the four components
of the quaternion that turns the horizon frame into the camera frame; its data are the pixels of
the kept stars, two for each. A star that comes behind the camera is modelled where it was
observed, so it neither pulls nor pushes.
-/
namespace SkyCamera

/-- A star that is used: its place in the list of correspondences, its direction in the horizon
frame, and how it was observed. -/
structure KeptStar (α : Type) where
  index : Nat
  direction : Vec3 α
  i : α
  j : α
  covariance : Option (Covariance2 α)

/-- What a calibration starts from. The camera also says which intrinsics are fitted. -/
structure StarFit (α : Type) where
  camera : Camera α
  orientation : Quaternion α
  stars : Array (KeptStar α)
  excluded : List (Nat × Exclusion)

namespace StarFit

variable {α : Type} [Scalar α]

/-- Correspondences that are faint, or behind the camera as it is oriented at the start, are left
out of the whole fit. -/
def ofCorrespondences (camera : Camera α) (orientation : Quaternion α)
    (pairs : List (Correspondence α)) (gmst : α) (site : Sky.Site α) (limit : α) :
    Except (FitError α) (StarFit α) :=
  let toHorizon := site.celestialToHorizon gmst
  let toCamera := orientation.toMatrix.mul toHorizon
  let stars := pairs.zipIdx.filterMap fun (c, index) =>
    match c.star.exclusion? toCamera limit with
    | none => some
        ⟨index, toHorizon.mulVec c.star.direction, c.source.x, c.source.y, c.source.covariance⟩
    | some _ => none
  if stars.isEmpty then .error .noCorrespondences
  else .ok ⟨camera, orientation, stars.toArray, (Visibility.of pairs toCamera limit).excluded⟩

variable (f : StarFit α)

def intrinsicCount : Nat := f.camera.parameterCount

def parameterCount : Nat := f.intrinsicCount + 4

def dataCount : Nat := f.stars.size * 2

abbrev star (k : Fin f.stars.size) : KeptStar α := f.stars[k]

def kept : List Nat := f.stars.toList.map (·.index)

def observed : Vector α f.dataCount :=
  (Vector.ofFn fun k : Fin f.stars.size => #v[(f.star k).i, (f.star k).j]).flatten

/-- The covariances of the kept sources, if each of them has one. -/
def covariances? : Option (List (Covariance2 α)) := f.stars.toList.mapM (·.covariance)

def names : List String := f.camera.parameterNames ++ ["qw", "qx", "qy", "qz"]

def initialList : List α := f.camera.parameters ++ f.orientation.toList

def initial : Vector α f.parameterCount := .ofFn fun c => f.initialList.getD c 0

/-- The camera with the intrinsics of `p`. -/
def cameraAt (p : Vector α f.parameterCount) : Camera α :=
  f.camera.withParameters (p.toList.take f.intrinsicCount)

/-- The last four parameters as they stand. -/
def quaternionAt (p : Vector α f.parameterCount) : Quaternion α :=
  have h : f.parameterCount = f.intrinsicCount + 4 := rfl
  let o := f.intrinsicCount
  ⟨p[o], p[o + 1], p[o + 2], p[o + 3]⟩

/-- The orientation of `p`; a zero quaternion stands for none. -/
def orientationAt (p : Vector α f.parameterCount) : Quaternion α :=
  let q := f.quaternionAt p
  if Scalar.IsZero q.norm then .identity else q.normalize

def parametersOf (p : List α) : Except (FitError α) (Vector α f.parameterCount) :=
  vectorOfLength .calibrationParameters f.parameterCount p

/-- The vector `s` turned by `q` and stretched by the square of its norm, which the division by the
depth takes away again. -/
def rotate (q : Quaternion α) (s : Vec3 α) : Vec3 α :=
  let v : Vec3 α := ⟨q.x, q.y, q.z⟩
  s.scale (q.w * q.w - v.dot v) + v.scale (2.0 * v.dot s) + (v.cross s).scale (2.0 * q.w)

/-- The derivatives of `rotate` by the components of `q`. -/
def rotateSlopes (q : Quaternion α) (s : Vec3 α) : List (Vec3 α) :=
  let v : Vec3 α := ⟨q.x, q.y, q.z⟩
  let along (e : Vec3 α) (vk sk : α) : Vec3 α :=
    s.scale (-2.0 * vk) + v.scale (2.0 * sk) + e.scale (2.0 * v.dot s) +
      (e.cross s).scale (2.0 * q.w)
  [s.scale (2.0 * q.w) + (v.cross s).scale 2.0, along ⟨1, 0, 0⟩ v.x s.x,
    along ⟨0, 1, 0⟩ v.y s.y, along ⟨0, 0, 1⟩ v.z s.z]

/-- Where a star is seen, or was observed if it is behind the camera. -/
def pixelOf (camera : Camera α) (q : Quaternion α) (star : KeptStar α) : Vector α 2 :=
  let (i, j) := (camera.project (rotate q star.direction)).getD (star.i, star.j)
  #v[i, j]

def values (p : Vector α f.parameterCount) : Vector α f.dataCount :=
  let camera := f.cameraAt p
  let q := f.quaternionAt p
  (Vector.ofFn fun k : Fin f.stars.size => pixelOf camera q (f.star k)).flatten

/-- The two rows of a star, intrinsics first; a star behind the camera has none. -/
def rowsOf (camera : Camera α) (q : Quaternion α) (star : KeptStar α) : List α × List α :=
  match camera.projectWithSlopes (rotate q star.direction) with
  | none => ([], [])
  | some slopes =>
    let turned := rotateSlopes q star.direction
    (slopes.byIntrinsics.map (·.1) ++ turned.map slopes.byPoint.1.dot,
      slopes.byIntrinsics.map (·.2) ++ turned.map slopes.byPoint.2.dot)

def jacobian (p : Vector α f.parameterCount) : Mat α f.dataCount f.parameterCount :=
  let camera := f.cameraAt p
  let q := f.quaternionAt p
  let row (entries : List α) : Vector α f.parameterCount :=
    let entries := entries.toArray
    .ofFn fun c => entries.getD c 0
  Vector.flatten (Vector.ofFn fun k : Fin f.stars.size =>
    let (rowI, rowJ) := rowsOf camera q (f.star k)
    #v[row rowI, row rowJ])

/-- Steps of `1e-7` for the quaternion and `1e-9` for the distortion, else relative steps. -/
def stepOf (index : Nat) (p : α) : α :=
  if f.intrinsicCount ≤ index then 1e-7
  else if 4 ≤ index then 1e-9
  else Model.relativeStep p

def stepsOf (p : List α) : List α := p.zipIdx.map fun (x, index) => f.stepOf index x

/-- A quaternion over its norm, and the identity if the norm is zero or not a finite number. -/
def unitOrIdentity (q : Quaternion α) : Quaternion α :=
  if 0 < q.norm ∧ Scalar.IsFinite q.norm then q.normalize else .identity

/-- The parameters with a unit quaternion. -/
def withUnitQuaternion (p : Vector α f.parameterCount) : Vector α f.parameterCount :=
  let q := (unitOrIdentity (f.quaternionAt p)).toList
  .ofFn fun c => if f.intrinsicCount ≤ c.val then q.getD (c.val - f.intrinsicCount) 0 else p[c]

def model (mode : JacobianMode) : Model α f.parameterCount f.dataCount where
  values := f.values
  derivative := mode.derivative f.jacobian
  steps := fun p => f.stepsOf p.toList
  constrain := f.withUnitQuaternion

end StarFit
end SkyCamera
