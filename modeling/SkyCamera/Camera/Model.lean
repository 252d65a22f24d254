import SkyCamera.Camera.Distortion
import SkyCamera.Geometry.Vec3
import SkyCamera.LeastSquares.Error

/-!
Cameras: a vector of the camera frame is divided by its depth, distorted, scaled by the focal
lengths and moved by the principal point. The intrinsics can be read and replaced as a list of
parameters, in the order `fi, fj, pi, pj` and then the free coefficients of the distortion.
-/
namespace SkyCamera

structure Camera (α : Type) where
  /-- Focal lengths in pixels along the two axes of the image. -/
  fi : α
  fj : α
  /-- The principal point. -/
  pi : α
  pj : α
  width : UInt32
  height : UInt32
  distortion : Distortion α

/-- A pixel with its derivatives by the vector it shows, a row for each coordinate of the pixel,
and by the intrinsics, a pair for each of them. -/
structure PixelSlopes (α : Type) where
  pixel : α × α
  byPoint : Vec3 α × Vec3 α
  byIntrinsics : List (α × α)

namespace Camera

variable {α : Type} [Scalar α]

def widthPx (c : Camera α) : α := (c.width.toNat : α)

def heightPx (c : Camera α) : α := (c.height.toNat : α)

/-- A camera from its focal length and the size of its pixels, in one unit of length, with the
principal point in the middle of the image. -/
def ofPhysical (focalLength pixelWidth pixelHeight : α) (width height : UInt32) : Camera α where
  fi := focalLength / pixelWidth
  fj := focalLength / pixelHeight
  pi := (width.toNat : α) / 2.0
  pj := (height.toNat : α) / 2.0
  width := width
  height := height
  distortion := .none

/-- A camera with square pixels from its horizontal field of view. -/
def ofFieldOfView (angle : α) (width height : UInt32) : Camera α :=
  let f := ((width.toNat : α) / 2.0) / Scalar.tan (angle / 2.0)
  { fi := f, fj := f, pi := (width.toNat : α) / 2.0, pj := (height.toNat : α) / 2.0
    width := width, height := height, distortion := .none }

def fieldOfView (c : Camera α) : α := 2.0 * Scalar.atan ((c.widthPx / 2.0) / c.fi)

def verticalFieldOfView (c : Camera α) : α := 2.0 * Scalar.atan ((c.heightPx / 2.0) / c.fj)

/-- Radians for each pixel near the principal point. -/
def pixelScale (c : Camera α) : α := 1 / c.fi

/-- The matrix of the camera without its distortion. -/
def intrinsicMatrix (c : Camera α) : Mat3 α := ⟨⟨c.fi, 0, c.pi⟩, ⟨0, c.fj, c.pj⟩, ⟨0, 0, 1⟩⟩

/-- Whether a pixel lies on the detector. -/
def Contains (c : Camera α) (i j : α) : Prop := 0 ≤ i ∧ 0 ≤ j ∧ i < c.widthPx ∧ j < c.heightPx

instance (c : Camera α) (i j : α) : Decidable (c.Contains i j) := by
  unfold Contains; infer_instance

/-- Whether two cameras have the same numbers throughout, none of them undefined. -/
def Same (c d : Camera α) : Prop :=
  Scalar.Same c.fi d.fi ∧ Scalar.Same c.fj d.fj ∧ Scalar.Same c.pi d.pi ∧ Scalar.Same c.pj d.pj ∧
    c.width = d.width ∧ c.height = d.height ∧ c.distortion.Same d.distortion

instance (c d : Camera α) : Decidable (c.Same d) := by unfold Same; infer_instance

/-- The number of intrinsics. -/
def parameterCount (c : Camera α) : Nat := 4 + c.distortion.freeCount

def parameters (c : Camera α) : List α := [c.fi, c.fj, c.pi, c.pj] ++ c.distortion.freeCoefficients

def parameterNames (c : Camera α) : List String := ["fi", "fj", "pi", "pj"] ++ c.distortion.names

/-- The camera with intrinsics from a list of `parameterCount` numbers. -/
def withParameters (c : Camera α) : List α → Camera α
  | fi :: fj :: pi :: pj :: ks =>
    { c with fi := fi, fj := fj, pi := pi, pj := pj, distortion := c.distortion.withFree ks }
  | _ => c

def setParameters (c : Camera α) (p : List α) : Except (FitError α) (Camera α) :=
  if p.length = c.parameterCount then .ok (c.withParameters p)
  else .error (.wrongLength .cameraParameters c.parameterCount p.length)

@[simp] theorem length_parameters {β : Type} (c : Camera β) :
    c.parameters.length = c.parameterCount := by
  simp only [parameters, parameterCount, List.length_append, List.length_cons, List.length_nil,
    Distortion.length_freeCoefficients]

@[simp] theorem length_parameterNames {β : Type} (c : Camera β) :
    c.parameterNames.length = c.parameterCount := by
  simp only [parameterNames, parameterCount, List.length_append, List.length_cons, List.length_nil,
    Distortion.length_names]

/-- From the tangent plane to a pixel. -/
def tangentToPixel (c : Camera α) (x y : α) : α × α :=
  let (xd, yd) := c.distortion.distort x y
  (c.fi * xd + c.pi, c.fj * yd + c.pj)

/-- From a pixel to the tangent plane. -/
def pixelToTangent (c : Camera α) (i j : α) : α × α :=
  c.distortion.undistort ((i - c.pi) / c.fi) ((j - c.pj) / c.fj)

/-- The pixel that shows a vector of the camera frame, unless its depth is zero or below. -/
def project (c : Camera α) (v : Vec3 α) : Option (α × α) :=
  if v.z ≤ 0 then none else some (c.tangentToPixel (v.x / v.z) (v.y / v.z))

/-- The unit vector that a pixel shows. -/
def unproject (c : Camera α) (i j : α) : Vec3 α :=
  let (x, y) := c.pixelToTangent i j
  Vec3.normalize ⟨x, y, 1⟩

/-- `first`, then `first * ratio`, and so on. -/
def geometric (ratio : α) : Nat → α → List α
  | 0, _ => []
  | n + 1, first => first :: geometric ratio n (first * ratio)

/-- The projection with its derivatives. -/
def projectWithSlopes (c : Camera α) (v : Vec3 α) : Option (PixelSlopes α) :=
  if v.z ≤ 0 then none
  else
    let x := v.x / v.z
    let y := v.y / v.z
    let r2 := x * x + y * y
    let (s, slope) := c.distortion.scaleAndSlope r2
    let xd := x * s
    let yd := y * s
    let mixed := 2.0 * x * y * slope
    let inverse := 1 / v.z
    let dx : Vec3 α := ⟨inverse, 0, -x * inverse⟩
    let dy : Vec3 α := ⟨0, inverse, -y * inverse⟩
    some {
      pixel := (c.fi * xd + c.pi, c.fj * yd + c.pj)
      byPoint :=
        (dx.scale (c.fi * (s + 2.0 * x * x * slope)) + dy.scale (c.fi * mixed),
          dx.scale (c.fj * mixed) + dy.scale (c.fj * (s + 2.0 * y * y * slope)))
      byIntrinsics := [(xd, 0), (0, yd), (1, 0), (0, 1)] ++
        (geometric r2 c.distortion.freeCount r2).map fun power =>
          (c.fi * x * power, c.fj * y * power) }

/-- The pixel of a vector under the matrix of a camera without distortion. -/
def projectByMatrix (k : Mat3 α) (v : Vec3 α) : Option (α × α) :=
  if v.z ≤ 0 then none
  else
    let image := k.mulVec v
    some (image.x / image.z, image.y / image.z)

end Camera
end SkyCamera
