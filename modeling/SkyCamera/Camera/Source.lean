import SkyCamera.Scalar

/-!
Stars as they are measured in an image. Pixels are counted from the corner, to the right and down.
-/
namespace SkyCamera

/-- A symmetric matrix is meant, but any four entries can be given. -/
structure Covariance2 (α : Type) where
  xx : α
  xy : α
  yx : α
  yy : α

def Covariance2.toList {α : Type} (c : Covariance2 α) : List α := [c.xx, c.xy, c.yx, c.yy]

structure Source (α : Type) where
  x : α
  y : α
  /-- Higher is brighter, on a scale of the image. -/
  brightness : Option α := none
  covariance : Option (Covariance2 α) := none

/-- The squared distance to a pixel. -/
def Source.distanceSquared {α : Type} [Scalar α] (source : Source α) (i j : α) : α :=
  let di := source.x - i
  let dj := source.y - j
  di * di + dj * dj

end SkyCamera
