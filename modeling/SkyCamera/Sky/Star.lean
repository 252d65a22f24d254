import SkyCamera.Sky.Frames

/-!
Stars of a reference list, in the celestial frame at the epoch of observation.
-/
namespace SkyCamera.Sky

structure Star (α : Type) where
  id : UInt64
  rightAscension : α
  declination : α
  /-- Lower is brighter. -/
  magnitude : α

namespace Star

variable {α : Type} [Scalar α]

def ofDegrees (id : UInt64) (ra dec magnitude : α) : Star α :=
  ⟨id, Scalar.radians ra, Scalar.radians dec, magnitude⟩

/-- The unit vector to the star. -/
def direction (star : Star α) : Vec3 α := ofSpherical 1 star.rightAscension star.declination

/-- At least as bright as the limit. -/
def IsBright (limit : α) (star : Star α) : Prop := star.magnitude ≤ limit

instance (limit : α) (star : Star α) : Decidable (star.IsBright limit) := by
  unfold IsBright; infer_instance

end Star
end SkyCamera.Sky
