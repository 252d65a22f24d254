import SkyCamera.Geometry.Vec3

/-!
Quaternions, and rotations of unit quaternions.
-/
namespace SkyCamera

structure Quaternion (α : Type) where
  w : α
  x : α
  y : α
  z : α

namespace Quaternion

variable {α : Type} [Scalar α]

def identity : Quaternion α := ⟨1, 0, 0, 0⟩

def norm (q : Quaternion α) : α := Scalar.sqrt (q.w * q.w + q.x * q.x + q.y * q.y + q.z * q.z)

/-- The quaternion over its norm, which is no number if the norm is zero. -/
def normalize (q : Quaternion α) : Quaternion α :=
  ⟨q.w / q.norm, q.x / q.norm, q.y / q.norm, q.z / q.norm⟩

def toList (q : Quaternion α) : List α := [q.w, q.x, q.y, q.z]

/-- The rotation by a unit quaternion. -/
def toMatrix (q : Quaternion α) : Mat3 α where
  row0 := ⟨q.w * q.w + q.x * q.x - q.y * q.y - q.z * q.z, 2.0 * (q.x * q.y) - 2.0 * (q.w * q.z),
    2.0 * (q.w * q.y) + 2.0 * (q.x * q.z)⟩
  row1 := ⟨2.0 * (q.w * q.z) + 2.0 * (q.x * q.y), q.w * q.w - q.x * q.x + q.y * q.y - q.z * q.z,
    2.0 * (q.y * q.z) - 2.0 * (q.w * q.x)⟩
  row2 := ⟨2.0 * (q.x * q.z) - 2.0 * (q.w * q.y), 2.0 * (q.w * q.x) + 2.0 * (q.y * q.z),
    q.w * q.w - q.x * q.x - q.y * q.y + q.z * q.z⟩

/-- A quaternion of a rotation. Its largest component is found from a square root and the others
from differences and sums of entries; `w` is preferred where the trace is above zero. -/
def ofMatrix (a : Mat3 α) : Quaternion α :=
  let ⟨⟨m00, m01, m02⟩, ⟨m10, m11, m12⟩, ⟨m20, m21, m22⟩⟩ := a
  let trace := m00 + m11 + m22
  if 0 < trace then
    let s := 2.0 * Scalar.sqrt (trace + 1)
    ⟨s / 4.0, (m21 - m12) / s, (m02 - m20) / s, (m10 - m01) / s⟩
  else if m11 < m00 ∧ m22 < m00 then
    let s := 2.0 * Scalar.sqrt (1 + m00 - m11 - m22)
    ⟨(m21 - m12) / s, s / 4.0, (m01 + m10) / s, (m02 + m20) / s⟩
  else if m22 < m11 then
    let s := 2.0 * Scalar.sqrt (1 + m11 - m00 - m22)
    ⟨(m02 - m20) / s, (m01 + m10) / s, s / 4.0, (m12 + m21) / s⟩
  else
    let s := 2.0 * Scalar.sqrt (1 + m22 - m00 - m11)
    ⟨(m10 - m01) / s, (m02 + m20) / s, (m12 + m21) / s, s / 4.0⟩

end Quaternion
end SkyCamera
