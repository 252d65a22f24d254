import SkyCamera.Scalar

/-!
Vectors and matrices of space. A rotation is a matrix that is applied to column vectors.
-/
namespace SkyCamera

structure Vec3 (α : Type) where
  x : α
  y : α
  z : α

namespace Vec3

variable {α : Type} [Scalar α]

instance : Add (Vec3 α) := ⟨fun u v => ⟨u.x + v.x, u.y + v.y, u.z + v.z⟩⟩

theorem add_def (u v : Vec3 α) : u + v = ⟨u.x + v.x, u.y + v.y, u.z + v.z⟩ := rfl

def scale (v : Vec3 α) (s : α) : Vec3 α := ⟨v.x * s, v.y * s, v.z * s⟩

def dot (u v : Vec3 α) : α := u.x * v.x + u.y * v.y + u.z * v.z

def cross (u v : Vec3 α) : Vec3 α :=
  ⟨u.y * v.z - u.z * v.y, u.z * v.x - u.x * v.z, u.x * v.y - u.y * v.x⟩

def norm (v : Vec3 α) : α := Scalar.sqrt (v.dot v)

def normalize (v : Vec3 α) : Vec3 α := ⟨v.x / v.norm, v.y / v.norm, v.z / v.norm⟩

end Vec3

structure Mat3 (α : Type) where
  row0 : Vec3 α
  row1 : Vec3 α
  row2 : Vec3 α

namespace Mat3

variable {α : Type} [Scalar α]

def transpose (a : Mat3 α) : Mat3 α where
  row0 := ⟨a.row0.x, a.row1.x, a.row2.x⟩
  row1 := ⟨a.row0.y, a.row1.y, a.row2.y⟩
  row2 := ⟨a.row0.z, a.row1.z, a.row2.z⟩

def mulVec (a : Mat3 α) (v : Vec3 α) : Vec3 α := ⟨a.row0.dot v, a.row1.dot v, a.row2.dot v⟩

def mul (a b : Mat3 α) : Mat3 α :=
  ⟨b.transpose.mulVec a.row0, b.transpose.mulVec a.row1, b.transpose.mulVec a.row2⟩

/-- The entries row after row. -/
def toList (a : Mat3 α) : List α :=
  [a.row0.x, a.row0.y, a.row0.z, a.row1.x, a.row1.y, a.row1.z, a.row2.x, a.row2.y, a.row2.z]

end Mat3
end SkyCamera
