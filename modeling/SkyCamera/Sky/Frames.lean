import SkyCamera.Geometry.Quaternion

/-!
The frames between a star and the camera: the celestial frame of a star list, the frame fixed to
the Earth, the horizon frame of a site (South, East, Zenith) and the camera frame (right, down,
along the boresight). All angles are in radians.
-/
namespace SkyCamera.Sky

variable {α : Type} [Scalar α]

/-- The vector of length `r` at longitude `theta` and latitude `phi`. -/
def ofSpherical (r theta phi : α) : Vec3 α :=
  ⟨r * Scalar.cos phi * Scalar.cos theta, r * Scalar.cos phi * Scalar.sin theta,
    r * Scalar.sin phi⟩

/-- Length, longitude in `[0, 2π)` and latitude; all zero for the zero vector. -/
def toSpherical (v : Vec3 α) : α × α × α :=
  let r := v.norm
  if Scalar.IsZero r then (0, 0, 0)
  else
    (r, Scalar.modulo (Scalar.atan2 v.y v.x) Scalar.tau,
      Scalar.asin (Scalar.clampUnit (v.z / r)))

/-- An azimuth counted east of south, counted east of north. -/
def eastOfNorth (theta : α) : α := Scalar.modulo (Scalar.pi - theta) Scalar.tau

/-- From the celestial frame to the Earth, turned by the sidereal time of Greenwich. -/
def celestialToEarth (gmst : α) : Mat3 α :=
  let (s, c) := (Scalar.sin gmst, Scalar.cos gmst)
  ⟨⟨c, s, 0⟩, ⟨-s, c, 0⟩, ⟨0, 0, 1⟩⟩

/-- From the Earth to the horizon of a site at longitude `lon` (east positive), latitude `lat`. -/
def earthToHorizon (lon lat : α) : Mat3 α :=
  let (slon, clon) := (Scalar.sin lon, Scalar.cos lon)
  let (slat, clat) := (Scalar.sin lat, Scalar.cos lat)
  ⟨⟨slat * clon, slat * slon, -clat⟩, ⟨-slon, clon, 0⟩, ⟨clat * clon, clat * slon, slat⟩⟩

/-- From the horizon to a camera that points at azimuth `az` (east of north) and elevation `el`
and is rolled about its boresight. Without roll, the image runs right along increasing azimuth
and down away from the zenith. -/
def horizonToCamera (az el roll : α) : Mat3 α :=
  let (saz, caz) := (Scalar.sin az, Scalar.cos az)
  let (sel, cel) := (Scalar.sin el, Scalar.cos el)
  let z : Vec3 α := ⟨-cel * caz, cel * saz, sel⟩
  let x : Vec3 α := ⟨saz, caz, 0⟩
  let (sr, cr) := (Scalar.sin roll, Scalar.cos roll)
  Mat3.mul ⟨⟨cr, sr, 0⟩, ⟨-sr, cr, 0⟩, ⟨0, 0, 1⟩⟩ ⟨x, z.cross x, z⟩

/-- The orientation of a camera with that pointing. -/
def orientation (az el roll : α) : Quaternion α := .ofMatrix (horizonToCamera az el roll)

/-- Azimuth, elevation and roll of an orientation. The roll is the angle from the image axis of the
same pointing without roll. -/
def pointing (q : Quaternion α) : α × α × α :=
  let m := q.toMatrix
  let boresight := m.row2
  let el := Scalar.asin (Scalar.clampUnit boresight.z)
  let az := Scalar.modulo (Scalar.atan2 boresight.y (-boresight.x)) Scalar.tau
  let level := horizonToCamera az el 0
  (az, el, Scalar.atan2 (m.row0.dot level.row1) (m.row0.dot level.row0))

end SkyCamera.Sky
