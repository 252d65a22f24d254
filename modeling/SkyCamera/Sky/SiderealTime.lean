import SkyCamera.Scalar
import SkyCamera.Binary64

/-!
From an epoch in microseconds after 1970-01-01T00:00:00Z to Julian dates and sidereal time. UTC is
taken for UT1.
-/
namespace SkyCamera.Sky

variable {α : Type} [Scalar α]

/-- Leap seconds are not counted. -/
def julianDate (epoch : Int64) : α := 2440587.5 + (epoch.toInt : α) / 86400000000.0

/-- Greenwich mean sidereal time in hours, in `[0, 24)`, from the centuries since J2000. -/
def gmstHours (epoch : Int64) : α :=
  let t : α := (julianDate epoch - 2451545.0) / 36525.0
  let seconds := 67310.54841 + (876600.0 * 3600.0 + 8640184.812866) * t + 0.093104 * t * t -
    6.2e-6 * t * t * t
  Scalar.modulo seconds 86400.0 / 86400.0 * 24.0

/-- Greenwich mean sidereal time in radians. -/
def gmst (epoch : Int64) : α := gmstHours epoch / 24.0 * Scalar.tau

/-- Local sidereal time at a longitude, which is counted to the east. -/
def localSiderealTime (gmst longitude : α) : α := Scalar.modulo (gmst + longitude) Scalar.tau

/-- Whole hours, whole minutes and seconds, all counted from the hour below. Hours beyond the
range of 32 bits are its end, and what is no number is zero. -/
def hoursMinutesSeconds (hours : Float) : Int32 × Int32 × Float :=
  let h := hours.floor
  let minutes := (hours - h) * 60.0
  let m := minutes.floor
  (h.toInt32, m.toInt32, (minutes - m) * 60.0)

end SkyCamera.Sky
