import SkyCamera.Decimal.Text
import SkyCamera.Sky.Frames

/-!
Observing sites. Degrees and metres are checked when a site is made; longitudes are taken in both
customary ranges.
-/
namespace SkyCamera.Sky

structure Site (α : Type) where
  longitude : α
  latitude : α
  /-- Metres above the ellipsoid; stars are too far away for it to matter. -/
  altitude : α

inductive SiteCoordinate
  | longitude
  | latitude
  | altitude

/-- A coordinate outside its range, or not a finite number. -/
structure SiteFault (α : Type) where
  coordinate : SiteCoordinate
  value : α

variable {α : Type} [Scalar α]

def SiteCoordinate.range : SiteCoordinate → α × α
  | longitude => (-180.0, 360.0)
  | latitude => (-90.0, 90.0)
  | altitude => (-100.0, 5000.0)

def SiteCoordinate.check (c : SiteCoordinate) (value : α) : Except (SiteFault α) Unit :=
  if Scalar.IsFinite value ∧ c.range.1 ≤ value ∧ value ≤ c.range.2 then .ok ()
  else .error ⟨c, value⟩

/-- Longitude and latitude are given in degrees; of several faults the first is reported. -/
def Site.ofDegrees (longitude latitude altitude : α) : Except (SiteFault α) (Site α) := do
  SiteCoordinate.longitude.check longitude
  SiteCoordinate.latitude.check latitude
  SiteCoordinate.altitude.check altitude
  return ⟨Scalar.radians longitude, Scalar.radians latitude, altitude⟩

def Site.earthToHorizon (site : Site α) : Mat3 α := Sky.earthToHorizon site.longitude site.latitude

/-- From the celestial frame to the horizon of the site. -/
def Site.celestialToHorizon (site : Site α) (gmst : α) : Mat3 α :=
  site.earthToHorizon.mul (celestialToEarth gmst)

def SiteFault.message (fault : SiteFault Float) : String :=
  let (name, unit) :=
    match fault.coordinate with
    | .longitude => ("longitude", "deg")
    | .latitude => ("latitude", "deg")
    | .altitude => ("altitude", "m")
  let (low, high) : Float × Float := fault.coordinate.range
  name ++ " " ++ Decimal.plain fault.value ++ " " ++ unit ++ " outside [" ++ Decimal.plain low ++
    ", " ++ Decimal.plain high ++ "]"

end SkyCamera.Sky
