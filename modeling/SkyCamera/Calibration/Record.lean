import SkyCamera.Calibration.Calibrate

/-!
Records of calibrations: the fitted camera and orientation of one image, with the statistics that
are needed to judge them later.
-/
namespace SkyCamera

structure CalibrationRecord (α : Type) where
  /-- Microseconds after 1970-01-01T00:00:00Z. -/
  epoch : Int64
  site : Sky.Site α
  width : UInt32
  height : UInt32
  fi : α
  fj : α
  pi : α
  pj : α
  /-- All zero without distortion. -/
  k1 : α
  k2 : α
  k3 : α
  /-- The number of free coefficients; zero means no distortion. -/
  radialTerms : UInt8
  quaternion : Quaternion α
  numStars : UInt32
  rms : α
  chi2 : α
  reducedChi2 : Option α
  names : List String
  standardErrors : List α

/-- The same record with its numbers written in another way. -/
def CalibrationRecord.map {α β : Type} (f : α → β) (r : CalibrationRecord α) :
    CalibrationRecord β where
  epoch := r.epoch
  site := ⟨f r.site.longitude, f r.site.latitude, f r.site.altitude⟩
  width := r.width
  height := r.height
  fi := f r.fi
  fj := f r.fj
  pi := f r.pi
  pj := f r.pj
  k1 := f r.k1
  k2 := f r.k2
  k3 := f r.k3
  radialTerms := r.radialTerms
  quaternion := ⟨f r.quaternion.w, f r.quaternion.x, f r.quaternion.y, f r.quaternion.z⟩
  numStars := r.numStars
  rms := f r.rms
  chi2 := f r.chi2
  reducedChi2 := r.reducedChi2.map f
  names := r.names
  standardErrors := r.standardErrors.map f

namespace CalibrationRecord

variable {α : Type} [Scalar α]

def ofCalibration (c : Calibration α) (epoch : Int64) (site : Sky.Site α) : CalibrationRecord α :=
  let camera := c.camera
  let (k1, k2, k3, terms) : α × α × α × Nat :=
    match camera.distortion with
    | .none => (0, 0, 0, 0)
    | .radial d => (d.k1, d.k2, d.k3, d.freeCount)
  { epoch, site, width := camera.width, height := camera.height
    fi := camera.fi, fj := camera.fj, pi := camera.pi, pj := camera.pj, k1, k2, k3
    radialTerms := terms.toUInt8
    quaternion := c.orientation
    numStars := c.numUsed.toUInt32
    rms := c.rmsAfter
    chi2 := c.solver.chi2
    reducedChi2 := c.solver.reducedChi2
    names := c.start.names
    standardErrors := (c.standardErrors.map (·.toList)).getD [] }

def camera (r : CalibrationRecord α) : Camera α where
  fi := r.fi
  fj := r.fj
  pi := r.pi
  pj := r.pj
  width := r.width
  height := r.height
  distortion :=
    if r.radialTerms = 0 then .none else .radial ⟨r.k1, r.k2, r.k3, r.radialTerms.toNat⟩

def orientation (r : CalibrationRecord α) : Quaternion α := r.quaternion.normalize

end CalibrationRecord

/-- What is said when a record has been read. -/
def CalibrationRecord.log (r : CalibrationRecord Float) : List LogLine :=
  [⟨.info, s!"Loaded calibration: {r.width}x{r.height} camera, {r.numStars} stars, RMS " ++
    Decimal.fixed 3 r.rms ++ " px"⟩]

end SkyCamera
