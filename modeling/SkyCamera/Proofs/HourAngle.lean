import SkyCamera.Proofs.KeptCalibration
import SkyCamera.Proofs.Rotations

/-!
The direction of a star above a site, in exact arithmetic. Turning a star from the celestial frame
to the Earth takes the sidereal time from its right ascension, and the horizon of a site sees what
is left beside its longitude. So a direction depends on the hour angle alone, and a calibration
does not see how the hour angle is shared out between stars, clock and site.
-/
namespace SkyCamera

namespace Sky

/-- The direction (South, East, Zenith) of declination `dec` at hour angle `h`, as seen from
latitude `lat`. -/
noncomputable def horizonDirection (lat dec h : ℝ) : Vec3 ℝ :=
  ⟨Real.sin lat * Real.cos dec * Real.cos h - Real.cos lat * Real.sin dec,
    -Real.cos dec * Real.sin h,
    Real.sin lat * Real.sin dec + Real.cos lat * Real.cos dec * Real.cos h⟩

/-- Sidereal time shifts the right ascension. -/
theorem celestialToEarth_ofSpherical (gmst ra dec : ℝ) :
    (celestialToEarth gmst).mulVec (ofSpherical 1 ra dec) = ofSpherical 1 (ra - gmst) dec := by
  simp only [celestialToEarth, ofSpherical, Mat3.mulVec, Vec3.dot, Scalar.sin_real,
    Scalar.cos_real, Real.cos_sub, Real.sin_sub, Vec3.mk.injEq]
  refine ⟨?_, ?_, ?_⟩
  · ring
  · ring
  · ring

/-- The horizon sees a direction under its hour angle, the longitude less the angle of the
direction. -/
theorem earthToHorizon_ofSpherical (lon lat theta dec : ℝ) :
    (earthToHorizon lon lat).mulVec (ofSpherical 1 theta dec) =
      horizonDirection lat dec (lon - theta) := by
  simp only [earthToHorizon, ofSpherical, horizonDirection, Mat3.mulVec, Vec3.dot,
    Scalar.sin_real, Scalar.cos_real, Real.cos_sub, Real.sin_sub, Vec3.mk.injEq]
  refine ⟨?_, ?_, ?_⟩
  · ring
  · ring
  · ring

theorem celestialToHorizon_ofSpherical (gmst lon lat ra dec : ℝ) :
    ((earthToHorizon lon lat).mul (celestialToEarth gmst)).mulVec (ofSpherical 1 ra dec) =
      horizonDirection lat dec (gmst + lon - ra) := by
  have hangle : lon - (ra - gmst) = gmst + lon - ra := by ring
  rw [Mat3.mulVec_mul, celestialToEarth_ofSpherical, earthToHorizon_ofSpherical, hangle]

/-- The two angles enter as those of two rotations, about the pole and about the East. -/
theorem norm_horizonDirection (lat dec h : ℝ) : (horizonDirection lat dec h).norm = 1 := by
  have hlat := Real.sin_sq_add_cos_sq lat
  have hdec := Real.sin_sq_add_cos_sq dec
  have hhour := Real.sin_sq_add_cos_sq h
  have hdot : (horizonDirection lat dec h).dot (horizonDirection lat dec h) = 1 := by
    simp only [horizonDirection, Vec3.dot]
    calc
      _ = (Real.sin lat ^ 2 + Real.cos lat ^ 2) *
            (Real.cos dec ^ 2 * Real.cos h ^ 2 + Real.sin dec ^ 2) +
          Real.cos dec ^ 2 * Real.sin h ^ 2 := by ring
      _ = Real.sin dec ^ 2 + Real.cos dec ^ 2 * (Real.sin h ^ 2 + Real.cos h ^ 2) := by
        rw [hlat]
        ring
      _ = 1 := by rw [hhour, mul_one, hdec]
  show Real.sqrt _ = 1
  rw [hdot, Real.sqrt_one]

noncomputable def Star.turned (a : ℝ) (star : Star ℝ) : Star ℝ :=
  { star with rightAscension := star.rightAscension + a }

end Sky

namespace Correspondence

noncomputable def turned (a : ℝ) (c : Correspondence ℝ) : Correspondence ℝ :=
  { c with star := c.star.turned a }

/-- Correspondences of one source, with stars of one magnitude in one direction above the horizon,
each in its own frame. -/
structure SeenAlike (toHorizon toHorizon' : Mat3 ℝ) (p p' : Correspondence ℝ) : Prop where
  source_eq : p'.source = p.source
  magnitude_eq : p'.star.magnitude = p.star.magnitude
  direction_eq : toHorizon'.mulVec p'.star.direction = toHorizon.mulVec p.star.direction

namespace SeenAlike

variable {toHorizon toHorizon' : Mat3 ℝ} {p p' : Correspondence ℝ}
  (h : SeenAlike toHorizon toHorizon' p p')
include h

theorem exclusion?_eq (a : Mat3 ℝ) (limit : ℝ) :
    p'.star.exclusion? (a.mul toHorizon') limit = p.star.exclusion? (a.mul toHorizon) limit := by
  simp only [Sky.Star.exclusion?, Sky.Star.IsBright, Mat3.mulVec_mul, h.magnitude_eq,
    h.direction_eq]

theorem keptStar_eq (index : Nat) : p'.keptStar toHorizon' index = p.keptStar toHorizon index := by
  simp only [keptStar, h.source_eq, h.direction_eq]

end SeenAlike

/-- Hour angles fix where stars are seen. -/
theorem seenAlike_of_hourAngle {gmst gmst' : ℝ} {site site' : Sky.Site ℝ} {star star' : Sky.Star ℝ}
    (source : Source ℝ) (hlatitude : site'.latitude = site.latitude)
    (hdeclination : star'.declination = star.declination)
    (hmagnitude : star'.magnitude = star.magnitude)
    (hhour : gmst' + site'.longitude - star'.rightAscension =
      gmst + site.longitude - star.rightAscension) :
    SeenAlike (site.celestialToHorizon gmst) (site'.celestialToHorizon gmst') ⟨source, star⟩
      ⟨source, star'⟩ := by
  refine ⟨rfl, hmagnitude, ?_⟩
  have hdirection (s : Sky.Site ℝ) (t : ℝ) (r : Sky.Star ℝ) :
      (s.celestialToHorizon t).mulVec r.direction =
        Sky.horizonDirection s.latitude r.declination (t + s.longitude - r.rightAscension) :=
    Sky.celestialToHorizon_ofSpherical t s.longitude s.latitude r.rightAscension r.declination
  rw [hdirection, hdirection, hlatitude, hdeclination, hhour]

end Correspondence

open Correspondence

/-- A calibration sees no more of stars, clock and site than directions above the horizon. -/
theorem ofCorrespondences_of_seenAlike (camera : Camera ℝ) (orientation : Quaternion ℝ)
    {pairs pairs' : List (Correspondence ℝ)} {gmst gmst' : ℝ} {site site' : Sky.Site ℝ}
    (h : List.Forall₂ (SeenAlike (site.celestialToHorizon gmst) (site'.celestialToHorizon gmst'))
      pairs pairs') (limit : ℝ) :
    StarFit.ofCorrespondences camera orientation pairs' gmst' site' limit =
      StarFit.ofCorrespondences camera orientation pairs gmst site limit := by
  let toHorizon := site.celestialToHorizon gmst
  let toHorizon' := site'.celestialToHorizon gmst'
  let toCamera := orientation.toMatrix.mul toHorizon
  let toCamera' := orientation.toMatrix.mul toHorizon'
  have hstars : keptStars pairs' toHorizon' toCamera' limit =
      keptStars pairs toHorizon toCamera limit := by
    unfold keptStars numberedKept
    rw [← filterMap_isKept, ← filterMap_isKept]
    refine filterMap_zipIdx_congr (fun p p' i hp => ?_) h 0
    dsimp only
    rw [hp.exclusion?_eq, hp.keptStar_eq]
  have hexcluded : (Visibility.of pairs' toCamera' limit).excluded =
      (Visibility.of pairs toCamera limit).excluded := by
    refine filterMap_zipIdx_congr (fun p p' i hp => ?_) h 0
    dsimp only
    rw [hp.exclusion?_eq]
  rw [StarFit.ofCorrespondences_eq, StarFit.ofCorrespondences_eq]
  dsimp only
  rw [hstars, hexcluded]

/-- Above a site a star stands where spherical astronomy puts it by its hour angle. A calibration
ends the same when an angle is added to sidereal time and all right ascensions, or is taken from
sidereal time and added to the longitude. -/
theorem hourAngle_invariant [Linear.HasPseudoInverse ℝ] :
    (∀ gmst lon lat ra dec : ℝ,
      let v := ((Sky.earthToHorizon lon lat).mul (Sky.celestialToEarth gmst)).mulVec
        (Sky.ofSpherical 1 ra dec)
      v.norm = 1 ∧ v = Sky.horizonDirection lat dec (gmst + lon - ra)) ∧
    ∀ (camera : Camera ℝ) (orientation : Quaternion ℝ) (pairs : List (Correspondence ℝ))
      (gmst : ℝ) (site : Sky.Site ℝ) (config : CalibrationConfig ℝ) (a : ℝ),
      calibrate camera orientation (pairs.map (turned a)) (gmst + a) site config =
          calibrate camera orientation pairs gmst site config ∧
        calibrate camera orientation pairs (gmst - a)
            { site with longitude := site.longitude + a } config =
          calibrate camera orientation pairs gmst site config := by
  refine ⟨fun gmst lon lat ra dec => ?_, fun camera orientation pairs gmst site config a => ?_⟩
  · intro v
    have hv : v = Sky.horizonDirection lat dec (gmst + lon - ra) :=
      Sky.celestialToHorizon_ofSpherical gmst lon lat ra dec
    exact ⟨hv ▸ Sky.norm_horizonDirection lat dec (gmst + lon - ra), hv⟩
  · simp only [calibrate_eq]
    constructor
    · refine congrArg (· >>= _) (ofCorrespondences_of_seenAlike camera orientation ?_ _)
      refine List.forall₂_map_right_iff.mpr (List.forall₂_same.mpr fun c _ => ?_)
      exact seenAlike_of_hourAngle c.source rfl rfl rfl (by simp only [Sky.Star.turned]; ring)
    · refine congrArg (· >>= _) (ofCorrespondences_of_seenAlike camera orientation ?_ _)
      refine List.forall₂_same.mpr fun c _ => ?_
      exact seenAlike_of_hourAngle c.source rfl rfl rfl (by ring)

end SkyCamera
