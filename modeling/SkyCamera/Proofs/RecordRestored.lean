import SkyCamera.Calibration.Record
import SkyCamera.Proofs.ZenithStars

/-!
What a record gives back of the calibration that it was made of. A distortion is kept as three
coefficients and the number of those that are free, where zero stands for no distortion; so
coefficients none of which is free are lost, and the rebuilt camera projects without them.
-/
namespace SkyCamera

open Linear

namespace Distortion

variable {α : Type} {d : Distortion α}

/-- Whether there are coefficients and none of them is free. -/
def IsFixed : Distortion α → Prop
  | .none => False
  | .radial d => d.terms = 0

def recorded : Distortion α → Distortion α
  | .none => .none
  | .radial d => if d.terms = 0 then .none else .radial { d with terms := d.freeCount }

theorem recorded_of_isFixed (hd : d.IsFixed) : d.recorded = .none := by
  cases d with
  | none => cases hd
  | radial d => exact if_pos hd

theorem freeCount_of_isFixed (hd : d.IsFixed) : d.freeCount = 0 := by
  cases d with
  | none => cases hd
  | radial d => exact Nat.min_eq_zero_iff.mpr (Or.inl hd)

/-- A distortion with free terms is what its record says. -/
theorem recorded_of_not_isFixed (hd : ¬ d.IsFixed) :
    d.recorded.freeCount = d.freeCount ∧
      ∀ [Scalar α] (x y : α), d.recorded.distort x y = d.distort x y := by
  cases d with
  | none => exact ⟨rfl, fun x y => rfl⟩
  | radial d =>
    have hrecorded : (radial d).recorded = .radial { d with terms := d.freeCount } := if_neg hd
    rw [hrecorded]
    exact ⟨Nat.min_eq_left d.freeCount_le_three, fun x y => rfl⟩

theorem freeCount_recorded (d : Distortion α) : d.recorded.freeCount = d.freeCount := by
  by_cases hd : d.IsFixed
  · rw [recorded_of_isFixed hd, freeCount_of_isFixed hd]
    rfl
  · exact (recorded_of_not_isFixed hd).1

theorem isFixed_withFree (d : Distortion α) (ks : List α) :
    (d.withFree ks).IsFixed ↔ d.IsFixed := by
  cases d with
  | none => rfl
  | radial d => rfl

/-- Fixed coefficients stay as they are. -/
theorem withFree_of_isFixed (hd : d.IsFixed) (ks : List α) : d.withFree ks = d := by
  cases d with
  | none => cases hd
  | radial d =>
    have hzero : d.freeCount = 0 := freeCount_of_isFixed hd
    simp [withFree, RadialDistortion.withFree, hzero]

end Distortion

namespace Camera

variable {α : Type} (c : Camera α) (ps : List α)

theorem isFixed_withParameters :
    (c.withParameters ps).distortion.IsFixed ↔ c.distortion.IsFixed := by
  unfold withParameters
  split
  · exact c.distortion.isFixed_withFree _
  · rfl

theorem distortion_withParameters (hc : c.distortion.IsFixed) :
    (c.withParameters ps).distortion = c.distortion := by
  unfold withParameters
  split
  · exact Distortion.withFree_of_isFixed hc _
  · rfl

theorem project_withDistortion [Scalar α] {d : Distortion α}
    (hd : ∀ x y, d.distort x y = c.distortion.distort x y) (v : Vec3 α) :
    ({ c with distortion := d } : Camera α).project v = c.project v := by
  simp only [project, tangentToPixel, hd]

end Camera

namespace CalibrationRecord

variable {α : Type} [Scalar α]

theorem camera_ofCalibration (c : Calibration α) (epoch : Int64) (place : Sky.Site α) :
    (ofCalibration c epoch place).camera =
      { c.camera with distortion := c.camera.distortion.recorded } := by
  cases hdistortion : c.camera.distortion with
  | none => simp [ofCalibration, camera, hdistortion, Distortion.recorded]
  | radial d =>
    have hthree := d.freeCount_le_three
    have hback : d.freeCount.toUInt8.toNat = d.freeCount := by
      rw [Nat.toUInt8, UInt8.toNat_ofNat']
      omega
    have hzero : d.freeCount.toUInt8 = 0 ↔ d.terms = 0 := by
      rw [← UInt8.toNat_inj, hback]
      simp only [RadialDistortion.freeCount]
      show min d.terms 3 = 0 ↔ _
      omega
    simp only [ofCalibration, camera, hdistortion, Distortion.recorded, hzero, hback]

/-- How much of the camera of a calibration its record gives back, where `camera` is the one that
the calibration started from. -/
structure Restores (r : CalibrationRecord α) (c : Calibration α) (camera : Camera α) : Prop where
  parameterCount_eq : r.camera.parameterCount = c.camera.parameterCount
  project_eq : ¬ camera.distortion.IsFixed → ∀ v, r.camera.project v = c.camera.project v
  camera_of_isFixed : camera.distortion.IsFixed → r.camera = { c.camera with distortion := .none }

/-- In exact arithmetic the orientation is given back too, and nothing is lost with coefficients
that are zero. -/
structure RestoresExactly (r : CalibrationRecord ℝ) (c : Calibration ℝ) (camera : Camera ℝ) :
    Prop extends r.Restores c camera where
  project_eq_of_isZero : (∀ d, camera.distortion = .radial d → d.terms = 0 → d.IsZero) →
    ∀ v, r.camera.project v = c.camera.project v
  orientation_eq : r.orientation = c.orientation

section Calibrated

variable [HasPseudoInverse α] {camera : Camera α} {orientation : Quaternion α}
  {pairs : List (Correspondence α)} {gmst : α} {site : Sky.Site α} {config : CalibrationConfig α}
  {c : Calibration α}

theorem camera_eq_withParameters
    (h : calibrate camera orientation pairs gmst site config = .ok c) :
    c.camera = camera.withParameters (c.solver.parameters.toList.take c.start.intrinsicCount) := by
  obtain ⟨hstart, -⟩ := calibrate_eq_ok h
  obtain ⟨hcamera, -⟩ := StarFit.camera_of_ofCorrespondences hstart
  rw [← hcamera]
  rfl

theorem restores_ofCalibration
    (h : calibrate camera orientation pairs gmst site config = .ok c) (epoch : Int64)
    (place : Sky.Site α) : (ofCalibration c epoch place).Restores c camera := by
  have hfixed : c.camera.distortion.IsFixed ↔ camera.distortion.IsFixed := by
    rw [camera_eq_withParameters h]
    exact camera.isFixed_withParameters _
  have hcamera := camera_ofCalibration c epoch place
  refine ⟨?_, fun hfree v => ?_, fun hnone => ?_⟩
  · rw [hcamera]
    exact congrArg (4 + ·) (Distortion.freeCount_recorded _)
  · obtain ⟨-, hdistort⟩ := Distortion.recorded_of_not_isFixed (mt hfixed.mp hfree)
    rw [hcamera]
    exact c.camera.project_withDistortion hdistort v
  · rw [hcamera, Distortion.recorded_of_isFixed (hfixed.mpr hnone)]

end Calibrated

section Exact

variable {camera : Camera ℝ} {orientation : Quaternion ℝ} {pairs : List (Correspondence ℝ)}
  {gmst : ℝ} {site : Sky.Site ℝ} {config : CalibrationConfig ℝ} {c : Calibration ℝ}

/-- A record gives the camera back unless its distortion is fixed and not zero. -/
theorem restoresExactly_ofCalibration [HasPseudoInverse ℝ]
    (h : calibrate camera orientation pairs gmst site config = .ok c) (epoch : Int64)
    (place : Sky.Site ℝ) : (ofCalibration c epoch place).RestoresExactly c camera := by
  have hrestores := restores_ofCalibration h epoch place
  refine ⟨hrestores, fun hzero v => ?_, ?_⟩
  · by_cases hfixed : camera.distortion.IsFixed
    · have hdistortion : c.camera.distortion = camera.distortion := by
        rw [camera_eq_withParameters h]
        exact camera.distortion_withParameters _ hfixed
      have hplain (x y : ℝ) : Distortion.none.distort x y = c.camera.distortion.distort x y := by
        rw [hdistortion]
        cases hd : camera.distortion with
        | none => rfl
        | radial d =>
          rw [hd] at hfixed
          exact (RadialDistortion.distort_of_isZero (hzero d hd hfixed) x y).symm
      rw [hrestores.camera_of_isFixed hfixed]
      exact c.camera.project_withDistortion hplain v
    · exact hrestores.project_eq hfixed v
  · obtain ⟨covariance, hc⟩ := Calibration.exists_fitted h
    exact Quaternion.normalize_of_norm_eq_one hc.norm_orientation

/-- A record gives back the camera of its calibration unless the coefficients of the distortion are
fixed from the start, whether it is read at once or from an archive. -/
theorem gives_back_camera {Archive : Type → Type}
    (save : ∀ {α : Type}, CalibrationRecord α → Archive α)
    (load : ∀ {α : Type}, Archive α → Option (CalibrationRecord α))
    (hload : ∀ {α : Type} (r : CalibrationRecord α), load (save r) = some r) (epoch : Int64) :
    (∀ {α : Type} [Scalar α] [HasPseudoInverse α] (camera : Camera α) (orientation : Quaternion α)
        (pairs : List (Correspondence α)) (gmst : α) (site : Sky.Site α)
        (config : CalibrationConfig α) (place : Sky.Site α) (c : Calibration α),
      calibrate camera orientation pairs gmst site config = .ok c →
      (ofCalibration c epoch place).Restores c camera ∧
        ∃ r, load (save (ofCalibration c epoch place)) = some r ∧ r.Restores c camera) ∧
    ∀ [HasPseudoInverse ℝ] (camera : Camera ℝ) (orientation : Quaternion ℝ)
        (pairs : List (Correspondence ℝ)) (gmst : ℝ) (site : Sky.Site ℝ)
        (config : CalibrationConfig ℝ) (place : Sky.Site ℝ) (c : Calibration ℝ),
      calibrate camera orientation pairs gmst site config = .ok c →
      (ofCalibration c epoch place).RestoresExactly c camera ∧
        ∃ r, load (save (ofCalibration c epoch place)) = some r ∧ r.RestoresExactly c camera := by
  constructor
  · intro α _ _ camera orientation pairs gmst site config place c h
    have hrestores := restores_ofCalibration h epoch place
    exact ⟨hrestores, _, hload _, hrestores⟩
  · intro _ camera orientation pairs gmst site config place c h
    have hrestores := restoresExactly_ofCalibration h epoch place
    exact ⟨hrestores, _, hload _, hrestores⟩

noncomputable def manyTerms : Camera ℝ := ⟨1, 1, 0, 0, 640, 480, .radial ⟨1, 0, 0, 7⟩⟩

theorem gives_back_camera_manyTerms :
    ∃ c, calibrate manyTerms .identity (zenithStars 6 1) 0 ⟨0, 0, 0⟩ zenithConfig = .ok c ∧
      (∀ {α : Type} (r : CalibrationRecord α), some (id r) = some r) ∧
      (ofCalibration c 0 ⟨0, 0, 0⟩).Restores c manyTerms ∧
      ∃ r, some (id (ofCalibration c 0 ⟨0, 0, 0⟩)) = some r ∧ r.RestoresExactly c manyTerms := by
  obtain ⟨c, hc, -⟩ := exists_calibrate_zenithStars manyTerms 6 1 zenithConfig rfl one_pos
    (by decide)
  have hload {α : Type} (r : CalibrationRecord α) : some (id r) = some r := rfl
  obtain ⟨hrestores, hrestoresExactly⟩ := gives_back_camera id some hload 0
  obtain ⟨hdirectly, -⟩ := hrestores manyTerms .identity (zenithStars 6 1) 0 ⟨0, 0, 0⟩ zenithConfig
    ⟨0, 0, 0⟩ c hc
  obtain ⟨-, hloaded⟩ := hrestoresExactly manyTerms .identity (zenithStars 6 1) 0 ⟨0, 0, 0⟩
    zenithConfig ⟨0, 0, 0⟩ c hc
  exact ⟨c, hc, hload, hdirectly, hloaded⟩

noncomputable def fixedTerms : Camera ℝ := ⟨1, 1, 0, 0, 640, 480, .radial ⟨1, 0, 0, 0⟩⟩

/-- The rebuilt camera has lost the distortion. -/
theorem project_ne_of_fixedTerms :
    ∃ c, calibrate fixedTerms .identity (zenithStars 4 1) 0 ⟨0, 0, 0⟩
        { zenithConfig with maxIterations := 0 } = .ok c ∧
      c.camera.project ⟨1, 0, 1⟩ = some (2, 0) ∧
      (ofCalibration c 0 ⟨0, 0, 0⟩).camera.project ⟨1, 0, 1⟩ = some (1, 0) := by
  obtain ⟨c, hc, hstart⟩ := exists_calibrate_zenithStars fixedTerms 4 1
    { zenithConfig with maxIterations := 0 } rfl one_pos (by decide)
  have hcamera : c.camera = fixedTerms := camera_of_zenithStars hc hstart rfl
  refine ⟨c, hc, ?_, ?_⟩
  · rw [hcamera]
    simp [Camera.project, Camera.tangentToPixel, fixedTerms, Distortion.distort,
      RadialDistortion.distort, RadialDistortion.scale]
    norm_num
  · rw [camera_ofCalibration, hcamera]
    simp [Camera.project, Camera.tangentToPixel, fixedTerms, Distortion.distort,
      Distortion.recorded]

end Exact

section Labels

variable {c : Calibration α} (epoch : Int64) (place : Sky.Site α)

theorem length_names_ofCalibration (c : Calibration α) :
    (ofCalibration c epoch place).names.length = c.start.parameterCount := by
  show c.start.names.length = _
  rw [StarFit.names, List.length_append, Camera.length_parameterNames]
  rfl

theorem standardErrors_of_covariance
    {estimate : Mat α c.start.parameterCount c.start.parameterCount}
    (hestimate : c.covariance = some estimate) :
    (ofCalibration c epoch place).standardErrors = (Linear.standardErrors estimate).toList := by
  simp only [ofCalibration, Calibration.standardErrors, hestimate, Option.map_some,
    Option.getD_some]

theorem standardErrors_of_none (hnone : c.covariance = none) :
    (ofCalibration c epoch place).standardErrors = [] := by
  simp only [ofCalibration, Calibration.standardErrors, hnone, Option.map_none, Option.getD_none]

variable [HasPseudoInverse α] {camera : Camera α} {orientation : Quaternion α}
  {pairs : List (Correspondence α)} {gmst : α} {site : Sky.Site α} {config : CalibrationConfig α}

/-- The standard errors of a record are those of the parameters named beside them, or there are
none; the names are always there. -/
structure LabelsErrors (r : CalibrationRecord α) (c : Calibration α) (camera : Camera α) :
    Prop where
  names_eq : r.names = camera.parameterNames ++ ["qw", "qx", "qy", "qz"]
  length_names : r.names.length = c.solver.parameters.toList.length
  enough_data : r.names.length ≤ 2 * c.numUsed
  errors_of_lt : r.names.length < 2 * c.numUsed → ∃ estimate,
    c.solver.parameterCovariance = .ok estimate ∧
      r.standardErrors = (Linear.standardErrors estimate).toList
  errors_of_eq : r.names.length = 2 * c.numUsed → r.standardErrors = []
  same_length_iff : r.standardErrors.length = r.names.length ↔ r.names.length < 2 * c.numUsed

/-- A record labels its standard errors, and keeps the names where there are no degrees of
freedom and so no standard errors. -/
theorem labels_errors (h : calibrate camera orientation pairs gmst site config = .ok c) :
    (ofCalibration c epoch place).LabelsErrors c camera := by
  obtain ⟨hstart, -⟩ := calibrate_eq_ok h
  obtain ⟨hcamera, -⟩ := StarFit.camera_of_ofCorrespondences hstart
  obtain ⟨covariance, hc⟩ := Calibration.exists_fittedUnder h
  have hlength := length_names_ofCalibration epoch place c
  have hdata : c.start.dataCount = 2 * c.numUsed := Nat.mul_comm _ _
  have hle := hc.enough_data
  have hdof : c.solver.dof = c.start.dataCount - c.start.parameterCount := rfl
  have hsome (hless : (ofCalibration c epoch place).names.length < 2 * c.numUsed) :=
    hc.covariance_of_dof (by omega)
  have hnone (hsame : (ofCalibration c epoch place).names.length = 2 * c.numUsed) :
      (ofCalibration c epoch place).standardErrors = [] :=
    standardErrors_of_none epoch place (hc.covariance_eq_none (by omega))
  refine ⟨congrArg (fun camera => camera.parameterNames ++ _) hcamera,
    hlength.trans (Vector.length_toList ..).symm, by omega, fun hless => ?_, hnone, ?_, ?_⟩
  · obtain ⟨estimate, hestimate, hcovariance⟩ := hsome hless
    exact ⟨estimate, hestimate, standardErrors_of_covariance epoch place hcovariance⟩
  · intro hsame
    refine Nat.lt_of_le_of_ne (by omega) fun hboundary => ?_
    rw [hnone hboundary, hlength] at hsame
    exact absurd hsame.symm (Nat.succ_ne_zero _)
  · intro hless
    obtain ⟨estimate, -, hcovariance⟩ := hsome hless
    rw [standardErrors_of_covariance epoch place hcovariance, Vector.length_toList, hlength]

end Labels

theorem labels_errors_zenithStars :
    (∃ c, calibrate plainCamera .identity (zenithStars 5 1) 0 ⟨0, 0, 0⟩ zenithConfig = .ok c ∧
        c.numUsed = 5 ∧ (ofCalibration c 0 ⟨0, 0, 0⟩).LabelsErrors c plainCamera) ∧
      ∃ c, calibrate plainCamera .identity (zenithStars 4 1) 0 ⟨0, 0, 0⟩ zenithConfig = .ok c ∧
        c.numUsed = 4 ∧ (ofCalibration c 0 ⟨0, 0, 0⟩).LabelsErrors c plainCamera := by
  obtain ⟨c, hc, hstart⟩ := exists_calibrate_zenithStars plainCamera 5 1 zenithConfig rfl one_pos
    (by decide)
  obtain ⟨d, hd, hstart'⟩ := exists_calibrate_zenithStars plainCamera 4 1 zenithConfig rfl one_pos
    (by decide)
  refine ⟨⟨c, hc, ?_, labels_errors 0 ⟨0, 0, 0⟩ hc⟩, d, hd, ?_, labels_errors 0 ⟨0, 0, 0⟩ hd⟩
  · rw [Calibration.numUsed, hstart, StarFit.size_ofZenith]
  · rw [Calibration.numUsed, hstart', StarFit.size_ofZenith]

/-- Four stars are as many data as parameters: there are names and no standard errors. -/
theorem names_ne_nil_of_noDegreesOfFreedom :
    ∃ c, calibrate plainCamera .identity (zenithStars 4 1) 0 ⟨0, 0, 0⟩
        { zenithConfig with maxIterations := 0 } = .ok c ∧
      2 * c.numUsed = c.solver.parameters.toList.length ∧
      (ofCalibration c 0 ⟨0, 0, 0⟩).standardErrors = [] ∧
      (ofCalibration c 0 ⟨0, 0, 0⟩).names =
        ["fi", "fj", "pi", "pj", "qw", "qx", "qy", "qz"] := by
  obtain ⟨c, hc, hstart⟩ := exists_calibrate_zenithStars plainCamera 4 1
    { zenithConfig with maxIterations := 0 } rfl one_pos (by decide)
  obtain ⟨covariance, hunder⟩ := Calibration.exists_fittedUnder hc
  have hused : c.numUsed = 4 := by rw [Calibration.numUsed, hstart, StarFit.size_ofZenith]
  have hparameters : c.start.parameterCount = 8 := by rw [hstart]; rfl
  have hdof : c.solver.dof = 0 := by
    show c.start.stars.size * 2 - c.start.parameterCount = 0
    rw [hparameters, show c.start.stars.size = 4 from hused]
  refine ⟨c, hc, ?_, standardErrors_of_none 0 _ (hunder.covariance_eq_none hdof), ?_⟩
  · rw [Vector.length_toList, hparameters, hused]
  · show c.start.names = _
    rw [hstart]
    rfl

end CalibrationRecord

end SkyCamera
