import SkyCamera.Proofs.AffineFit
import SkyCamera.Proofs.ZenithStars

/-!
Stars that a fit turns behind the camera. A kept star is in front of the camera at the start, and
nothing keeps it there: behind the camera it is modelled where it was observed, which is the best
that a step can do for it. So a step can be accepted for the stars that it hides, and one that hides
all of them ends the fit with a `χ²` of zero.
-/
namespace SkyCamera

open Linear

namespace StarFit

section Any

variable {α : Type} [Scalar α] (f : StarFit α) (p : Vector α f.parameterCount)

/-- Star `k` in the frame of the camera at `p`, but for the norm of the quaternion. -/
def seenFrom (k : Fin f.stars.size) : Vec3 α := rotate (f.quaternionAt p) (f.star k).direction

theorem pairAt_residual (k : Fin f.stars.size) :
    f.pairAt (f.observed - f.values p) k =
      ((f.star k).i - (f.pixelAt p k).1, (f.star k).j - (f.pixelAt p k).2) := by
  rw [pairAt_sub, pairAt_observed]
  rfl

variable {f p} {k : Fin f.stars.size}

theorem pixelAt_of_hidden (hdepth : (f.seenFrom p k).z ≤ 0) :
    f.pixelAt p k = ((f.star k).i, (f.star k).j) := by
  have hnone : (f.cameraAt p).project (f.seenFrom p k) = none := if_pos hdepth
  rw [pixelAt_eq]
  exact congrArg (Option.getD · _) hnone

theorem pixelAt_of_front (hdepth : ¬ (f.seenFrom p k).z ≤ 0) :
    (f.cameraAt p).project (f.seenFrom p k) = some (f.pixelAt p k) := by
  have hsome : (f.cameraAt p).project (f.seenFrom p k) =
      some ((f.cameraAt p).tangentToPixel _ _) := if_neg hdepth
  rw [pixelAt_eq]
  exact hsome.trans (congrArg (fun pixel => some (Option.getD pixel _)) hsome.symm)

/-- Where no star is left in front of the camera, the model is what was observed. -/
theorem values_of_hidden (hhidden : ∀ k, (f.seenFrom p k).z ≤ 0) : f.values p = f.observed := by
  refine Vector.ext fun i hi => ?_
  obtain ⟨⟨k, e⟩, hplace⟩ := f.placeEquiv.surjective ⟨i, hi⟩
  rw [placeEquiv_apply] at hplace
  have hvalue : (f.values p)[f.place k e] = f.observed[f.place k e] := by
    rw [values_place, observed_place, pixelOf_of_hidden _ _ _ (hhidden k)]
  rw [hplace] at hvalue
  exact hvalue

end Any

end StarFit

namespace Calibration

section Any

variable {α : Type} [Scalar α] [HasPseudoInverse α]

/-- How a calibration `c` of `pairs` accounts for the stars that it keeps, in any arithmetic. -/
structure AccountsFor (c : Calibration α) (orientation : Quaternion α)
    (pairs : List (Correspondence α)) (toHorizon : Mat3 α) (config : CalibrationConfig α)
    (covariance : DataCovariance α c.start.dataCount) : Prop where
  /-- A kept star was in front of the camera at the start. Its residual is observed minus projected
  pixel if it still is, and observed minus observed pixel if it is not. -/
  residual_eq : ∀ index r, (index, r) ∈ c.residuals → ∃ pair, pairs[index]? = some pair ∧
    ¬ ((orientation.toMatrix.mul toHorizon).mulVec pair.star.direction).z ≤ 0 ∧
    let seen := StarFit.rotate (c.start.quaternionAt c.solver.parameters)
      (toHorizon.mulVec pair.star.direction)
    (¬ seen.z ≤ 0 → ∃ i j, c.camera.project seen = some (i, j) ∧
      r = (pair.source.x - i, pair.source.y - j)) ∧
    (seen.z ≤ 0 → r = (pair.source.x - pair.source.x, pair.source.y - pair.source.y))
  /-- A trial is taken if it brings `χ²` down, with such residuals of the stars that it hides. -/
  accepted_iff : ∀ i trial,
    let problem := c.start.problemUnder config covariance
    let it := problem.iterateAfter c.start.initial i
    problem.trial? it = some trial →
      ((problem.attemptAfter c.start.initial i).accepted = true ↔
        Scalar.IsFinite trial.chi2 ∧ trial.chi2 < it.point.chi2) ∧
      trial.chi2 = covariance.chi2 (c.start.observed - c.start.values trial.parameters) ∧
      ∀ k, (c.start.seenFrom trial.parameters k).z ≤ 0 →
        c.start.pairAt (c.start.observed - c.start.values trial.parameters) k =
          ((c.start.star k).i - (c.start.star k).i, (c.start.star k).j - (c.start.star k).j)

variable {camera : Camera α} {orientation : Quaternion α} {pairs : List (Correspondence α)}
  {gmst : α} {site : Sky.Site α} {config : CalibrationConfig α} {c : Calibration α}
  {covariance : DataCovariance α c.start.dataCount}

theorem accountsFor_of_fittedUnder
    (h : calibrate camera orientation pairs gmst site config = .ok c)
    (hc : c.FittedUnder config covariance) :
    c.AccountsFor orientation pairs (site.celestialToHorizon gmst) config covariance := by
  obtain ⟨hstart, -⟩ := calibrate_eq_ok h
  refine ⟨fun index r hr => ?_, ?_⟩
  · rw [residuals_eq, List.mem_ofFn] at hr
    obtain ⟨k, hk⟩ := hr
    obtain ⟨rfl, rfl⟩ := Prod.mk.inj hk
    obtain ⟨pair, hpair, hdirection, hobserved, hkept⟩ :=
      StarFit.exists_correspondence hstart (Array.getElem_mem_toList k.isLt)
    rw [Sky.Star.exclusion?_eq_none_iff] at hkept
    have hresidual := c.start.pairAt_residual c.solver.parameters k
    rw [← hc.residuals_eq] at hresidual
    obtain ⟨hi, hj⟩ := Prod.mk.inj hobserved
    refine ⟨pair, hpair, hkept.2, ?_⟩
    rw [← hdirection, hresidual, ← hi, ← hj]
    refine ⟨fun hdepth => ⟨_, _, StarFit.pixelAt_of_front hdepth, rfl⟩, fun hdepth => ?_⟩
    rw [StarFit.pixelAt_of_hidden hdepth]
    rfl
  · intro i trial problem it htrial
    have hcoherent := problem.coherent_trial htrial
    refine ⟨(problem.step_after c.start.initial i).accepted_iff htrial, ?_, fun k hdepth => ?_⟩
    · rw [hcoherent.chi2_eq, hcoherent.values_eq]
      rfl
    · rw [c.start.pairAt_residual, StarFit.pixelAt_of_hidden hdepth]

end Any

section Exact

/-- In exact arithmetic the camera and the orientation are those that are reported, and a hidden
star has no residual. -/
structure AccountsExactly (c : Calibration ℝ) (orientation : Quaternion ℝ)
    (pairs : List (Correspondence ℝ)) (toHorizon : Mat3 ℝ) (config : CalibrationConfig ℝ)
    (covariance : DataCovariance ℝ c.start.dataCount) : Prop where
  residual_eq : ∀ index r, (index, r) ∈ c.residuals → ∃ pair, pairs[index]? = some pair ∧
    0 < ((orientation.toMatrix.mul toHorizon).mulVec pair.star.direction).z ∧
    let seen := (c.orientation.toMatrix.mul toHorizon).mulVec pair.star.direction
    (0 < seen.z → ∃ i j, c.camera.project seen = some (i, j) ∧
      r = (pair.source.x - i, pair.source.y - j)) ∧
    (seen.z ≤ 0 → c.camera.project seen = none ∧ r = (0, 0))
  /-- A trial that hides all stars is taken, and ends the fit. -/
  converged_of_hidden : ∀ i trial, i < c.solver.iterations →
    let problem := c.start.problemUnder config covariance
    let it := problem.iterateAfter c.start.initial i
    problem.trial? it = some trial → 0 < it.point.chi2 →
    (∀ k, (c.start.seenFrom trial.parameters k).z ≤ 0) →
      c.solver.parameters = trial.parameters ∧ c.solver.status = .converged ∧
        c.solver.chi2 = 0 ∧ ∀ index r, (index, r) ∈ c.residuals → r = (0, 0)

theorem chi2_sub_self {n : Nat} (covariance : DataCovariance ℝ n) (v : Vector ℝ n) :
    covariance.chi2 (v - v) = 0 := by
  rw [DataCovariance.chi2_real, coords_sub, sub_self, zero_dotProduct]

theorem Fitted.rotate_eq {c : Calibration ℝ} {config : CalibrationConfig ℝ}
    {covariance : DataCovariance ℝ c.start.dataCount} (hc : c.Fitted config covariance)
    (toHorizon : Mat3 ℝ) (v : Vec3 ℝ) :
    StarFit.rotate (c.start.quaternionAt c.solver.parameters) (toHorizon.mulVec v) =
      (c.orientation.toMatrix.mul toHorizon).mulVec v := by
  rw [hc.orientation_eq, StarFit.rotate_eq_mulVec, Mat3.mulVec_mul]

variable [HasPseudoInverse ℝ] {camera : Camera ℝ} {orientation : Quaternion ℝ}
  {pairs : List (Correspondence ℝ)} {gmst : ℝ} {site : Sky.Site ℝ} {config : CalibrationConfig ℝ}
  {c : Calibration ℝ} {covariance : DataCovariance ℝ c.start.dataCount}

/-- Where all stars end behind the camera no residual is left: the step is accepted and `χ²` is
zero. -/
theorem converged_of_hidden (hc : c.FittedUnder config covariance) {i : Nat}
    (hi : i < c.solver.iterations) {trial : Point ℝ c.start.parameterCount c.start.dataCount}
    (htrial : (c.start.problemUnder config covariance).trial?
      ((c.start.problemUnder config covariance).iterateAfter c.start.initial i) = some trial)
    (hpositive : 0 <
      ((c.start.problemUnder config covariance).iterateAfter c.start.initial i).point.chi2)
    (hhidden : ∀ k, (c.start.seenFrom trial.parameters k).z ≤ 0) :
    c.solver.parameters = trial.parameters ∧ c.solver.status = .converged ∧
      c.solver.chi2 = 0 ∧ ∀ index r, (index, r) ∈ c.residuals → r = (0, 0) := by
  let problem := c.start.problemUnder config covariance
  have hcoherent := problem.coherent_trial htrial
  have hvalues : trial.values = c.start.observed :=
    hcoherent.values_eq.trans (StarFit.values_of_hidden hhidden)
  have hzero : trial.chi2 = 0 := by
    rw [hcoherent.chi2_eq, hvalues]
    exact chi2_sub_self covariance c.start.observed
  have hiterations : i < (problem.fit c.start.initial config.maxIterations).iterations := by
    rw [hc.solver_eq] at hi
    exact hi
  obtain ⟨hlast, hstatus⟩ := problem.fit_ends_of_exact hiterations htrial
    ⟨Scalar.isFinite_real _, hzero.trans_lt hpositive⟩ ((Scalar.isZero_real_iff _).mpr hzero)
  have hparameters : c.solver.parameters = trial.parameters := by
    rw [hc.solver_eq]
    exact congrArg Point.parameters hlast
  refine ⟨hparameters, ?_, ?_, fun index r hr => ?_⟩
  · rw [hc.solver_eq]
    exact hstatus
  · rw [hc.solver_eq]
    exact (congrArg Point.chi2 hlast).trans hzero
  · rw [residuals_eq, List.mem_ofFn] at hr
    obtain ⟨k, hk⟩ := hr
    obtain ⟨-, rfl⟩ := Prod.mk.inj hk
    rw [hc.residuals_eq, c.start.pairAt_residual, hparameters,
      StarFit.pixelAt_of_hidden (hhidden k), sub_self, sub_self]

theorem accountsExactly_of_fittedUnder
    (h : calibrate camera orientation pairs gmst site config = .ok c)
    (hc : c.FittedUnder config covariance) :
    c.AccountsExactly orientation pairs (site.celestialToHorizon gmst) config covariance := by
  have haccounts := accountsFor_of_fittedUnder h hc
  obtain ⟨_, hfitted⟩ := exists_fitted h
  refine ⟨fun index r hr => ?_, fun i trial hi htrial hpositive hhidden =>
    converged_of_hidden hc hi htrial hpositive hhidden⟩
  obtain ⟨pair, hpair, hstart, hfront, hbehind⟩ := haccounts.residual_eq index r hr
  rw [hfitted.rotate_eq] at hfront hbehind
  refine ⟨pair, hpair, not_le.mp hstart, fun hdepth => hfront (not_le.mpr hdepth),
    fun hdepth => ⟨if_pos hdepth, ?_⟩⟩
  rw [hbehind hdepth, sub_self, sub_self]

end Exact

end Calibration

section Tilted

open Matrix StarFit

variable (x : ℝ)

/-- A camera that tilts by more than a right angle does not see the zenith. -/
theorem hidden_of_tilted {t : ℝ} (ht : 1 ≤ t) :
    (rotate (unitOrIdentity ⟨1, 0, t, 0⟩) ⟨0, 0, 1⟩).z ≤ 0 := by
  have hnorm : 0 < (⟨1, 0, t, 0⟩ : Quaternion ℝ).norm := by
    refine Quaternion.norm_pos _ fun hzero => ?_
    exact one_ne_zero (congrArg Quaternion.w hzero)
  rw [unitOrIdentity, if_pos ⟨hnorm, Scalar.isFinite_real _⟩, Quaternion.normalize_eq_scale,
    rotate_scale, Vec3.scale]
  refine mul_nonpos_of_nonpos_of_nonneg ?_ (mul_self_nonneg _)
  rw [rotate_tilt]
  nlinarith

/-- The first trial hides them all if they were seen far away. -/
theorem exists_trial_hidden {config : CalibrationConfig ℝ} (hmode : config.jacobian = .analytic)
    (hx : 4.01 ≤ x) :
    let f := ofZenith plainCamera 4 x
    let problem := f.problemUnder config (.diagonal (.replicate f.dataCount 1))
    ∃ trial, problem.trial? (problem.firstIterate f.initial) = some trial ∧
      ∀ k, (f.seenFrom trial.parameters k).z ≤ 0 := by
  intro f problem
  let it := problem.firstIterate f.initial
  have hdamping : it.damping = 0.005 :=
    (damping_plainCamera 4 x hmode four_ne_zero).trans (by norm_num)
  have hpositive : 0 < it.damping := by
    rw [hdamping]
    norm_num
  obtain ⟨step, s, hstep, htilt, -, hquaternion⟩ := exists_tilt 4 x hmode four_ne_zero hpositive
  have hparameters : it.point.parameters = f.initial := f.withUnitQuaternion_initial rfl
  refine ⟨_, congrArg (Option.map _) hstep, fun k => ?_⟩
  show (rotate (f.quaternionAt (f.withUnitQuaternion (it.point.parameters + step))) _).z ≤ 0
  rw [quaternionAt_withUnitQuaternion, hparameters, hquaternion, star_ofZenith]
  refine hidden_of_tilted ?_
  rw [hdamping] at htilt
  linarith

/-- So the fit ends with them hidden. -/
theorem exists_calibrate_hidden (hx : 4.01 ≤ x) :
    ∃ c, calibrate plainCamera .identity (zenithStars 4 x) 0 ⟨0, 0, 0⟩
        { zenithConfig with maxIterations := 1 } = .ok c ∧
      c.start = .ofZenith plainCamera 4 x ∧ c.solver.status = .converged ∧ c.solver.chi2 = 0 ∧
      (∀ index r, (index, r) ∈ c.residuals → r = (0, 0)) ∧
      (rotate (c.start.quaternionAt c.solver.parameters) ⟨0, 0, 1⟩).z ≤ 0 := by
  let config : CalibrationConfig ℝ := { zenithConfig with maxIterations := 1 }
  obtain ⟨⟨f, solver, estimate⟩, hc, hf⟩ :=
    exists_calibrate_zenithStars plainCamera 4 x config rfl one_pos (by decide)
  obtain rfl : f = ofZenith plainCamera 4 x := hf
  obtain ⟨covariance, hunder⟩ := Calibration.exists_fittedUnder hc
  have hsize : (ofZenith plainCamera 4 x).stars.size = 4 := size_ofZenith plainCamera 4 x
  have hstars : (ofZenith plainCamera 4 x).stars.size ≠ 0 := hsize.trans_ne four_ne_zero
  obtain ⟨hcovariance, -⟩ := dataCovariance_eq_ok hunder.covariance_eq hstars
    (exists_star_ofZenith four_ne_zero)
  rw [show config.pixelSigma = 1 from rfl, mul_one] at hcovariance
  obtain rfl := hcovariance
  let f := ofZenith plainCamera 4 x
  let problem := f.problemUnder config (.diagonal (.replicate f.dataCount 1))
  obtain ⟨trial, htrial, hhidden⟩ : ∃ trial,
      problem.trial? (problem.firstIterate f.initial) = some trial ∧
        ∀ k, (f.seenFrom trial.parameters k).z ≤ 0 := exists_trial_hidden x rfl hx
  have hpositive : 0 < (problem.point f.initial).chi2 := by
    have hchi2 : (problem.point f.initial).chi2 = f.stars.size * (x * x + 0 * 0) :=
      (movesAlike_plainCamera 4 x rfl).chi2_eq
    rw [hchi2, hsize]
    have hpos : 0 < x := by linarith
    positivity
  have htried : 0 < solver.iterations := by
    have hzero : ¬ Scalar.IsZero (problem.point f.initial).chi2 :=
      (Scalar.isZero_real_iff _).not.mpr hpositive.ne'
    have hsolver := hunder.solver_eq
    dsimp only at hsolver
    rw [hsolver]
    exact problem.iterations_pos hzero one_ne_zero
  obtain ⟨hparameters, hstatus, hchi2, hresiduals⟩ :=
    Calibration.converged_of_hidden hunder htried htrial hpositive hhidden
  refine ⟨_, hc, rfl, hstatus, hchi2, hresiduals, ?_⟩
  have hfirst := hhidden ⟨0, Nat.pos_of_ne_zero hstars⟩
  rw [seenFrom, star_ofZenith] at hfirst
  rw [hparameters]
  exact hfirst

end Tilted

namespace Calibration

/-- Stars that are used were in front of the camera at the start. The residual of a star that the
fit has turned behind it is zero, and a step is taken for such residuals as for all others. -/
theorem accounts_for_hidden_stars :
    (∀ {α : Type} [Scalar α] [HasPseudoInverse α] (camera : Camera α) (orientation : Quaternion α)
        (pairs : List (Correspondence α)) (gmst : α) (site : Sky.Site α)
        (config : CalibrationConfig α) (c : Calibration α),
      calibrate camera orientation pairs gmst site config = .ok c →
      ∃ covariance, c.start.dataCovariance config.pixelSigma = .ok covariance ∧
        c.AccountsFor orientation pairs (site.celestialToHorizon gmst) config covariance) ∧
    ∀ [HasPseudoInverse ℝ] (camera : Camera ℝ) (orientation : Quaternion ℝ)
        (pairs : List (Correspondence ℝ)) (gmst : ℝ) (site : Sky.Site ℝ)
        (config : CalibrationConfig ℝ) (c : Calibration ℝ),
      calibrate camera orientation pairs gmst site config = .ok c →
      ∃ covariance, c.start.dataCovariance config.pixelSigma = .ok covariance ∧
        c.AccountsExactly orientation pairs (site.celestialToHorizon gmst) config covariance := by
  constructor
  · intro α _ _ camera orientation pairs gmst site config c h
    obtain ⟨covariance, hc⟩ := exists_fittedUnder h
    exact ⟨covariance, hc.covariance_eq, accountsFor_of_fittedUnder h hc⟩
  · intro _ camera orientation pairs gmst site config c h
    obtain ⟨covariance, hc⟩ := exists_fittedUnder h
    exact ⟨covariance, hc.covariance_eq, accountsExactly_of_fittedUnder h hc⟩

theorem accounts_for_hidden_stars_zenithStars :
    ∃ c, calibrate plainCamera .identity (zenithStars 5 1) 0 ⟨0, 0, 0⟩ zenithConfig = .ok c ∧
      (∃ covariance, c.AccountsFor .identity (zenithStars 5 1)
        (Sky.Site.celestialToHorizon ⟨0, 0, 0⟩ 0) zenithConfig covariance) ∧
      ∃ covariance, c.AccountsExactly .identity (zenithStars 5 1)
        (Sky.Site.celestialToHorizon ⟨0, 0, 0⟩ 0) zenithConfig covariance := by
  obtain ⟨c, hc, -⟩ := exists_calibrate_zenithStars plainCamera 5 1 zenithConfig rfl one_pos
    (by decide)
  obtain ⟨covariance, -, haccounts⟩ := accounts_for_hidden_stars.1 plainCamera .identity
    (zenithStars 5 1) 0 ⟨0, 0, 0⟩ zenithConfig c hc
  obtain ⟨covariance', -, hexactly⟩ := accounts_for_hidden_stars.2 plainCamera .identity
    (zenithStars 5 1) 0 ⟨0, 0, 0⟩ zenithConfig c hc
  exact ⟨c, hc, ⟨covariance, haccounts⟩, covariance', hexactly⟩

/-- Four stars that were seen far away from where they are: the first step hides them all, and the
fit has converged on it. -/
theorem hides_stars_seen_far_away :
    ∃ c, calibrate plainCamera .identity (zenithStars 4 8.02) 0 ⟨0, 0, 0⟩
        { zenithConfig with maxIterations := 1 } = .ok c ∧
      c.converged = true ∧ c.numUsed = 4 ∧ c.residuals.length = 4 ∧ c.solver.chi2 = 0 ∧
      ∀ index r, (index, r) ∈ c.residuals → r = (0, 0) ∧
        ∃ pair, (zenithStars 4 8.02)[index]? = some pair ∧
          c.camera.project ((c.orientation.toMatrix.mul
            (Sky.Site.celestialToHorizon ⟨0, 0, 0⟩ 0)).mulVec pair.star.direction) = none := by
  obtain ⟨c, hc, hstart, hstatus, hchi2, hresiduals, hdepth⟩ :=
    exists_calibrate_hidden 8.02 (by norm_num)
  obtain ⟨_, hfitted⟩ := exists_fitted hc
  have hused : c.numUsed = 4 := by rw [numUsed, hstart, StarFit.size_ofZenith]
  refine ⟨c, hc, ?_, hused, ?_, hchi2, fun index r hr => ⟨hresiduals index r hr, ?_⟩⟩
  · rw [converged, hstatus]
    rfl
  · rw [residuals_eq, List.length_ofFn]
    exact hused
  · obtain ⟨pair, hpair, -⟩ := residual_of_mem (calibrate_eq_ok hc).1 hfitted hr
    refine ⟨pair, hpair, if_pos ?_⟩
    rw [← hfitted.rotate_eq, List.eq_of_mem_replicate (List.mem_of_getElem? hpair),
      celestialToHorizon_equatorPair]
    exact hdepth

end Calibration
end SkyCamera
