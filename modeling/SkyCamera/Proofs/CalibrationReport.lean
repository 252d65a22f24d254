import Mathlib.Algebra.BigOperators.Field
import SkyCamera.Proofs.CalibrationCourse
import SkyCamera.Proofs.FitHistory
import SkyCamera.Proofs.KeptStars
import SkyCamera.Proofs.StarPixels
import SkyCamera.Proofs.UnitQuaternion
import SkyCamera.Proofs.Weights

/-!
What a calibration reports, in exact arithmetic. Its parts come from the choice of the stars, from
the solver and from the camera and the orientation read off the parameters; they describe one
solution, and with one variance for all pixels that solution is no worse than the start.
-/
namespace SkyCamera

open Linear

namespace Problem

variable {m n : Nat} (problem : Problem ℝ m n)

/-- Every accepted step lowers `χ²`, and the others leave it. -/
theorem chi2_iterateAfter_le (start : Vector ℝ m) (k : Nat) :
    (problem.iterateAfter start k).point.chi2 ≤ (problem.point start).chi2 := by
  induction k with
  | zero => exact le_refl _
  | succ k ih =>
    have hstep := problem.step_after start k
    cases ha : (problem.attemptAfter start k).accepted with
    | false =>
      rw [hstep.point_of_unaccepted ha]
      exact ih
    | true =>
      obtain ⟨-, ⟨-, hless⟩, -⟩ := hstep.point_of_accepted ha
      exact hless.le.trans ih

end Problem

namespace Linear

variable {n : Nat}

theorem dot_self_nonneg (v : Vector ℝ n) : 0 ≤ dot v v := by
  rw [dot_real]
  exact Finset.sum_nonneg fun i _ => mul_self_nonneg (coords v i)

theorem rmsLength_sq (v : Vector ℝ n) (hn : n / 2 ≠ 0) :
    rmsLength v ^ 2 * ((n / 2 : Nat) : ℝ) = dot v v := by
  have hcount : (0 : ℝ) < ((n / 2 : Nat) : ℝ) := Nat.cast_pos.mpr (Nat.pos_of_ne_zero hn)
  have hmean : 0 ≤ dot v v / ((n / 2 : Nat) : ℝ) := div_nonneg (dot_self_nonneg v) hcount.le
  rw [rmsLength, if_neg hn]
  show Real.sqrt _ ^ 2 * _ = _
  rw [Real.sq_sqrt hmean, div_mul_cancel₀ _ hcount.ne']

theorem rmsLength_le {u v : Vector ℝ n} (h : dot u u ≤ dot v v) : rmsLength u ≤ rmsLength v := by
  unfold rmsLength
  split
  · exact le_refl _
  · exact Real.sqrt_le_sqrt (div_le_div_of_nonneg_right h (Nat.cast_nonneg _))

end Linear

/-- With one variance for all data, `χ²` is the sum of the squares over that variance. -/
theorem DataCovariance.chi2_replicate {n : Nat} (variance : ℝ) (r : Vector ℝ n) :
    (diagonal (.replicate n variance)).chi2 r = dot r r / variance := by
  rw [chi2, dot_real, dot_real, dotProduct, dotProduct, Finset.sum_div]
  refine Finset.sum_congr rfl fun i _ => ?_
  simp [coords, weight, mul_div_assoc]

theorem Quaternion.ne_zero_of_norm_eq_one {q : Quaternion ℝ} (hq : q.norm = 1) :
    q ≠ ⟨0, 0, 0, 0⟩ := by
  rintro rfl
  have hzero : (⟨0, 0, 0, 0⟩ : Quaternion ℝ).norm = 0 := by
    show Real.sqrt (0 * 0 + 0 * 0 + 0 * 0 + 0 * 0) = 0
    norm_num
  rw [hzero] at hq
  exact zero_ne_one hq

/-- Observed minus projected pixel, and nothing for a vector that the camera does not see. -/
noncomputable def Camera.residual (c : Camera ℝ) (v : Vec3 ℝ) (source : Source ℝ) : ℝ × ℝ :=
  match c.project v with
  | some (i, j) => (source.x - i, source.y - j)
  | none => (0, 0)

theorem Camera.residual_eq (c : Camera ℝ) (v : Vec3 ℝ) (source : Source ℝ) :
    c.residual v source = (source.x - ((c.project v).getD (source.x, source.y)).1,
      source.y - ((c.project v).getD (source.x, source.y)).2) := by
  unfold residual
  cases c.project v with
  | none => simp
  | some pixel => rfl

namespace StarFit

section Pairs

variable {α : Type} (f : StarFit α)

theorem pairAt_sub [Scalar α] (u v : Vector α f.dataCount) (k : Fin f.stars.size) :
    f.pairAt (u - v) k =
      ((f.pairAt u k).1 - (f.pairAt v k).1, (f.pairAt u k).2 - (f.pairAt v k).2) := by
  simp [pairAt]

def placeEquiv : Fin f.stars.size × Fin 2 ≃ Fin f.dataCount := finProdFinEquiv

theorem placeEquiv_apply (k : Fin f.stars.size) (e : Fin 2) :
    f.placeEquiv (k, e) = f.place k e :=
  Fin.ext (Nat.add_comm e.val (2 * k.val))

theorem sum_places {β : Type} [AddCommMonoid β] (g : Fin f.dataCount → β) :
    ∑ i, g i = ∑ k, ∑ e, g (f.place k e) := by
  calc
    ∑ i, g i = ∑ x, g (f.placeEquiv x) := (f.placeEquiv.sum_comp g).symm
    _ = ∑ k, ∑ e, g (f.placeEquiv (k, e)) := Fintype.sum_prod_type _
    _ = ∑ k, ∑ e, g (f.place k e) := by simp only [placeEquiv_apply]

theorem dot_self_eq_sum (f : StarFit ℝ) (v : Vector ℝ f.dataCount) :
    dot v v = ∑ k, ((f.pairAt v k).1 ^ 2 + (f.pairAt v k).2 ^ 2) := by
  rw [dot_real, dotProduct, f.sum_places]
  refine Finset.sum_congr rfl fun k _ => ?_
  rw [Fin.sum_univ_two, sq, sq]
  rfl

end Pairs

/-- A unit quaternion is reported as it stands. -/
theorem orientationAt_of_norm_eq_one (f : StarFit ℝ) {p : Vector ℝ f.parameterCount}
    (hp : (f.quaternionAt p).norm = 1) : f.orientationAt p = f.quaternionAt p := by
  have hzero : ¬ Scalar.IsZero (f.quaternionAt p).norm := by
    rw [Scalar.isZero_real_iff, hp]
    exact one_ne_zero
  rw [orientationAt, if_neg hzero, Quaternion.normalize_of_norm_eq_one hp]

theorem parameters_cameraAt {α : Type} (f : StarFit α) (p : Vector α f.parameterCount) :
    (f.cameraAt p).parameters = p.toList.take f.intrinsicCount :=
  f.camera.parameters_withParameters (f.length_take_intrinsicCount p)

theorem mapM_eq_none_iff {β γ : Type} {g : β → Option γ} {l : List β} :
    l.mapM g = none ↔ ∃ b ∈ l, g b = none := by
  induction l with
  | nil => exact ⟨fun h => (nomatch h), fun ⟨_, h, _⟩ => absurd h List.not_mem_nil⟩
  | cons a l ih =>
    rw [List.mapM_cons, List.exists_mem_cons_iff, ← ih]
    cases g a with
    | none => exact iff_of_true rfl (Or.inl rfl)
    | some x =>
      cases l.mapM g with
      | none => exact iff_of_true rfl (Or.inr rfl)
      | some rest => exact ⟨fun h => (nomatch h), fun h => (nomatch h)⟩

theorem mapM_eq_some_iff {β γ : Type} {g : β → Option γ} {l : List β} {result : List γ} :
    l.mapM g = some result ↔ l.map g = result.map some := by
  induction l generalizing result with
  | nil =>
    rw [List.mapM_nil, List.map_nil, eq_comm (a := []), List.map_eq_nil_iff]
    exact Option.some_inj.trans eq_comm
  | cons b l ih =>
    rw [List.mapM_cons, List.map_cons]
    cases g b with
    | none => cases result <;> simp
    | some c =>
      cases result with
      | nil => simp [Option.bind_eq_some_iff]
      | cons c' rest => simp [Option.bind_eq_some_iff, ← ih, and_comm]

/-- Pixels have covariances of their own if that of each is known. -/
theorem covariances?_eq_none_iff {α : Type} {f : StarFit α} :
    f.covariances? = none ↔ ∃ star ∈ f.stars.toList, star.covariance = none := mapM_eq_none_iff

theorem covariances?_eq_some_iff {α : Type} {f : StarFit α} {blocks : List (Covariance2 α)} :
    f.covariances? = some blocks ↔ f.stars.toList.map (·.covariance) = blocks.map some :=
  mapM_eq_some_iff

theorem dataCount_of_covariances? {α : Type} {f : StarFit α} {blocks : List (Covariance2 α)}
    (h : f.covariances? = some blocks) : f.dataCount = 2 * blocks.length := by
  have hlength := congrArg List.length (covariances?_eq_some_iff.mp h)
  simp only [List.length_map, Array.length_toList] at hlength
  unfold dataCount
  omega

/-- A pixel of unknown covariance puts one variance on all. -/
theorem dataCovariance_eq_ok {f : StarFit ℝ} {sigma : ℝ} {covariance : DataCovariance ℝ f.dataCount}
    (h : f.dataCovariance sigma = .ok covariance) (hstars : f.stars.size ≠ 0)
    (hnone : ∃ star ∈ f.stars.toList, star.covariance = none) :
    covariance = .diagonal (.replicate f.dataCount (sigma * sigma)) ∧ 0 < sigma * sigma := by
  have hcovariances : f.covariances? = none := covariances?_eq_none_iff.mpr hnone
  rw [dataCovariance, hcovariances] at h
  obtain ⟨hdiagonal, hpos⟩ := DataCovariance.pos_of_ofVariances h
  have hcount : 0 < f.dataCount := by
    unfold dataCount
    omega
  refine ⟨hdiagonal, ?_⟩
  have hfirst := hpos ⟨0, hcount⟩
  simpa using hfirst

end StarFit

namespace Calibration

theorem residuals_eq {α : Type} [Scalar α] (c : Calibration α) :
    c.residuals = List.ofFn fun k : Fin c.start.stars.size =>
      (c.start.stars[k].index, c.start.pairAt c.solver.residuals k) := by
  refine List.ext_getElem ?_ fun k hk hk' => ?_
  · simp [residuals, StarFit.kept]
  · have hsize : k < c.start.stars.size := by simpa using hk'
    have hplace (e : Fin 2) : c.solver.residuals.toArray.getD (2 * k + e) 0 =
        c.solver.residuals[c.start.place ⟨k, hsize⟩ e] := by
      have hlt := (c.start.place ⟨k, hsize⟩ e).isLt
      simp only [StarFit.place] at hlt
      simp [StarFit.place, hlt]
    have hfirst := hplace 0
    have hsecond := hplace 1
    simp only [Fin.val_zero, Nat.add_zero, Fin.val_one] at hfirst hsecond
    simp only [residuals, List.getElem_map, List.getElem_zipIdx, List.getElem_ofFn, Nat.zero_add,
      hfirst, hsecond, StarFit.pairAt]
    simp [StarFit.kept]

/-- What the fit of a calibration leaves in its solver. -/
structure Fitted (c : Calibration ℝ) (config : CalibrationConfig ℝ)
    (covariance : DataCovariance ℝ c.start.dataCount) : Prop where
  covariance_eq : c.start.dataCovariance config.pixelSigma = .ok covariance
  enough_data : c.start.parameterCount ≤ c.start.dataCount
  norm_quaternion : (c.start.quaternionAt c.solver.parameters).norm = 1
  residuals_eq : c.solver.residuals = c.start.observed - c.start.values c.solver.parameters
  chi2_eq : c.solver.chi2 = covariance.chi2 c.solver.residuals
  chi2_le : c.solver.chi2 ≤ covariance.chi2
    (c.start.observed - c.start.values (c.start.withUnitQuaternion c.start.initial))

variable {camera : Camera ℝ} {orientation : Quaternion ℝ} {pairs : List (Correspondence ℝ)}
  {gmst : ℝ} {site : Sky.Site ℝ} {config : CalibrationConfig ℝ} {c : Calibration ℝ}

/-- Each listed residual is that of the fitted camera and orientation at the pair of its index. -/
theorem residual_of_mem (hstart : StarFit.ofCorrespondences camera orientation pairs gmst site
      config.faintLimit = .ok c.start) {covariance : DataCovariance ℝ c.start.dataCount}
    (hc : c.Fitted config covariance) {index : Nat} {r : ℝ × ℝ} (hr : (index, r) ∈ c.residuals) :
    ∃ pair, pairs[index]? = some pair ∧
      r = c.camera.residual ((c.orientation.toMatrix.mul
        (site.celestialToHorizon gmst)).mulVec pair.star.direction) pair.source := by
  rw [residuals_eq, List.mem_ofFn] at hr
  obtain ⟨k, hk⟩ := hr
  obtain ⟨rfl, rfl⟩ := Prod.mk.inj hk
  obtain ⟨pair, hpair, hdirection, hobserved, -⟩ :=
    StarFit.exists_correspondence hstart (Array.getElem_mem_toList k.isLt)
  have hpixel := c.start.pixelAt_eq_project hdirection hobserved c.solver.parameters
    (Quaternion.ne_zero_of_norm_eq_one hc.norm_quaternion)
  refine ⟨pair, hpair, ?_⟩
  have hobserved' : c.start.pairAt c.start.observed k = (pair.source.x, pair.source.y) :=
    (c.start.pairAt_observed k).trans hobserved
  have hvalues : c.start.pairAt (c.start.values c.solver.parameters) k =
      c.start.pixelAt c.solver.parameters k := rfl
  rw [hc.residuals_eq, StarFit.pairAt_sub, hobserved', hvalues, hpixel, Camera.residual_eq]
  rfl

theorem rmsAfter_sq (c : Calibration ℝ) (hstars : c.start.stars.size ≠ 0) :
    c.rmsAfter ^ 2 * c.numUsed = dot c.solver.residuals c.solver.residuals := by
  have hcount : c.start.dataCount / 2 = c.numUsed := by
    unfold StarFit.dataCount numUsed
    omega
  have hrms := rmsLength_sq c.solver.residuals (hcount ▸ hstars)
  rw [hcount] at hrms
  exact hrms

theorem sum_residuals (c : Calibration ℝ) :
    (c.residuals.map fun r => r.2.1 ^ 2 + r.2.2 ^ 2).sum =
      dot c.solver.residuals c.solver.residuals := by
  rw [StarFit.dot_self_eq_sum, residuals_eq, List.map_ofFn, List.sum_ofFn]
  rfl

theorem map_fst_residuals {α : Type} [Scalar α] (c : Calibration α) :
    c.residuals.map (·.1) = c.start.kept := by
  rw [residuals, List.map_map]
  exact List.zipIdx_map_fst 0 c.start.kept

namespace Fitted

variable {covariance : DataCovariance ℝ c.start.dataCount} (hc : c.Fitted config covariance)
include hc

theorem orientation_eq : c.orientation = c.start.quaternionAt c.solver.parameters :=
  c.start.orientationAt_of_norm_eq_one hc.norm_quaternion

theorem parameters_eq :
    c.camera.parameters ++ c.orientation.toList = c.solver.parameters.toList := by
  have hcamera : c.camera.parameters = c.solver.parameters.toList.take c.start.intrinsicCount :=
    c.start.parameters_cameraAt c.solver.parameters
  rw [hc.orientation_eq, hcamera, ← StarFit.drop_intrinsicCount, List.take_append_drop]

theorem norm_orientation : c.orientation.norm = 1 := by
  rw [hc.orientation_eq]
  exact hc.norm_quaternion

theorem dof_add : c.solver.dof + c.start.parameterCount = 2 * c.numUsed := by
  have hcount := hc.enough_data
  unfold Solver.dof
  unfold StarFit.dataCount at hcount ⊢
  unfold numUsed
  omega

/-- With one variance the fit brings the distances in pixels down, or leaves them. -/
theorem uniform (hstars : c.start.stars.size ≠ 0)
    (hnone : ∃ star ∈ c.start.stars.toList, star.covariance = none) :
    c.solver.chi2 * config.pixelSigma ^ 2 = c.rmsAfter ^ 2 * c.numUsed ∧
      c.rmsAfter ≤ c.rmsBefore := by
  obtain ⟨rfl, hpos⟩ := StarFit.dataCovariance_eq_ok hc.covariance_eq hstars hnone
  have hchi2 := hc.chi2_eq
  have hless := hc.chi2_le
  rw [DataCovariance.chi2_replicate] at hchi2 hless
  constructor
  · rw [c.rmsAfter_sq hstars, hchi2, sq, div_mul_cancel₀ _ hpos.ne']
  · rw [hchi2] at hless
    exact rmsLength_le ((div_le_div_iff_of_pos_right hpos).mp hless)

end Fitted

theorem exists_fitted [HasPseudoInverse ℝ]
    (h : calibrate camera orientation pairs gmst site config = .ok c) :
    ∃ covariance, c.Fitted config covariance := by
  obtain ⟨covariance, hunder⟩ := exists_fittedUnder h
  let problem := c.start.problemUnder config covariance
  have hnorm : (c.start.quaternionAt c.solver.parameters).norm = 1 := by
    obtain ⟨p, hp⟩ := Solver.parameters_mem_range _ _ hunder.fit_eq
    rw [← hp]
    exact c.start.norm_quaternionAt_constrain config.jacobian p
  obtain ⟨-, hlast, -⟩ := problem.fit_course c.start.initial config.maxIterations
  have hless := problem.chi2_iterateAfter_le c.start.initial
    (problem.fit c.start.initial config.maxIterations).iterations
  rw [← hlast] at hless
  refine ⟨covariance, hunder.covariance_eq, hunder.enough_data, hnorm, hunder.residuals_eq,
    hunder.chi2_eq, ?_⟩
  rw [hunder.solver_eq]
  exact hless

/-- What a calibration `c` of `pairs` says of itself is consistent. -/
structure Consistent (c : Calibration ℝ) (orientation : Quaternion ℝ)
    (pairs : List (Correspondence ℝ)) (toHorizon : Mat3 ℝ) (config : CalibrationConfig ℝ) :
    Prop where
  /-- Residuals are those of the kept correspondences, in their order. -/
  kept_eq : c.residuals.map (·.1) =
    (Visibility.of pairs (orientation.toMatrix.mul toHorizon) config.faintLimit).kept
  ascending : (c.residuals.map (·.1)).Pairwise (· < ·)
  each_once : (c.residuals.map (·.1) ++ c.start.excluded.map (·.1)).Perm
    (List.range pairs.length)
  numUsed_add : c.numUsed + c.start.excluded.length = pairs.length
  parameters_eq : c.camera.parameters ++ c.orientation.toList = c.solver.parameters.toList
  length_parameters : c.solver.parameters.toList.length = c.start.names.length
  norm_orientation : c.orientation.norm = 1
  residual_eq : ∀ index r, (index, r) ∈ c.residuals → ∃ pair, pairs[index]? = some pair ∧
    r = c.camera.residual
      ((c.orientation.toMatrix.mul toHorizon).mulVec pair.star.direction) pair.source
  dof_add : c.solver.dof + c.solver.parameters.toList.length = 2 * c.numUsed
  rmsAfter_sq : c.rmsAfter ^ 2 * c.numUsed =
    (c.residuals.map fun r => r.2.1 ^ 2 + r.2.2 ^ 2).sum
  /-- Where a kept source has no covariance, `χ²` and the distances in pixels say the same. -/
  uniform : (∃ pair ∈ pairs,
      pair.star.exclusion? (orientation.toMatrix.mul toHorizon) config.faintLimit = none ∧
        pair.source.covariance = none) →
    c.solver.chi2 * config.pixelSigma ^ 2 = c.rmsAfter ^ 2 * c.numUsed ∧ c.rmsAfter ≤ c.rmsBefore

end Calibration

namespace Linear

/-- Numbers are finite here, so every matrix that has entries has a pseudo-inverse. -/
theorem exists_pseudoInverse {r c : Nat} (a : Mat ℝ r c) (hr : r ≠ 0) (hc : c ≠ 0) :
    ∃ x, pseudoInverse a = .ok x := by
  show ∃ x, Orthogonal.pseudoInverse a = .ok x
  unfold Orthogonal.pseudoInverse
  rw [if_neg (not_or.mpr ⟨hr, hc⟩), if_neg (not_not.mpr fun i j => Scalar.isFinite_real a[i][j])]
  dsimp only
  split
  · exact ⟨_, rfl⟩
  · rw [if_neg (not_not.mpr (Scalar.isFinite_real _))]
    exact ⟨_, rfl⟩

end Linear

section Equator

open Correspondence

/-- A star on the celestial equator, `a` radians east of the meridian. -/
def equatorPair (x a : ℝ) : Correspondence ℝ := ⟨{ x := x, y := 1 }, ⟨1, a, 0, 1⟩⟩

noncomputable def sixAboveOneBelow (x : ℝ) : List (Correspondence ℝ) :=
  List.replicate 6 (equatorPair 1 0) ++ [equatorPair x Real.pi]

noncomputable def toZenith : Mat3 ℝ :=
  Quaternion.identity.toMatrix.mul (Sky.Site.celestialToHorizon ⟨0, 0, 0⟩ 0)

theorem depth_equatorPair (x a : ℝ) :
    (toZenith.mulVec (equatorPair x a).star.direction).z = Real.cos a := by
  simp [toZenith, equatorPair, Sky.Star.direction, Sky.ofSpherical, Sky.Site.celestialToHorizon,
    Sky.Site.earthToHorizon, Sky.earthToHorizon, Sky.celestialToEarth, Quaternion.identity,
    Quaternion.toMatrix, Mat3.mul, Mat3.mulVec, Mat3.transpose, Vec3.dot]

theorem celestialToHorizon_equatorPair (x : ℝ) :
    (Sky.Site.celestialToHorizon ⟨0, 0, 0⟩ 0).mulVec (equatorPair x 0).star.direction =
      (⟨0, 0, 1⟩ : Vec3 ℝ) := by
  simp [equatorPair, Sky.Star.direction, Sky.ofSpherical, Sky.Site.celestialToHorizon,
    Sky.Site.earthToHorizon, Sky.earthToHorizon, Sky.celestialToEarth, Mat3.mul, Mat3.mulVec,
    Mat3.transpose, Vec3.dot]

/-- A star on the equator is above the horizon where the cosine of its hour angle is positive. -/
theorem isKept_equatorPair (x a : ℝ) :
    (equatorPair x a).isKept toZenith 6 = decide (0 < Real.cos a) := by
  have hbright : (equatorPair x a).star.IsBright 6 := by
    simp only [Sky.Star.IsBright, equatorPair]
    norm_num
  rw [isKept, Sky.Star.exclusion?, if_neg (not_not.mpr hbright), depth_equatorPair]
  by_cases hfront : 0 < Real.cos a
  · rw [if_neg (not_le.mpr hfront)]
    simp [hfront]
  · rw [if_pos (not_lt.mp hfront)]
    simp [hfront]

noncomputable def zenithConfig : CalibrationConfig ℝ :=
  { CalibrationConfig.standard with faintLimit := 6 }

theorem keptStars_sixAboveOneBelow (x : ℝ) (toHorizon : Mat3 ℝ) :
    keptStars (sixAboveOneBelow x) toHorizon toZenith 6 =
      (List.range 6).map ((equatorPair 1 0).keptStar toHorizon) := by
  simp [keptStars, numberedKept, sixAboveOneBelow, isKept_equatorPair, List.replicate_succ,
    List.range_succ]

/-- Enough stars whose pixels share one standard deviation can be calibrated with. -/
theorem exists_calibrate_uniform [HasPseudoInverse ℝ]
    (hinverse : ∀ {n : Nat} (a : Mat ℝ n n), n ≠ 0 → ∃ x, pseudoInverse a = .ok x)
    {camera : Camera ℝ} {orientation : Quaternion ℝ} {pairs : List (Correspondence ℝ)} {gmst : ℝ}
    {site : Sky.Site ℝ} {config : CalibrationConfig ℝ} {f : StarFit ℝ}
    (hf : StarFit.ofCorrespondences camera orientation pairs gmst site config.faintLimit = .ok f)
    (hnone : f.covariances? = none) (hsigma : 0 < config.pixelSigma)
    (hcount : f.parameterCount ≤ f.dataCount) :
    ∃ c, calibrate camera orientation pairs gmst site config = .ok c ∧ c.start = f := by
  have hcovariance : f.dataCovariance config.pixelSigma =
      .ok (.diagonal (.replicate f.dataCount (config.pixelSigma * config.pixelSigma))) := by
    rw [StarFit.dataCovariance, hnone]
    exact DataCovariance.ofVariances_of_pos fun i => by simpa using mul_pos hsigma hsigma
  exact exists_calibrate hf hcovariance hcount fun a => hinverse a (Nat.succ_ne_zero _)

theorem calibrate_sixAboveOneBelow (x : ℝ) :
    ∃ c, calibrate StarFit.zenithCamera .identity (sixAboveOneBelow x) 0 ⟨0, 0, 0⟩ zenithConfig =
        .ok c ∧
      c.numUsed = 6 := by
  let stars := (List.range 6).map
    ((equatorPair 1 0).keptStar (Sky.Site.celestialToHorizon ⟨0, 0, 0⟩ 0))
  let f : StarFit ℝ := ⟨StarFit.zenithCamera, .identity, stars.toArray,
    (Visibility.of (sixAboveOneBelow x) toZenith 6).excluded⟩
  have hf : StarFit.ofCorrespondences StarFit.zenithCamera .identity (sixAboveOneBelow x) 0
      ⟨0, 0, 0⟩ 6 = .ok f := by
    rw [StarFit.ofCorrespondences_eq]
    dsimp only
    have hstars := keptStars_sixAboveOneBelow x (Sky.Site.celestialToHorizon ⟨0, 0, 0⟩ 0)
    exact congrArg (fun l => StarFit.ofStars StarFit.zenithCamera .identity l f.excluded) hstars
  have hsize : f.stars.size = 6 := rfl
  have hcount : f.parameterCount ≤ f.dataCount := by
    have hthree := StarFit.zenithCamera.distortion.freeCount_le_three
    simp only [StarFit.parameterCount, StarFit.intrinsicCount, Camera.parameterCount,
      StarFit.dataCount, hsize]
    show 4 + StarFit.zenithCamera.distortion.freeCount + 4 ≤ 6 * 2
    omega
  have hsigma : 0 < zenithConfig.pixelSigma := one_pos
  obtain ⟨c, hc, hstart⟩ :=
    exists_calibrate_uniform (fun a ha => exists_pseudoInverse a ha ha) hf rfl hsigma hcount
  exact ⟨c, hc, by rw [Calibration.numUsed, hstart, hsize]⟩

end Equator

namespace Calibration

/-- A calibration that returns is consistent, whether it converged or not. -/
theorem consistent [HasPseudoInverse ℝ] {camera : Camera ℝ} {orientation : Quaternion ℝ}
    {pairs : List (Correspondence ℝ)} {gmst : ℝ} {site : Sky.Site ℝ}
    {config : CalibrationConfig ℝ} {c : Calibration ℝ}
    (h : calibrate camera orientation pairs gmst site config = .ok c) :
    c.Consistent orientation pairs (site.celestialToHorizon gmst) config := by
  obtain ⟨hstart, -⟩ := calibrate_eq_ok h
  obtain ⟨covariance, hc⟩ := exists_fitted h
  obtain ⟨hsize, hstars, hkept, hexcluded⟩ := StarFit.stars_of_ofCorrespondences hstart
  let toCamera := orientation.toMatrix.mul (site.celestialToHorizon gmst)
  have hindices : c.residuals.map (·.1) = (Visibility.of pairs toCamera config.faintLimit).kept :=
    c.map_fst_residuals.trans hkept
  have honce : (c.residuals.map (·.1) ++ c.start.excluded.map (·.1)).Perm
      (List.range pairs.length) := by
    rw [hindices, hexcluded]
    exact Visibility.perm_range_of pairs toCamera config.faintLimit
  have hlength : c.residuals.length = c.numUsed := by
    rw [residuals_eq, List.length_ofFn]
    rfl
  have hcount := honce.length_eq
  rw [List.length_append, List.length_map, List.length_map, List.length_range, hlength] at hcount
  have hparameters : c.solver.parameters.toList.length = c.start.parameterCount :=
    c.solver.parameters.length_toList
  refine ⟨hindices, ?_, honce, hcount, hc.parameters_eq, ?_, hc.norm_orientation,
    fun index r hr => residual_of_mem hstart hc hr, ?_, ?_, ?_⟩
  · rw [hindices]
    exact Visibility.pairwise_kept_of pairs toCamera config.faintLimit
  · rw [hparameters, StarFit.names, List.length_append, Camera.length_parameterNames]
    rfl
  · rw [hparameters]
    exact hc.dof_add
  · rw [c.sum_residuals, c.rmsAfter_sq hsize]
  · rintro ⟨pair, hpair, hexclusion, hcovariance⟩
    refine hc.uniform hsize ?_
    obtain ⟨index, hindex⟩ := List.mem_iff_getElem?.mp hpair
    have hmem : (pair, index) ∈ Correspondence.numberedKept pairs toCamera config.faintLimit := by
      refine List.mem_filter.mpr ⟨List.mk_mem_zipIdx_iff_getElem?.mpr hindex, ?_⟩
      rw [Correspondence.isKept, hexclusion]
      rfl
    refine ⟨pair.keptStar (site.celestialToHorizon gmst) index, ?_, hcovariance⟩
    rw [hstars]
    exact List.mem_map_of_mem hmem

theorem consistent_sixAboveOneBelow :
    ∃ c, calibrate StarFit.zenithCamera .identity (sixAboveOneBelow 100) 0 ⟨0, 0, 0⟩ zenithConfig =
        .ok c ∧
      c.numUsed = 6 ∧ c.Consistent .identity (sixAboveOneBelow 100)
        (Sky.Site.celestialToHorizon ⟨0, 0, 0⟩ 0) zenithConfig := by
  obtain ⟨c, hc, hused⟩ := calibrate_sixAboveOneBelow 100
  exact ⟨c, hc, hused, consistent hc⟩

end Calibration

end SkyCamera
