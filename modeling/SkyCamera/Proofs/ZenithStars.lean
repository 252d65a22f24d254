import SkyCamera.Proofs.AffineFit
import SkyCamera.Proofs.CalibrationReport

/-!
Calibrations that can be followed by hand: a camera on the equator points to the zenith, all its
stars are there, and all of them were seen in one pixel. A fit without iterations leaves such a
camera as it was. In the first step of another all stars move alike, so the damped equations are
those of one star, and the step tilts the camera about one axis.
-/
namespace SkyCamera

open Linear Correspondence Matrix

def zenithStars (count : Nat) (x : ℝ) : List (Correspondence ℝ) :=
  .replicate count (equatorPair x 0)

theorem numberedKept_zenithStars (count : Nat) (x : ℝ) :
    numberedKept (zenithStars count x) toZenith 6 = (zenithStars count x).zipIdx := by
  refine numberedKept_of_forall fun pair hpair => ?_
  rw [List.eq_of_mem_replicate hpair, isKept_equatorPair, Real.cos_zero]
  exact decide_eq_true one_pos

theorem keptStars_zenithStars (count : Nat) (x : ℝ) (toHorizon : Mat3 ℝ) :
    keptStars (zenithStars count x) toHorizon toZenith 6 =
      (List.range count).map ((equatorPair x 0).keptStar toHorizon) := by
  rw [keptStars, numberedKept_zenithStars]
  refine List.ext_getElem (by simp [zenithStars]) fun k hk hk' => ?_
  simp [zenithStars]

def plainCamera : Camera ℝ := ⟨1, 1, 0, 1, 640, 480, .none⟩

namespace StarFit

noncomputable def ofZenith (camera : Camera ℝ) (count : Nat) (x : ℝ) : StarFit ℝ where
  camera := camera
  orientation := .identity
  stars := ((List.range count).map
    ((equatorPair x 0).keptStar (Sky.Site.celestialToHorizon ⟨0, 0, 0⟩ 0))).toArray
  excluded := []

variable (camera : Camera ℝ) (count : Nat) (x : ℝ)

theorem size_ofZenith : (ofZenith camera count x).stars.size = count := by
  simp [ofZenith]

theorem excluded_zenithStars : (Visibility.of (zenithStars count x) toZenith 6).excluded = [] := by
  have hnone := Visibility.map_fst_excluded_of (zenithStars count x) toZenith 6
  have hkept := numberedKept_zenithStars count x
  have hempty : ((zenithStars count x).zipIdx.filter fun x => !x.1.isKept toZenith 6) = [] := by
    refine List.filter_eq_nil_iff.mpr fun pair hpair => ?_
    rw [List.filter_eq_self.mp hkept pair hpair]
    decide
  rw [hempty] at hnone
  exact List.map_eq_nil_iff.mp hnone

theorem ofCorrespondences_zenithStars (hcount : count ≠ 0) :
    ofCorrespondences camera .identity (zenithStars count x) 0 ⟨0, 0, 0⟩ 6 =
      .ok (ofZenith camera count x) := by
  have hstars := keptStars_zenithStars count x (Sky.Site.celestialToHorizon ⟨0, 0, 0⟩ 0)
  have hexcluded := excluded_zenithStars count x
  rw [ofCorrespondences_eq]
  change ofStars camera .identity (keptStars (zenithStars count x) _ toZenith 6)
    (Visibility.of (zenithStars count x) toZenith 6).excluded = _
  rw [hstars, hexcluded]
  refine if_neg ?_
  simpa using hcount

variable {camera count x}

theorem star_ofZenith (k : Fin (ofZenith camera count x).stars.size) :
    (ofZenith camera count x).star k = ⟨k, ⟨0, 0, 1⟩, x, 1, none⟩ := by
  have hstar : (ofZenith camera count x).star k =
      (equatorPair x 0).keptStar (Sky.Site.celestialToHorizon ⟨0, 0, 0⟩ 0) k := by
    show (ofZenith camera count x).stars[k.val] = _
    simp [ofZenith]
  rw [hstar, keptStar, celestialToHorizon_equatorPair]
  rfl

theorem exists_star_ofZenith (hcount : count ≠ 0) :
    ∃ star ∈ (ofZenith camera count x).stars.toList, star.covariance = none := by
  have hfirst : 0 < (ofZenith camera count x).stars.size := by
    rw [size_ofZenith]
    exact Nat.pos_of_ne_zero hcount
  exact ⟨_, Array.getElem_mem_toList hfirst,
    congrArg KeptStar.covariance (star_ofZenith ⟨0, hfirst⟩)⟩

end StarFit

/-- Whatever the pseudo-inverse, a calibration of enough zenith stars returns. -/
theorem exists_calibrate_zenithStars_of_inverses [HasPseudoInverse ℝ]
    (hinverse : ∀ {n : Nat} (a : Mat ℝ n n), n ≠ 0 → ∃ x, pseudoInverse a = .ok x)
    (camera : Camera ℝ) (count : Nat) (x : ℝ) (config : CalibrationConfig ℝ)
    (hlimit : config.faintLimit = 6) (hsigma : 0 < config.pixelSigma)
    (hcount : camera.parameterCount + 4 ≤ count * 2) :
    ∃ c, calibrate camera .identity (zenithStars count x) 0 ⟨0, 0, 0⟩ config = .ok c ∧
      c.start = .ofZenith camera count x := by
  have hpositive : count ≠ 0 := by omega
  have hf := StarFit.ofCorrespondences_zenithStars camera count x hpositive
  rw [← hlimit] at hf
  refine exists_calibrate_uniform hinverse hf
    (StarFit.covariances?_eq_none_iff.mpr (StarFit.exists_star_ofZenith hpositive)) hsigma ?_
  rw [StarFit.dataCount, StarFit.size_ofZenith]
  exact hcount

theorem exists_calibrate_zenithStars (camera : Camera ℝ) (count : Nat) (x : ℝ)
    (config : CalibrationConfig ℝ) (hlimit : config.faintLimit = 6)
    (hsigma : 0 < config.pixelSigma) (hcount : camera.parameterCount + 4 ≤ count * 2) :
    ∃ c, calibrate camera .identity (zenithStars count x) 0 ⟨0, 0, 0⟩ config = .ok c ∧
      c.start = .ofZenith camera count x :=
  exists_calibrate_zenithStars_of_inverses (fun a ha => exists_pseudoInverse a ha ha) camera count x
    config hlimit hsigma hcount

/-- Without iterations the camera is reported as it was given. -/
theorem camera_of_zenithStars [HasPseudoInverse ℝ] {camera : Camera ℝ} {count : Nat} {x : ℝ}
    {config : CalibrationConfig ℝ} {c : Calibration ℝ}
    (hc : calibrate camera .identity (zenithStars count x) 0 ⟨0, 0, 0⟩ config = .ok c)
    (hstart : c.start = .ofZenith camera count x) (hlimit : config.maxIterations = 0) :
    c.camera = camera := by
  have hparameters := Calibration.parameters_of_noIterations hc hlimit
  have horientation : c.start.orientation = .identity := by rw [hstart]; rfl
  rw [Calibration.camera, hparameters, c.start.withUnitQuaternion_initial horientation,
    StarFit.cameraAt_initial, hstart]
  rfl

namespace StarFit

/-- At `pt` all stars move alike with the parameters, by `rowI` and `rowJ` in the two coordinates,
and all have the residual `pair`. -/
structure MovesAlike (f : StarFit ℝ) {m : Nat} (problem : Problem ℝ m f.dataCount)
    (pt : Point ℝ m f.dataCount) (rowI rowJ : Fin m → ℝ) (pair : ℝ × ℝ) : Prop where
  weightMatrix_eq : problem.covariance.weightMatrix = 1
  jacobian_eq : ∀ k e c, (problem.model.jacobian pt.parameters).toMatrix (f.place k e) c =
    coordinate (rowI c, rowJ c) e
  residual_eq : ∀ k e, (coords problem.data - coords pt.values) (f.place k e) = coordinate pair e

namespace MovesAlike

variable {f : StarFit ℝ} {m : Nat} {problem : Problem ℝ m f.dataCount} {pt : Point ℝ m f.dataCount}
  {rowI rowJ : Fin m → ℝ} {pair : ℝ × ℝ} (h : f.MovesAlike problem pt rowI rowJ pair)
include h

theorem posDef_weightMatrix : problem.covariance.weightMatrix.PosDef :=
  h.weightMatrix_eq ▸ Matrix.PosDef.one

/-- What a step leaves of the normal equations. -/
theorem mulVec_sub_gradient (step : Fin m → ℝ) (c : Fin m) :
    ((problem.equations pt).matrix.toMatrix *ᵥ step - coords (problem.equations pt).gradient) c =
      f.stars.size * (rowI c * (rowI ⬝ᵥ step - pair.1) + rowJ c * (rowJ ⬝ᵥ step - pair.2)) := by
  let j := (problem.model.jacobian pt.parameters).toMatrix
  have hj : ∀ k e c, j (f.place k e) c = coordinate (rowI c, rowJ c) e := h.jacobian_eq
  have hstep (k : Fin f.stars.size) (e : Fin 2) :
      (j *ᵥ step) (f.place k e) = coordinate (rowI ⬝ᵥ step, rowJ ⬝ᵥ step) e := by
    show ∑ c, j (f.place k e) c * step c = _
    simp only [hj]
    by_cases he : e.val = 0
    · simp [coordinate, he, dotProduct]
    · simp [coordinate, he, dotProduct]
  rw [problem.mulVec_sub_gradient pt h.posDef_weightMatrix, h.weightMatrix_eq, Matrix.one_mulVec]
  show ∑ i, j i c * ((j *ᵥ step) i - (coords problem.data - coords pt.values) i) = _
  rw [f.sum_places]
  simp only [hj, hstep, h.residual_eq, Fin.sum_univ_two]
  simp [coordinate, mul_add]

/-- All stars have the same rows, so that a sum over the stars is a multiple. -/
theorem diagonal_eq (c : Fin m) : (problem.equations pt).matrix.toMatrix c c =
    f.stars.size * (rowI c * rowI c + rowJ c * rowJ c) := by
  have hone := h.mulVec_sub_gradient (Pi.single c 1) c
  have hzero := h.mulVec_sub_gradient 0 c
  rw [Pi.sub_apply, Matrix.mulVec_single_one, dotProduct_single_one, dotProduct_single_one] at hone
  rw [Pi.sub_apply, Matrix.mulVec_zero, dotProduct_zero, dotProduct_zero] at hzero
  simp only [Matrix.col_apply, Pi.zero_apply] at hone hzero
  linarith

theorem chi2_eq :
    problem.chi2 pt.values = f.stars.size * (pair.1 * pair.1 + pair.2 * pair.2) := by
  rw [Problem.chi2, DataCovariance.chi2_real, h.weightMatrix_eq, Matrix.one_mulVec, coords_sub]
  show ∑ i, (coords problem.data - coords pt.values) i *
    (coords problem.data - coords pt.values) i = _
  rw [f.sum_places]
  simp only [h.residual_eq, Fin.sum_univ_two]
  simp [coordinate, mul_add]

/-- The damped step, by its equations. -/
theorem exists_solveDamped {damping : ℝ} (hdamping : 0 < damping) :
    ∃ step, solveDamped (problem.equations pt).matrix (problem.equations pt).gradient damping =
        some step ∧ ∀ c,
      f.stars.size * (rowI c * (rowI ⬝ᵥ coords step - pair.1) +
          rowJ c * (rowJ ⬝ᵥ coords step - pair.2)) +
        damping * (Scalar.atLeast dampingFloor
          (f.stars.size * (rowI c * rowI c + rowJ c * rowJ c)) * coords step c) = 0 := by
  have hnormal := problem.posSemidef_equations pt h.posDef_weightMatrix
  obtain ⟨step, hstep, hsolves⟩ := Linear.exists_solveDamped hnormal hdamping
    (problem.equations pt).gradient
  refine ⟨step, hstep, fun c => ?_⟩
  have hrow := congrFun hsolves c
  rw [toMatrix_damped, toMatrix_flooredDiagonal, Matrix.add_mulVec, Matrix.smul_mulVec,
    Pi.add_apply, Pi.smul_apply, Matrix.mulVec_diagonal, h.diagonal_eq, smul_eq_mul] at hrow
  rw [← h.mulVec_sub_gradient, Pi.sub_apply]
  linarith

end MovesAlike

variable (count : Nat) (x : ℝ)

theorem jacobian_plainCamera (k : Fin (ofZenith plainCamera count x).stars.size) (e : Fin 2)
    (c : Fin 8) :
    ((ofZenith plainCamera count x).jacobian (ofZenith plainCamera count x).initial).toMatrix
      ((ofZenith plainCamera count x).place k e) c =
        coordinate (![0, 0, 1, 0, 0, 0, 2, 0] c, ![0, 0, 0, 1, 0, -2, 0, 0] c) e := by
  let f := ofZenith plainCamera count x
  have hrows : rowsOf plainCamera .identity (f.star k) =
      ([0, 0, 1, 0, 0, 0, 2, 0], [0, 0, 0, 1, 0, -2, 0, 0]) := by
    rw [rowsOf_zenith plainCamera (congrArg KeptStar.direction (star_ofZenith k))]
    simp [plainCamera, Distortion.freeCount]
  refine (f.jacobian_place _ k e c).trans ?_
  rw [cameraAt_initial, quaternionAt_initial]
  refine (congrArg (fun rows => (coordinate rows e).getD c 0) hrows).trans ?_
  fin_cases e
  · fin_cases c <;> rfl
  · fin_cases c <;> rfl

/-- The star is seen in the principal point. -/
theorem residual_plainCamera (k : Fin (ofZenith plainCamera count x).stars.size) (e : Fin 2) :
    (coords (ofZenith plainCamera count x).observed -
      coords ((ofZenith plainCamera count x).values (ofZenith plainCamera count x).initial))
        ((ofZenith plainCamera count x).place k e) = coordinate (x, 0) e := by
  let f := ofZenith plainCamera count x
  have hturned : rotate .identity ⟨0, 0, 1⟩ = (⟨0, 0, 1⟩ : Vec3 ℝ) := by
    simp [rotate, Quaternion.identity, Vec3.dot, Vec3.cross, Vec3.scale, Vec3.add_def]
  have hproject : plainCamera.project ⟨0, 0, 1⟩ = some (0, 1) := by
    simp [Camera.project, Camera.tangentToPixel, plainCamera, Distortion.distort]
  have hpixel : pixelOf plainCamera .identity ⟨k, ⟨0, 0, 1⟩, x, 1, none⟩ = #v[0, 1] := by
    rw [pixelOf, hturned, hproject]
    rfl
  show f.observed[f.place k e] - (f.values f.initial)[f.place k e] = _
  rw [observed_place, values_place, cameraAt_initial, quaternionAt_initial, star_ofZenith]
  change #v[x, 1][e] - (pixelOf plainCamera .identity ⟨k, ⟨0, 0, 1⟩, x, 1, none⟩)[e] = _
  rw [hpixel]
  fin_cases e
  · simp [coordinate]
  · simp [coordinate]

/-- The first step of a fit with unit variances. -/
theorem movesAlike_plainCamera {config : CalibrationConfig ℝ}
    (hmode : config.jacobian = .analytic) :
    let f := ofZenith plainCamera count x
    let problem := f.problemUnder config (.diagonal (.replicate f.dataCount 1))
    f.MovesAlike problem (problem.point f.initial) (![0, 0, 1, 0, 0, 0, 2, 0] : Fin 8 → ℝ)
      (![0, 0, 0, 1, 0, -2, 0, 0] : Fin 8 → ℝ) (x, 0) := by
  intro f problem
  have hparameters : (problem.point f.initial).parameters = f.initial :=
    f.withUnitQuaternion_initial rfl
  refine ⟨?_, fun k e c => ?_, fun k e => ?_⟩
  · ext i j
    simp [problem, problemUnder, solverUnder, Solver.problem, DataCovariance.weightMatrix,
      Matrix.one_apply]
  · have hjacobian : problem.model.jacobian f.initial = f.jacobian f.initial :=
      f.jacobian_model hmode f.initial
    rw [hparameters, hjacobian]
    exact jacobian_plainCamera count x k e c
  · have hvalues : (problem.point f.initial).values = f.values f.initial :=
      congrArg f.values hparameters
    rw [hvalues]
    exact residual_plainCamera count x k e

/-- At the start a derivative is zero or not below one. -/
theorem one_le_sq_rowsOf_start (c : Fin 8) (e : Fin 2) :
    let entry := coordinate ((![0, 0, 1, 0, 0, 0, 2, 0] : Fin 8 → ℝ) c,
      (![0, 0, 0, 1, 0, -2, 0, 0] : Fin 8 → ℝ) c) e
    entry = 0 ∨ 1 ≤ entry ^ 2 := by
  intro entry
  fin_cases e
  · fin_cases c
    all_goals norm_num [entry, coordinate]
  · fin_cases c
    all_goals norm_num [entry, coordinate]

theorem quaternionAt_add {f : StarFit ℝ} (p step : Vector ℝ f.parameterCount) :
    f.quaternionAt (p + step) =
      ⟨(f.quaternionAt p).w + (f.quaternionAt step).w,
        (f.quaternionAt p).x + (f.quaternionAt step).x,
        (f.quaternionAt p).y + (f.quaternionAt step).y,
        (f.quaternionAt p).z + (f.quaternionAt step).z⟩ := by
  simp [quaternionAt]

/-- The damped equations of two parameters that move a pixel along one axis, the second one twice as
far as the first. -/
theorem pair_of_solves {size damping a b r : ℝ} (hsize : 0 < size) (hdamping : 0 < damping)
    (hfirst : size * (a + 2 * b - r) + damping * (size * a) = 0)
    (hsecond : size * (2 * (a + 2 * b - r)) + damping * (size * 4 * b) = 0) :
    a = 2 * b ∧ (4 + 2 * damping) * b = r := by
  have hboth : damping * size ≠ 0 := mul_ne_zero hdamping.ne' hsize.ne'
  have hratio : a = 2 * b := mul_left_cancel₀ hboth (by linarith)
  rw [hratio] at hfirst
  exact ⟨hratio, mul_left_cancel₀ hsize.ne' (by linarith)⟩

/-- The damped equations leave no way but along the first axis and about the second. -/
theorem tilt_of_solves {size : ℝ} (hsize : 1 ≤ size) {step rowI rowJ : Fin 8 → ℝ}
    (hrowI : rowI = ![0, 0, 1, 0, 0, 0, 2, 0]) (hrowJ : rowJ = ![0, 0, 0, 1, 0, -2, 0, 0])
    {damping : ℝ} (hdamping : 0 < damping)
    (hsolves : ∀ c, size * (rowI c * (rowI ⬝ᵥ step - x) + rowJ c * (rowJ ⬝ᵥ step - 0)) +
      damping * (Scalar.atLeast dampingFloor (size * (rowI c * rowI c + rowJ c * rowJ c)) *
        step c) = 0) :
    step = ![0, 0, 2 * step 6, 0, 0, 0, step 6, 0] ∧ (4 + 2 * damping) * step 6 = x := by
  have hpositive : 0 < size := one_pos.trans_le hsize
  have hfloor {y : ℝ} (hy : 1 ≤ y) : Scalar.atLeast dampingFloor (size * y) = size * y := by
    refine if_pos (le_trans ?_ (one_le_mul_of_one_le_of_one_le hsize hy))
    unfold dampingFloor
    norm_num
  have hI : rowI ⬝ᵥ step = step 2 + 2 * step 6 := by
    simp [hrowI, dotProduct, Fin.sum_univ_eight]
  have hJ : rowJ ⬝ᵥ step = step 3 - 2 * step 5 := by
    simp [hrowJ, dotProduct, Fin.sum_univ_eight, sub_eq_add_neg]
  subst hrowI hrowJ
  rw [hI, hJ, sub_zero] at hsolves
  have hrow {c : Fin 8} {i j : ℝ} (hi : (![0, 0, 1, 0, 0, 0, 2, 0] : Fin 8 → ℝ) c = i)
      (hj : (![0, 0, 0, 1, 0, -2, 0, 0] : Fin 8 → ℝ) c = j) :
      size * (i * (step 2 + 2 * step 6 - x) + j * (step 3 - 2 * step 5)) +
        damping * (Scalar.atLeast dampingFloor (size * (i * i + j * j)) * step c) = 0 := by
    rw [← hi, ← hj]
    exact hsolves c
  have hzero (c : Fin 8) (hi : (![0, 0, 1, 0, 0, 0, 2, 0] : Fin 8 → ℝ) c = 0)
      (hj : (![0, 0, 0, 1, 0, -2, 0, 0] : Fin 8 → ℝ) c = 0) : step c = 0 := by
    have hleast := Scalar.atLeast_pos dampingFloor_pos 0
    simpa [hdamping.ne', hleast.ne'] using hrow hi hj
  have h2 := hrow (c := 2) (i := 1) (j := 0) rfl rfl
  have h3 := hrow (c := 3) (i := 0) (j := 1) rfl rfl
  have h5 := hrow (c := 5) (i := 0) (j := -2) rfl rfl
  have h6 := hrow (c := 6) (i := 2) (j := 0) rfl rfl
  rw [hfloor (by norm_num)] at h2 h3 h5 h6
  obtain ⟨hfirst, htilt⟩ : step 2 = 2 * step 6 ∧ (4 + 2 * damping) * step 6 = x :=
    pair_of_solves hpositive hdamping (by linarith) (by linarith)
  obtain ⟨hsecond, hlevel⟩ : step 3 = 2 * -step 5 ∧ (4 + 2 * damping) * -step 5 = 0 :=
    pair_of_solves hpositive hdamping (by linarith) (by linarith)
  have hfive : -step 5 = 0 := (mul_eq_zero.mp hlevel).resolve_left (by positivity)
  rw [hfive, mul_zero] at hsecond
  refine ⟨?_, htilt⟩
  funext c
  fin_cases c
  · exact hzero 0 rfl rfl
  · exact hzero 1 rfl rfl
  · exact hfirst
  · exact hsecond
  · exact hzero 4 rfl rfl
  · exact neg_eq_zero.mp hfive
  · rfl
  · exact hzero 7 rfl rfl

/-- The first damping of a fit with unit variances. -/
theorem damping_plainCamera {config : CalibrationConfig ℝ} (hmode : config.jacobian = .analytic)
    (hcount : count ≠ 0) :
    let f := ofZenith plainCamera count x
    let problem := f.problemUnder config (.diagonal (.replicate f.dataCount 1))
    (problem.firstIterate f.initial).damping = 0.00125 * count := by
  intro f problem
  have hsum : ∑ c, (problem.firstIterate f.initial).equations.matrix.toMatrix c c = 10 * count := by
    refine (Finset.sum_congr rfl fun c _ =>
      (movesAlike_plainCamera count x hmode).diagonal_eq c).trans ?_
    rw [size_ofZenith]
    refine (Fin.sum_univ_eight _).trans ?_
    simp
    ring
  have height : (f.parameterCount : ℝ) = 8 := by
    have hlength : f.parameterCount = 8 := rfl
    rw [hlength]
    norm_num
  have hmean : Scalar.sum (fun c : Fin f.parameterCount =>
      (problem.firstIterate f.initial).equations.matrix[c][c]) / (f.parameterCount : ℝ) =
        1.25 * count := by
    rw [Scalar.sum_real, height]
    refine (congrArg (· / 8) hsum).trans ?_
    ring
  have hpositive : 0 < (1.25 : ℝ) * count :=
    mul_pos (by norm_num) (Nat.cast_pos.mpr (Nat.pos_of_ne_zero hcount))
  refine (Problem.firstDamping_of_pos (Nat.succ_ne_zero _) hmean hpositive).trans ?_
  ring

/-- Without distortion the first four parameters are the intrinsics. -/
theorem cameraAt_plainCamera (p : Vector ℝ 8) :
    (ofZenith plainCamera count x).cameraAt p = ⟨p[0], p[1], p[2], p[3], 640, 480, .none⟩ := by
  have hfour : p.toList.take 4 = [p[0], p[1], p[2], p[3]] :=
    List.ext_getElem (by simp) fun k hk hk' => by
      simp only [List.length_cons, List.length_nil] at hk'
      interval_cases k <;> simp
  exact congrArg plainCamera.withParameters hfour

/-- From where all stars are in the zenith, a damped step tilts the camera towards the pixel. -/
theorem exists_tilt {config : CalibrationConfig ℝ} (hmode : config.jacobian = .analytic)
    (hcount : count ≠ 0) {damping : ℝ} (hdamping : 0 < damping) :
    let f := ofZenith plainCamera count x
    let problem := f.problemUnder config (.diagonal (.replicate f.dataCount 1))
    let equations := problem.equations (problem.point f.initial)
    ∃ step s, solveDamped equations.matrix equations.gradient damping = some step ∧
      (4 + 2 * damping) * s = x ∧
      f.cameraAt (f.initial + step) = { plainCamera with pi := 2 * s } ∧
      f.quaternionAt (f.initial + step) = ⟨1, 0, s, 0⟩ := by
  intro f problem equations
  obtain ⟨step, hstep, hsolves⟩ :=
    (movesAlike_plainCamera count x hmode).exists_solveDamped hdamping
  have hsize : 1 ≤ ((ofZenith plainCamera count x).stars.size : ℝ) := by
    rw [size_ofZenith, Nat.one_le_cast]
    exact Nat.pos_of_ne_zero hcount
  let turn : Fin 8 → ℝ := coords step
  obtain ⟨hturn, htilt⟩ : turn = ![0, 0, 2 * turn 6, 0, 0, 0, turn 6, 0] ∧
      (4 + 2 * damping) * turn 6 = x := tilt_of_solves x hsize rfl rfl hdamping hsolves
  have hentry (c : Fin 8) : turn c = ![0, 0, 2 * turn 6, 0, 0, 0, turn 6, 0] c := congrFun hturn c
  refine ⟨step, turn 6, hstep, htilt, ?_, ?_⟩
  · obtain ⟨h0, h1, h2, h3, -⟩ := Camera.mk.inj
      ((cameraAt_plainCamera count x f.initial).symm.trans f.cameraAt_initial)
    have hsum (c : Fin 8) {start : ℝ} (h : f.initial[c.val] = start) : (f.initial + step)[c.val] =
        start + ![0, 0, 2 * turn 6, 0, 0, 0, turn 6, 0] c := by
      rw [← h, ← hentry]
      exact Vector.getElem_add ..
    refine (cameraAt_plainCamera count x (f.initial + step)).trans ?_
    rw [Camera.mk.injEq]
    exact ⟨(hsum 0 h0).trans (add_zero 1), (hsum 1 h1).trans (add_zero 1),
      (hsum 2 h2).trans (zero_add _), (hsum 3 h3).trans (add_zero 1), rfl, rfl, rfl⟩
  · rw [quaternionAt_add, quaternionAt_initial]
    show (⟨1 + turn 4, 0 + turn 5, 0 + turn 6, 0 + turn 7⟩ : Quaternion ℝ) = _
    rw [hentry 4, hentry 5, hentry 7]
    simp

theorem rotate_tilt (w y : ℝ) :
    rotate ⟨w, 0, y, 0⟩ ⟨0, 0, 1⟩ = (⟨2 * w * y, 0, w * w - y * y⟩ : Vec3 ℝ) := by
  simp [rotate, Vec3.dot, Vec3.cross, Vec3.scale, Vec3.add_def, mul_comm, mul_left_comm]

theorem rotateSlopes_tilt (w y : ℝ) :
    rotateSlopes ⟨w, 0, y, 0⟩ ⟨0, 0, 1⟩ =
      ([⟨2 * y, 0, 2 * w⟩, ⟨0, -(2 * w), 0⟩, ⟨2 * w, 0, -(2 * y)⟩, ⟨0, 2 * y, 0⟩] :
        List (Vec3 ℝ)) := by
  simp [rotateSlopes, Vec3.dot, Vec3.cross, Vec3.scale, Vec3.add_def, mul_comm]

/-- The rows of a star in the zenith for a camera that is tilted by less than a right angle. -/
theorem rowsOf_tilt {w y z : ℝ} (hunit : w * w + y * y = 1) (hz : w * w - y * y = z)
    (hdepth : 0 < z) (pi : ℝ) {star : KeptStar ℝ} (hdirection : star.direction = ⟨0, 0, 1⟩) :
    rowsOf { plainCamera with pi } ⟨w, 0, y, 0⟩ star =
      ([2 * w * y / z, 0, 1, 0, -(2 * y / z ^ 2), 0, 2 * w / z ^ 2, 0],
        [0, 0, 0, 1, 0, -(2 * w / z), 0, 2 * y / z]) := by
  rw [rowsOf, hdirection, rotate_tilt, rotateSlopes_tilt, hz, Camera.projectWithSlopes,
    if_neg (not_le.mpr hdepth)]
  -- The derivatives by the first and the third component of the quaternion.
  have hfirst : 2 * y / z + -(2 * w * y / z * z⁻¹ * (2 * w)) = -(2 * y / z ^ 2) := by
    field_simp
    linear_combination -y * hz - y * hunit
  have hthird : 2 * w / z + 2 * w * y / z * z⁻¹ * (2 * y) = 2 * w / z ^ 2 := by
    field_simp
    linear_combination w * hunit - w * hz
  simp [plainCamera, Distortion.scaleAndSlope, Distortion.freeCount, Camera.geometric, Vec3.dot,
    Vec3.scale, Vec3.add_def, hfirst, hthird, inv_mul_eq_div]
theorem jacobian_tilt {p : Vector ℝ (ofZenith plainCamera count x).parameterCount} {pi w y z : ℝ}
    (hcamera : (ofZenith plainCamera count x).cameraAt p = { plainCamera with pi })
    (hquaternion : (ofZenith plainCamera count x).quaternionAt p = ⟨w, 0, y, 0⟩)
    (hunit : w * w + y * y = 1) (hz : w * w - y * y = z) (hdepth : 0 < z)
    (k : Fin (ofZenith plainCamera count x).stars.size) (e : Fin 2) (c : Fin 8) :
    ((ofZenith plainCamera count x).jacobian p).toMatrix
      ((ofZenith plainCamera count x).place k e) c =
        coordinate (![2 * w * y / z, 0, 1, 0, -(2 * y / z ^ 2), 0, 2 * w / z ^ 2, 0] c,
          ![0, 0, 0, 1, 0, -(2 * w / z), 0, 2 * y / z] c) e := by
  let f := ofZenith plainCamera count x
  have hrows : rowsOf (f.cameraAt p) (f.quaternionAt p) (f.star k) =
      ([2 * w * y / z, 0, 1, 0, -(2 * y / z ^ 2), 0, 2 * w / z ^ 2, 0],
        [0, 0, 0, 1, 0, -(2 * w / z), 0, 2 * y / z]) := by
    rw [hcamera, hquaternion]
    exact rowsOf_tilt hunit hz hdepth pi (congrArg KeptStar.direction (star_ofZenith k))
  refine (f.jacobian_place p k e c).trans ?_
  refine (congrArg (fun rows => (coordinate rows e).getD c 0) hrows).trans ?_
  fin_cases e
  · fin_cases c <;> rfl
  · fin_cases c <;> rfl

/-- A tilt by less than a right angle, as a unit quaternion. -/
theorem exists_unit_tilt {s : ℝ} (hs : 1 / 2 ≤ s) (hle : s < 1) :
    ∃ w y, unitOrIdentity ⟨1, 0, s, 0⟩ = ⟨w, 0, y, 0⟩ ∧ 0 < w ∧ w ≤ 2 * y ∧ w * w + y * y = 1 ∧
      0 < w * w - y * y := by
  let q : Quaternion ℝ := ⟨1, 0, s, 0⟩
  have hq : 0 < q.norm := q.norm_pos fun h => one_ne_zero (congrArg Quaternion.w h)
  have hone : q.norm⁻¹ * q.norm⁻¹ + s * q.norm⁻¹ * (s * q.norm⁻¹) = 1 := by
    have hsquare : q.norm * q.norm = 1 + s * s := by
      refine (Real.mul_self_sqrt ?_).trans ?_
      · positivity
      · ring
    field_simp
    linarith
  have hw : 0 < q.norm⁻¹ := inv_pos.mpr hq
  refine ⟨q.norm⁻¹, s * q.norm⁻¹, ?_, hw, by nlinarith, hone, ?_⟩
  · rw [unitOrIdentity, if_pos ⟨hq, Scalar.isFinite_real _⟩, Quaternion.normalize_eq_scale]
    simp only [Quaternion.scale, one_mul, zero_mul]
    rfl
  · have hproduct : s * s < 1 := by nlinarith
    nlinarith [mul_pos hw hw]

/-- At such a tilt a derivative is zero or not below one. -/
theorem one_le_sq_rowsOf_tilt {w y z : ℝ} (hw : 0 < w) (hwy : w ≤ 2 * y) (hunit : w * w + y * y = 1)
    (hz : w * w - y * y = z) (hdepth : 0 < z) (c : Fin 8) (e : Fin 2) :
    let entry := coordinate
      ((![2 * w * y / z, 0, 1, 0, -(2 * y / z ^ 2), 0, 2 * w / z ^ 2, 0] : Fin 8 → ℝ) c,
        (![0, 0, 0, 1, 0, -(2 * w / z), 0, 2 * y / z] : Fin 8 → ℝ) c) e
    entry = 0 ∨ 1 ≤ entry ^ 2 := by
  intro entry
  have hle : w ≤ 1 := by nlinarith
  have hzw : z ≤ w * w := by nlinarith
  have hww : w * w ≤ w := mul_le_of_le_one_left hw.le hle
  have hzz : z ^ 2 ≤ z := by
    rw [sq]
    exact mul_le_of_le_one_left hdepth.le (hzw.trans (hww.trans hle))
  have hratio {a b : ℝ} (hb : 0 < b) (hba : b ≤ a) : 1 ≤ (a / b) ^ 2 :=
    one_le_pow₀ ((one_le_div hb).mpr hba)
  have hsquare : 0 < z ^ 2 := pow_pos hdepth 2
  have hfi : 1 ≤ (2 * w * y / z) ^ 2 := hratio hdepth (by nlinarith)
  have hx : 1 ≤ (2 * w / z) ^ 2 := hratio hdepth (by linarith)
  have hz' : 1 ≤ (2 * y / z) ^ 2 := hratio hdepth (by linarith)
  have hw' : 1 ≤ (2 * y / z ^ 2) ^ 2 := hratio hsquare (by linarith)
  have hy' : 1 ≤ (2 * w / z ^ 2) ^ 2 := hratio hsquare (by linarith)
  fin_cases e
  · fin_cases c
    all_goals simp [entry, coordinate, hfi, hw', hy']
  · fin_cases c
    all_goals simp [entry, coordinate, hx, hz']
end StarFit
end SkyCamera
