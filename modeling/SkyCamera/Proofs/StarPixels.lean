import SkyCamera.Proofs.GreedyMatching
import SkyCamera.Proofs.KeptStars
import SkyCamera.Proofs.RotationSlopes
import SkyCamera.Proofs.Rotations
import SkyCamera.Proofs.StarLayout

/-!
Where a calibration models its stars, and how they move with its parameters. The quaternion is used
as it stands, without division by its norm; in exact arithmetic the pixels are nevertheless those of
the camera and the orientation that a calibration reports, and at the start those that stars are
selected and matched with. An intrinsic parameter changes the camera and leaves the orientation, a
component of the quaternion changes the orientation and leaves the camera, and the rows of a star in
the Jacobian list the derivatives of its pixel in this order.
-/
namespace SkyCamera.StarFit

section Kept

variable {α : Type} [Scalar α] {camera : Camera α} {orientation : Quaternion α}
  {pairs : List (Correspondence α)} {gmst : α} {site : Sky.Site α} {limit : α} {f : StarFit α}

theorem camera_of_ofCorrespondences
    (hf : ofCorrespondences camera orientation pairs gmst site limit = .ok f) :
    f.camera = camera ∧ f.orientation = orientation := by
  simp only [ofCorrespondences] at hf
  split at hf
  · cases hf
  · cases hf
    exact ⟨rfl, rfl⟩

/-- A kept star is one of the correspondences, seen from the horizon frame, and none that is left
out. -/
theorem exists_correspondence
    (hf : ofCorrespondences camera orientation pairs gmst site limit = .ok f)
    {star : KeptStar α} (hstar : star ∈ f.stars.toList) :
    ∃ c, pairs[star.index]? = some c ∧
      star.direction = (site.celestialToHorizon gmst).mulVec c.star.direction ∧
      (star.i, star.j) = (c.source.x, c.source.y) ∧
      c.star.exclusion? (orientation.toMatrix.mul (site.celestialToHorizon gmst)) limit = none := by
  simp only [ofCorrespondences] at hf
  split at hf
  · cases hf
  · cases hf
    obtain ⟨⟨c, index⟩, hpair, hkept⟩ := List.mem_filterMap.mp hstar
    cases hexclusion : c.star.exclusion?
        (orientation.toMatrix.mul (site.celestialToHorizon gmst)) limit with
    | none =>
      simp only [hexclusion, Option.some.injEq] at hkept
      subst hkept
      exact ⟨c, List.mk_mem_zipIdx_iff_getElem?.mp hpair, rfl, rfl, hexclusion⟩
    | some reason => simp only [hexclusion, reduceCtorEq] at hkept

end Kept

section Image

variable (f : StarFit ℝ)

noncomputable def scaleQuaternion (a : ℝ) (p : Vector ℝ f.parameterCount) :
    Vector ℝ f.parameterCount :=
  .ofFn fun c => if f.intrinsicCount ≤ c.val then p[c] * a else p[c]

theorem cameraAt_scaleQuaternion (a : ℝ) (p : Vector ℝ f.parameterCount) :
    f.cameraAt (f.scaleQuaternion a p) = f.cameraAt p :=
  f.cameraAt_congr fun c hc => by simp [scaleQuaternion, hc]

theorem quaternionAt_scaleQuaternion (a : ℝ) (p : Vector ℝ f.parameterCount) :
    f.quaternionAt (f.scaleQuaternion a p) = (f.quaternionAt p).scale a := by
  simp [quaternionAt, scaleQuaternion, Quaternion.scale]

/-- The norm of the quaternion does not enter the modelled pixels. -/
theorem values_scaleQuaternion {a : ℝ} (ha : a ≠ 0) (p : Vector ℝ f.parameterCount) :
    f.values (f.scaleQuaternion a p) = f.values p := by
  have hpixel (k : Fin f.stars.size) :
      pixelOf (f.cameraAt (f.scaleQuaternion a p)) (f.quaternionAt (f.scaleQuaternion a p))
        f.stars[k] = pixelOf (f.cameraAt p) (f.quaternionAt p) f.stars[k] := by
    rw [cameraAt_scaleQuaternion, quaternionAt_scaleQuaternion, pixelOf,
      project_rotate_scale _ _ ha, pixelOf]
  exact congrArg (fun rows : Fin f.stars.size → Vector ℝ 2 => (Vector.ofFn rows).flatten)
    (funext hpixel)

/-- The projection of the fit is that of the reported orientation. -/
theorem project_rotate_eq (p : Vector ℝ f.parameterCount)
    (hp : f.quaternionAt p ≠ ⟨0, 0, 0, 0⟩) (c : Camera ℝ) (s : Vec3 ℝ) :
    c.project (rotate (f.quaternionAt p) s) =
      c.project ((f.orientationAt p).toMatrix.mulVec s) := by
  have hnorm := (f.quaternionAt p).norm_pos hp
  have horientation : f.orientationAt p = (f.quaternionAt p).scale (f.quaternionAt p).norm⁻¹ := by
    have hzero : ¬ Scalar.IsZero (f.quaternionAt p).norm := by
      rw [Scalar.isZero_real_iff]
      exact hnorm.ne'
    rw [orientationAt, if_neg hzero, Quaternion.normalize_eq_scale]
  rw [horientation, ← rotate_eq_mulVec, project_rotate_scale _ _ (inv_ne_zero hnorm.ne')]

/-- Star `k` of a calibration as the image of the correspondence `c`, where `toHorizon` turns the
celestial frame into the horizon frame. -/
structure Projects (toHorizon : Mat3 ℝ) (k : Fin f.stars.size) (c : Correspondence ℝ) : Prop where
  /-- The modelled pixel is that of the reported camera and orientation, and the observed one where
  these do not see the star. -/
  pixel_eq : ∀ p : Vector ℝ f.parameterCount, f.quaternionAt p ≠ ⟨0, 0, 0, 0⟩ →
    f.pixelAt p k =
      ((f.cameraAt p).project
        (((f.orientationAt p).toMatrix.mul toHorizon).mulVec c.star.direction)).getD
          (c.source.x, c.source.y)
  /-- At the start the star is in front of the camera, in the fit and under the matrix alike. -/
  in_front : rotate (f.quaternionAt f.initial) f.stars[k].direction =
      (f.orientation.toMatrix.mul toHorizon).mulVec c.star.direction ∧
    0 < ((f.orientation.toMatrix.mul toHorizon).mulVec c.star.direction).z
  project_start :
    f.camera.project ((f.orientation.toMatrix.mul toHorizon).mulVec c.star.direction) =
      some (f.pixelAt f.initial k)
  /-- Predictions for the star are made at the pixel of the start. -/
  predicted : ∀ (stars : List (Sky.Star ℝ)) (limit : ℝ),
    ∀ seen ∈ f.camera.starsSeen stars (f.orientation.toMatrix.mul toHorizon) limit,
      seen.star = c.star → (seen.i, seen.j) = f.pixelAt f.initial k
  /-- Matching measures distances from the same pixel. -/
  matched : ∀ (stars : List (Sky.Star ℝ)) (limit : ℝ) (sources : List (Source ℝ × Nat))
    (radius : ℝ), ∀ candidate ∈ Matching.candidates sources
      (f.camera.starsSeen stars (f.orientation.toMatrix.mul toHorizon) limit) radius,
      candidate.star = c.star → candidate.distanceSquared =
        candidate.source.distanceSquared (f.pixelAt f.initial k).1 (f.pixelAt f.initial k).2

/-- A calibration as the image of its correspondences. The intrinsics can be set from the
parameters, the norm of the quaternion is left open, and every kept star is one of the pairs. -/
structure ProjectsKept (camera : Camera ℝ) (orientation : Quaternion ℝ)
    (pairs : List (Correspondence ℝ)) (toHorizon : Mat3 ℝ) : Prop where
  camera_eq : f.camera = camera
  orientation_eq : f.orientation = orientation
  setParameters_eq : ∀ p : Vector ℝ f.parameterCount,
    camera.setParameters (p.toList.take f.intrinsicCount) = .ok (f.cameraAt p)
  values_scale : ∀ (p : Vector ℝ f.parameterCount) (a : ℝ), a ≠ 0 →
    f.values (f.scaleQuaternion a p) = f.values p
  projects : ∀ k : Fin f.stars.size,
    ∃ c, pairs[f.stars[k].index]? = some c ∧ f.Projects toHorizon k c

section Front

variable {toHorizon : Mat3 ℝ} {k : Fin f.stars.size} {c : Correspondence ℝ}
  (hdirection : f.stars[k].direction = toHorizon.mulVec c.star.direction)
include hdirection

/-- The pixel of a fit is the one that the fitted camera projects the star to. A quaternion that is
not zero is enough, since a scaled rotation leaves the pixel. -/
theorem pixelAt_eq_project (hobserved : (f.stars[k].i, f.stars[k].j) = (c.source.x, c.source.y))
    (p : Vector ℝ f.parameterCount) (hp : f.quaternionAt p ≠ ⟨0, 0, 0, 0⟩) :
    f.pixelAt p k =
      ((f.cameraAt p).project
        (((f.orientationAt p).toMatrix.mul toHorizon).mulVec c.star.direction)).getD
          (c.source.x, c.source.y) := by
  rw [pixelAt_eq, project_rotate_eq f p hp, hobserved, hdirection, Mat3.mulVec_mul]

theorem rotate_initial :
    rotate (f.quaternionAt f.initial) f.stars[k].direction =
      (f.orientation.toMatrix.mul toHorizon).mulVec c.star.direction := by
  rw [quaternionAt_initial, rotate_eq_mulVec, hdirection, Mat3.mulVec_mul]

theorem project_initial
    (hfront : ¬ ((f.orientation.toMatrix.mul toHorizon).mulVec c.star.direction).z ≤ 0) :
    f.camera.project ((f.orientation.toMatrix.mul toHorizon).mulVec c.star.direction) =
      some (f.pixelAt f.initial k) := by
  rw [pixelAt_eq, rotate_initial f hdirection, cameraAt_initial, Camera.project, if_neg hfront,
    Option.getD_some]

/-- A correspondence in front of the camera at the start is projected as it is modelled. -/
theorem projects_of_front
    (hobserved : (f.stars[k].i, f.stars[k].j) = (c.source.x, c.source.y))
    (hfront : ¬ ((f.orientation.toMatrix.mul toHorizon).mulVec c.star.direction).z ≤ 0) :
    f.Projects toHorizon k c := by
  have hstart := f.project_initial hdirection hfront
  have hpredicted : ∀ (stars : List (Sky.Star ℝ)) (limit : ℝ),
      ∀ seen ∈ f.camera.starsSeen stars (f.orientation.toMatrix.mul toHorizon) limit,
        seen.star = c.star → (seen.i, seen.j) = f.pixelAt f.initial k := by
    intro stars limit seen hseen hstar
    obtain ⟨-, -, hproject, -⟩ := Matching.mem_starsSeen_iff.mp hseen
    rw [hstar, hstart] at hproject
    exact (Option.some.inj hproject).symm
  refine ⟨f.pixelAt_eq_project hdirection hobserved, ⟨f.rotate_initial hdirection,
    not_le.mp hfront⟩, hstart, hpredicted, ?_⟩
  intro stars limit sources radius candidate hmem hstar
  obtain ⟨-, -, i, j, hseen, hdistance⟩ := Matching.mem_candidates_iff.mp hmem
  rw [hdistance, ← hpredicted stars limit _ hseen hstar]

end Front

variable {camera : Camera ℝ} {orientation : Quaternion ℝ} {pairs : List (Correspondence ℝ)}
  {gmst : ℝ} {site : Sky.Site ℝ} {limit : ℝ} {f}

/-- A calibration that could be made models its stars where they are projected. -/
theorem projectsKept (hf : ofCorrespondences camera orientation pairs gmst site limit = .ok f) :
    f.ProjectsKept camera orientation pairs (site.celestialToHorizon gmst) := by
  obtain ⟨rfl, rfl⟩ := camera_of_ofCorrespondences hf
  refine ⟨rfl, rfl, f.setParameters_take, fun p a ha => f.values_scaleQuaternion ha p,
    fun k => ?_⟩
  obtain ⟨c, hpair, hdirection, hobserved, hkept⟩ :=
    exists_correspondence hf (Array.getElem_mem_toList k.isLt)
  rw [Sky.Star.exclusion?_eq_none_iff] at hkept
  exact ⟨c, hpair, f.projects_of_front hdirection hobserved hkept.2⟩

/-- A star in the zenith of a site on the equator, and one beside it. -/
noncomputable def besideZenith : List (Correspondence ℝ) :=
  [⟨{ x := 400, y := 300 }, ⟨1, 0, 0, 2⟩⟩, ⟨{ x := 500, y := 600 }, ⟨2, 1, 1, 3⟩⟩]

noncomputable def zenithCamera : Camera ℝ := ⟨900, 900, 320, 240, 640, 480, .radial (.ofTerms 2)⟩

theorem projectsKept_zenith :
    ∃ f, ofCorrespondences zenithCamera .identity besideZenith 0 ⟨0, 0, 0⟩ 6 = .ok f ∧
      f.stars.size = 2 ∧
      f.ProjectsKept zenithCamera .identity besideZenith
        (Sky.Site.celestialToHorizon ⟨0, 0, 0⟩ 0) := by
  let toCamera : Mat3 ℝ :=
    Quaternion.identity.toMatrix.mul (Sky.Site.celestialToHorizon ⟨0, 0, 0⟩ 0)
  have hdepth (star : Sky.Star ℝ) : (toCamera.mulVec star.direction).z =
      Real.cos star.declination * Real.cos star.rightAscension := by
    simp [toCamera, Sky.Star.direction, Sky.ofSpherical, Sky.Site.celestialToHorizon,
      Sky.Site.earthToHorizon, Sky.earthToHorizon, Sky.celestialToEarth, Quaternion.identity,
      Quaternion.toMatrix, Mat3.mul, Mat3.mulVec, Mat3.transpose, Vec3.dot]
  have hkept : ∀ pair ∈ besideZenith, pair.isKept toCamera 6 := by
    intro pair hpair
    rw [Correspondence.isKept_eq, hdepth, decide_eq_true_iff, not_le]
    have hcos := Real.cos_one_pos
    simp only [besideZenith, List.mem_cons, List.not_mem_nil, or_false] at hpair
    obtain rfl | rfl := hpair
    · norm_num
    · exact ⟨by norm_num, mul_pos hcos hcos⟩
  obtain ⟨f, hf, hsize⟩ : ∃ f, ofCorrespondences zenithCamera .identity besideZenith 0 ⟨0, 0, 0⟩ 6 =
      .ok f ∧ f.stars.size = 2 := exists_ofCorrespondences (List.cons_ne_nil _ _) hkept
  exact ⟨f, hf, hsize, projectsKept hf⟩

end Image

section Slopes

variable (f : StarFit ℝ)

theorem fst_scaleAndSlope_zero (d : Distortion ℝ) : (d.scaleAndSlope 0).1 = 1 := by
  cases d with
  | none => rfl
  | radial d => simp [Distortion.scaleAndSlope, RadialDistortion.scale]

/-- In the zenith only the principal point and the two tilts move the pixel of a star. -/
theorem rowsOf_zenith (camera : Camera ℝ) {star : KeptStar ℝ}
    (hdirection : star.direction = ⟨0, 0, 1⟩) :
    rowsOf camera .identity star =
      ([0, 0, 1, 0] ++ List.replicate camera.distortion.freeCount 0 ++ [0, 0, camera.fi * 2, 0],
        [0, 0, 0, 1] ++ List.replicate camera.distortion.freeCount 0 ++
          [0, camera.fj * -2, 0, 0]) := by
  have hturned : rotate .identity star.direction = ⟨0, 0, 1⟩ := by
    rw [hdirection]
    simp [rotate, Quaternion.identity, Vec3.dot, Vec3.cross, Vec3.scale, Vec3.add_def]
  have hrotations : rotateSlopes .identity star.direction =
      [⟨0, 0, 2⟩, ⟨0, -2, 0⟩, ⟨2, 0, 0⟩, ⟨0, 0, 0⟩] := by
    rw [hdirection]
    simp [rotateSlopes, Quaternion.identity, Vec3.dot, Vec3.cross, Vec3.scale, Vec3.add_def]
  obtain ⟨slopes, hslopes, hpoint, hintrinsics⟩ : ∃ slopes : PixelSlopes ℝ,
      camera.projectWithSlopes ⟨0, 0, 1⟩ = some slopes ∧
        slopes.byPoint = (⟨camera.fi, 0, 0⟩, ⟨0, camera.fj, 0⟩) ∧
        slopes.byIntrinsics = [(0, 0), (0, 0), (1, 0), (0, 1)] ++
          List.replicate camera.distortion.freeCount (0, 0) := by
    refine ⟨_, if_neg (by norm_num), ?_, ?_⟩
    · have hscale := fst_scaleAndSlope_zero camera.distortion
      unfold Distortion.scaleAndSlope at hscale
      simp [hscale, Vec3.scale, Vec3.add_def]
    · simp [List.map_const', Camera.length_geometric]
  rw [rowsOf, hturned, hslopes, hrotations]
  simp only [hpoint, hintrinsics]
  simp [Vec3.dot]

theorem length_byIntrinsics_cameraAt {p : Vector ℝ f.parameterCount} {v : Vec3 ℝ}
    {slopes : PixelSlopes ℝ} (hslopes : (f.cameraAt p).projectWithSlopes v = some slopes) :
    slopes.byIntrinsics.length = f.intrinsicCount := by
  rw [Camera.length_byIntrinsics hslopes, cameraAt, Camera.parameterCount_withParameters,
    intrinsicCount]

theorem getD_rowsOf_intrinsic (camera : Camera ℝ) (q : Quaternion ℝ) (star : KeptStar ℝ)
    {slopes : PixelSlopes ℝ}
    (hslopes : camera.projectWithSlopes (rotate q star.direction) = some slopes) (e : Fin 2)
    {c : Nat} (hc : c < slopes.byIntrinsics.length) :
    (coordinate (rowsOf camera q star) e).getD c 0 =
      coordinate (slopes.byIntrinsics.getD c (0, 0)) e := by
  simp only [rowsOf, hslopes]
  fin_cases e <;> simp [coordinate, hc, List.getElem?_append_left]

theorem getD_rowsOf_component (camera : Camera ℝ) (q : Quaternion ℝ) (star : KeptStar ℝ)
    {slopes : PixelSlopes ℝ}
    (hslopes : camera.projectWithSlopes (rotate q star.direction) = some slopes) (e : Fin 2)
    (component : Fin 4) :
    (coordinate (rowsOf camera q star) e).getD (slopes.byIntrinsics.length + component) 0 =
      (coordinate slopes.byPoint e).dot (rotateSlope q star.direction component) := by
  have hturned : (rotateSlopes q star.direction)[component.val]? =
      some (rotateSlope q star.direction component) :=
    List.getElem?_eq_getElem component.isLt
  simp only [rowsOf, hslopes]
  fin_cases e <;> simp [coordinate, List.getElem?_append_right, hturned]

/-- Both coordinates of a modelled pixel move by the slopes of the pixel. -/
theorem hasDerivAt_pixelOf {camera : ℝ → Camera ℝ} {q : ℝ → Quaternion ℝ} (star : KeptStar ℝ)
    {slope : ℝ × ℝ} {t : ℝ}
    (hpixel : HasPixelSlope
      (fun x => ((camera x).project (rotate (q x) star.direction)).getD (star.i, star.j)) slope t)
    (e : Fin 2) :
    HasDerivAt (fun x => (pixelOf (camera x) (q x) star)[e]) (coordinate slope e) t := by
  obtain ⟨hi, hj⟩ := hpixel
  match e with
  | 0 => exact hi
  | 1 => exact hj

variable (p : Vector ℝ f.parameterCount) (k : Fin f.stars.size) (e : Fin 2)

/-- An intrinsic moves the pixel by its slope and leaves the direction. -/
theorem hasDerivAt_values_intrinsic
    (hdepth : 0 < (rotate (f.quaternionAt p) f.stars[k].direction).z)
    (c : Fin f.parameterCount) (hc : c.val < f.intrinsicCount) :
    HasDerivAt (fun x => (f.values (p.set c x))[f.place k e])
      ((f.jacobian p)[f.place k e][c]) p[c] := by
  have hlength := f.length_take_intrinsicCount p
  obtain ⟨slopes, hslopes⟩ := (f.cameraAt p).exists_projectWithSlopes _ hdepth
  have hcount := f.length_byIntrinsics_cameraAt hslopes
  have hpixel := f.camera.hasPixelSlope_intrinsic _ hlength (hc.trans_eq hlength.symm) _ hdepth
    hslopes (f.stars[k].i, f.stars[k].j) p[c]
  rw [jacobian_place, getD_rowsOf_intrinsic _ _ _ hslopes e (hc.trans_eq hcount.symm)]
  simp only [values_place, cameraAt_set_intrinsic, f.quaternionAt_set_of_lt p c hc]
  exact hasDerivAt_pixelOf f.stars[k] hpixel e

/-- A component of the quaternion moves the direction, and the pixel by the chain rule. -/
theorem hasDerivAt_values_component
    (hdepth : 0 < (rotate (f.quaternionAt p) f.stars[k].direction).z)
    (c : Fin f.parameterCount) (hc : f.intrinsicCount ≤ c.val) :
    HasDerivAt (fun x => (f.values (p.set c x))[f.place k e])
      ((f.jacobian p)[f.place k e][c]) p[c] := by
  obtain ⟨component, hcomponent, hturn⟩ := f.exists_component p c hc
  obtain ⟨slopes, hslopes⟩ := (f.cameraAt p).exists_projectWithSlopes _ hdepth
  have hcount := f.length_byIntrinsics_cameraAt hslopes
  have hstay : (f.quaternionAt p).replace component p[c] = f.quaternionAt p := by
    rw [← hturn]
    exact congrArg f.quaternionAt (Vector.set_getElem_self c.isLt)
  have hslope := hasSlope_rotate (f.quaternionAt p) f.stars[k].direction component p[c]
  have hpixel := (f.cameraAt p).hasPixelSlope_project hslope (by rwa [hstay])
    (by rwa [hstay]) (f.stars[k].i, f.stars[k].j)
  have hentry : (f.jacobian p)[f.place k e][c] = (coordinate slopes.byPoint e).dot
      (rotateSlope (f.quaternionAt p) f.stars[k].direction component) := by
    rw [jacobian_place, hcomponent, ← hcount, getD_rowsOf_component _ _ _ hslopes e component]
  simp only [values_place, f.cameraAt_set_of_le p c hc, hturn]
  refine (hasDerivAt_pixelOf f.stars[k] hpixel e).congr_deriv ?_
  rw [hentry, hstay]
  match e with
  | 0 | 1 => rfl

/-- The two rows of a star in front of the camera are the derivatives of its two coordinates by
every parameter. A star on the plane of the camera or behind it has rows of zeros, and is modelled
where it was observed. -/
theorem jacobian_star :
    let model := f.model .analytic
    let depth := (rotate (f.quaternionAt p) f.stars[k].direction).z
    (0 < depth → ∀ c : Fin f.parameterCount,
      HasDerivAt (fun x => (model.values (p.set c x))[f.place k e])
        (model.jacobian p)[f.place k e][c] p[c]) ∧
    (depth ≤ 0 → (∀ c : Fin f.parameterCount, (model.jacobian p)[f.place k e][c] = 0) ∧
      (model.values p)[f.place k e] = f.observed[f.place k e]) := by
  intro model depth
  refine ⟨fun hdepth c => ?_, fun hdepth => ⟨fun c => ?_, ?_⟩⟩
  · rcases Nat.lt_or_ge c.val f.intrinsicCount with hc | hc
    · exact f.hasDerivAt_values_intrinsic p k e hdepth c hc
    · exact f.hasDerivAt_values_component p k e hdepth c hc
  · refine (f.jacobian_place p k e c).trans ?_
    rw [rowsOf_of_hidden _ _ _ hdepth]
    match e with
    | 0 | 1 => rfl
  · refine (f.values_place p k e).trans ?_
    rw [pixelOf_of_hidden _ _ _ hdepth, observed_place]

noncomputable def offAxis : StarFit ℝ where
  camera := ⟨900, 900, 320, 240, 640, 480, .radial (.ofTerms 2)⟩
  orientation := ⟨2, 0, 0, 0⟩
  stars := #[⟨0, ⟨3, 0, 4⟩, 995, 240, none⟩]
  excluded := []

theorem jacobian_star_offAxis :
    let k : Fin offAxis.stars.size := ⟨0, Nat.one_pos⟩
    0 < (rotate (offAxis.quaternionAt offAxis.initial) offAxis.stars[k].direction).z ∧
      ∀ (e : Fin 2) (c : Fin offAxis.parameterCount),
        HasDerivAt
          (fun x => ((offAxis.model .analytic).values (offAxis.initial.set c x))[offAxis.place k e])
          ((offAxis.model .analytic).jacobian offAxis.initial)[offAxis.place k e][c]
          offAxis.initial[c] := by
  intro k
  have hdepth :
      0 < (rotate (offAxis.quaternionAt offAxis.initial) offAxis.stars[k].direction).z := by
    rw [quaternionAt_initial]
    simp [offAxis, k, rotate, Vec3.add_def, Vec3.scale, Vec3.dot, Vec3.cross]
  exact ⟨hdepth, fun e c => (jacobian_star offAxis offAxis.initial k e).1 hdepth c⟩

end Slopes

end SkyCamera.StarFit
