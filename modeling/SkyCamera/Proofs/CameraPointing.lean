import SkyCamera.Proofs.SphericalCoordinates
import SkyCamera.Proofs.UnitQuaternion

/-!
The pointing of a camera, in exact arithmetic. Azimuth, elevation and roll make a rotation, and from
every rotation angles that make it are read off. A vertical boresight leaves the azimuth open; since
the roll is counted from the azimuth that was taken, the rotation is the same.
-/
namespace SkyCamera

namespace Mat3

noncomputable def det (a : Mat3 ℝ) : ℝ := a.row0.dot (a.row1.cross a.row2)

/-- A proper rotation: orthonormal rows in the order of a right-handed frame. -/
structure IsRotation (a : Mat3 ℝ) : Prop where
  unit0 : a.row0.dot a.row0 = 1
  unit1 : a.row1.dot a.row1 = 1
  unit2 : a.row2.dot a.row2 = 1
  orthogonal01 : a.row0.dot a.row1 = 0
  orthogonal02 : a.row0.dot a.row2 = 0
  orthogonal12 : a.row1.dot a.row2 = 0
  det_eq_one : a.det = 1

/-- The second axis is the one that completes the other two. -/
theorem IsRotation.row1_eq {a : Mat3 ℝ} (h : a.IsRotation) : a.row1 = a.row2.cross a.row0 := by
  rcases a with ⟨⟨a0, a1, a2⟩, ⟨b0, b1, b2⟩, ⟨c0, c1, c2⟩⟩
  obtain ⟨h0, h1, h2, -, h02, -, hdet⟩ := h
  simp only [Vec3.dot, Vec3.cross, det] at h0 h1 h2 h02 hdet
  -- The difference of the two vectors has length zero.
  have hsquares : (b0 - (c1 * a2 - c2 * a1)) ^ 2 + (b1 - (c2 * a0 - c0 * a2)) ^ 2 +
      (b2 - (c0 * a1 - c1 * a0)) ^ 2 = 0 := by
    linear_combination h1 - 2 * hdet + (c0 * c0 + c1 * c1 + c2 * c2) * h0 + h2 -
      (a0 * c0 + a1 * c1 + a2 * c2) * h02
  have hx := sq_nonneg (b0 - (c1 * a2 - c2 * a1))
  have hy := sq_nonneg (b1 - (c2 * a0 - c0 * a2))
  have hz := sq_nonneg (b2 - (c0 * a1 - c1 * a0))
  have heq {u v : ℝ} (h : (u - v) ^ 2 = 0) : u = v := sub_eq_zero.mp (sq_eq_zero_iff.mp h)
  simp only [Vec3.cross, Vec3.mk.injEq]
  exact ⟨heq (by linarith), heq (by linarith), heq (by linarith)⟩

/-- Two rows of a rotation fix the third, which is their cross product. -/
theorem IsRotation.eq_of_rows {a b : Mat3 ℝ} (ha : a.IsRotation) (hb : b.IsRotation)
    (h0 : a.row0 = b.row0) (h2 : a.row2 = b.row2) : a = b := by
  have h1 : a.row1 = b.row1 := by rw [ha.row1_eq, hb.row1_eq, h0, h2]
  rcases a with ⟨a0, a1, a2⟩
  rcases b with ⟨b0, b1, b2⟩
  subst h0 h1 h2
  rfl

end Mat3

namespace Quaternion

instance : Neg (Quaternion ℝ) := ⟨fun q => ⟨-q.w, -q.x, -q.y, -q.z⟩⟩

theorem sum_squares_of_norm_eq_one {q : Quaternion ℝ} (hq : q.norm = 1) :
    q.w * q.w + q.x * q.x + q.y * q.y + q.z * q.z = 1 := Real.sqrt_eq_one.mp hq

/-- Quaternions of norm one are rotations. -/
theorem isRotation_toMatrix {q : Quaternion ℝ} (hq : q.norm = 1) : q.toMatrix.IsRotation := by
  have hone := sum_squares_of_norm_eq_one hq
  rcases q with ⟨w, x, y, z⟩
  constructor
  all_goals simp only [toMatrix, Mat3.det, Vec3.dot, Vec3.cross, Scalar.two_real]
  · linear_combination (w * w + x * x + y * y + z * z + 1) * hone
  · linear_combination (w * w + x * x + y * y + z * z + 1) * hone
  · linear_combination (w * w + x * x + y * y + z * z + 1) * hone
  · ring
  · ring
  · ring
  · linear_combination ((w * w + x * x + y * y + z * z) ^ 2 +
      (w * w + x * x + y * y + z * z) + 1) * hone

/-- The divisor that is found from four times the square of a component. -/
theorem two_mul_sqrt_four_mul_self (c : ℝ) : 2 * Scalar.sqrt (4 * (c * c)) = 4 * |c| := by
  have hsquare : 4 * (c * c) = (2 * c) ^ 2 := by ring
  show 2 * Real.sqrt (4 * (c * c)) = _
  rw [hsquare, Real.sqrt_sq_eq_abs, abs_mul, abs_two]
  ring

section Component

variable {c : ℝ} (hc : c ≠ 0)
include hc

theorem four_mul_abs_div_four : 4 * |c| / 4.0 = 4 * (c * c) / (4 * |c|) := by
  have habs := abs_ne_zero.mpr hc
  have hfour : (4.0 : ℝ) = 4 := by norm_num
  rw [hfour, ← abs_mul_abs_self c]
  field_simp

/-- The products with a component give the quaternion back, up to the sign of the component. -/
theorem eq_or_eq_neg_of_products {p q : Quaternion ℝ} (hw : p.w = 4 * (c * q.w) / (4 * |c|))
    (hx : p.x = 4 * (c * q.x) / (4 * |c|)) (hy : p.y = 4 * (c * q.y) / (4 * |c|))
    (hz : p.z = 4 * (c * q.z) / (4 * |c|)) : p = q ∨ p = -q := by
  rcases p with ⟨w, x, y, z⟩
  subst hw hx hy hz
  rcases hc.lt_or_gt with hneg | hpos
  · have hcancel (u : ℝ) : 4 * (c * u) / (4 * |c|) = -u := by
      rw [abs_of_neg hneg]
      field_simp
    refine Or.inr ?_
    simp only [hcancel]
    rfl
  · have hcancel (u : ℝ) : 4 * (c * u) / (4 * |c|) = u := by
      rw [abs_of_pos hpos]
      field_simp
    refine Or.inl ?_
    simp only [hcancel]

end Component

/-- The component that is found from a root is never zero: the trace is four times the square of `w`
less one, and the diagonal compares the squares of the others. -/
theorem ofMatrix_toMatrix {q : Quaternion ℝ} (hq : q.norm = 1) :
    ofMatrix q.toMatrix = q ∨ ofMatrix q.toMatrix = -q := by
  have hone := sum_squares_of_norm_eq_one hq
  rcases q with ⟨w, x, y, z⟩
  simp only at hone
  simp only [ofMatrix, toMatrix, Scalar.two_real]
  split
  next htrace =>
    have hw : w ≠ 0 := by
      rintro rfl
      linarith [mul_self_nonneg x, mul_self_nonneg y, mul_self_nonneg z]
    have hroot : w * w + x * x - y * y - z * z + (w * w - x * x + y * y - z * z) +
        (w * w - x * x - y * y + z * z) + 1 = 4 * (w * w) := by linear_combination -hone
    rw [hroot, two_mul_sqrt_four_mul_self]
    refine eq_or_eq_neg_of_products hw (four_mul_abs_div_four hw) ?_ ?_ ?_
    all_goals ring
  next htrace =>
    split
    next hlargest =>
      have hx : x ≠ 0 := by
        rintro rfl
        linarith [mul_self_nonneg y]
      have hroot : 1 + (w * w + x * x - y * y - z * z) - (w * w - x * x + y * y - z * z) -
          (w * w - x * x - y * y + z * z) = 4 * (x * x) := by linear_combination -hone
      rw [hroot, two_mul_sqrt_four_mul_self]
      refine eq_or_eq_neg_of_products hx ?_ (four_mul_abs_div_four hx) ?_ ?_
      all_goals ring
    next hlargest =>
      split
      next hlarger =>
        have hy : y ≠ 0 := by
          rintro rfl
          linarith [mul_self_nonneg z]
        have hroot : 1 + (w * w - x * x + y * y - z * z) - (w * w + x * x - y * y - z * z) -
            (w * w - x * x - y * y + z * z) = 4 * (y * y) := by linear_combination -hone
        rw [hroot, two_mul_sqrt_four_mul_self]
        refine eq_or_eq_neg_of_products hy ?_ ?_ (four_mul_abs_div_four hy) ?_
        all_goals ring
      next hlarger =>
        have hz : z ≠ 0 := by
          rintro rfl
          have hy : y = 0 := mul_self_eq_zero.mp (by linarith [mul_self_nonneg y])
          subst hy
          have hx : x = 0 := by
            by_contra hne
            have hpos := mul_self_pos.mpr hne
            exact hlargest ⟨by linarith, by linarith⟩
          subst hx
          linarith
        have hroot : 1 + (w * w - x * x - y * y + z * z) - (w * w + x * x - y * y - z * z) -
            (w * w - x * x + y * y - z * z) = 4 * (z * z) := by linear_combination -hone
        rw [hroot, two_mul_sqrt_four_mul_self]
        refine eq_or_eq_neg_of_products hz ?_ ?_ ?_ (four_mul_abs_div_four hz)
        all_goals ring

end Quaternion

namespace Sky

section Frame

variable (az el roll : ℝ)

/-- The image axis to the right of a camera that is not rolled. -/
noncomputable def levelRight : Vec3 ℝ := ⟨Real.sin az, Real.cos az, 0⟩

noncomputable def levelDown : Vec3 ℝ :=
  ⟨-Real.sin el * Real.cos az, Real.sin el * Real.sin az, -Real.cos el⟩

/-- The direction (South, East, Zenith) at an azimuth and an elevation. -/
noncomputable def boresight : Vec3 ℝ :=
  ⟨-Real.cos el * Real.cos az, Real.cos el * Real.sin az, Real.sin el⟩

/-- The level axes, turned by the roll. -/
theorem horizonToCamera_eq : horizonToCamera az el roll =
    ⟨(levelRight az).scale (Real.cos roll) + (levelDown az el).scale (Real.sin roll),
      (levelRight az).scale (-Real.sin roll) + (levelDown az el).scale (Real.cos roll),
      boresight az el⟩ := by
  have haz := Real.sin_sq_add_cos_sq az
  simp only [horizonToCamera, levelRight, levelDown, boresight, Mat3.mul, Mat3.mulVec,
    Mat3.transpose, Vec3.dot, Vec3.cross, Vec3.scale, Vec3.add_def, Scalar.sin_real,
    Scalar.cos_real, Mat3.mk.injEq, Vec3.mk.injEq]
  refine ⟨⟨?_, ?_, ?_⟩, ⟨?_, ?_, ?_⟩, ?_, ?_, ?_⟩
  · ring
  · ring
  · linear_combination -Real.sin roll * Real.cos el * haz
  · ring
  · ring
  · linear_combination -Real.cos roll * Real.cos el * haz
  · ring
  · ring
  · ring

theorem isRotation_horizonToCamera : (horizonToCamera az el roll).IsRotation := by
  have haz := Real.sin_sq_add_cos_sq az
  have hel := Real.sin_sq_add_cos_sq el
  have hroll := Real.sin_sq_add_cos_sq roll
  rw [horizonToCamera_eq]
  constructor
  all_goals simp only [levelRight, levelDown, boresight, Mat3.det, Vec3.dot, Vec3.cross, Vec3.scale,
    Vec3.add_def]
  · linear_combination (Real.cos roll ^ 2 + Real.sin roll ^ 2 * Real.sin el ^ 2) * haz +
      Real.sin roll ^ 2 * hel + hroll
  · linear_combination (Real.sin roll ^ 2 + Real.cos roll ^ 2 * Real.sin el ^ 2) * haz +
      Real.cos roll ^ 2 * hel + hroll
  · linear_combination Real.cos el ^ 2 * haz + hel
  · linear_combination (-Real.cos roll * Real.sin roll +
      Real.sin roll * Real.cos roll * Real.sin el ^ 2) * haz + Real.sin roll * Real.cos roll * hel
  · linear_combination Real.sin roll * Real.sin el * Real.cos el * haz
  · linear_combination Real.cos roll * Real.sin el * Real.cos el * haz
  · linear_combination (Real.sin el ^ 2 + Real.cos el ^ 2) *
      (Real.sin az ^ 2 + Real.cos az ^ 2) * hroll + (Real.sin el ^ 2 + Real.cos el ^ 2) * haz + hel

theorem mulVec_boresight :
    (horizonToCamera az el roll).mulVec (boresight az el) = ⟨0, 0, 1⟩ := by
  have h := isRotation_horizonToCamera az el roll
  have hrow : boresight az el = (horizonToCamera az el roll).row2 := by rw [horizonToCamera_eq]
  rw [hrow, Mat3.mulVec, h.orthogonal02, h.orthogonal12, h.unit2]

theorem level_eq :
    horizonToCamera az el 0 = ⟨levelRight az, levelDown az el, boresight az el⟩ := by
  rw [horizonToCamera_eq, Real.sin_zero, Real.cos_zero]
  simp only [Vec3.scale, Vec3.add_def, mul_one, mul_zero, neg_zero, add_zero, zero_add]

/-- The level axes span the plane of the image. -/
theorem eq_of_dot_boresight {v : Vec3 ℝ} (hv : v.dot (boresight az el) = 0) :
    v = (levelRight az).scale (v.dot (levelRight az)) +
      (levelDown az el).scale (v.dot (levelDown az el)) := by
  have haz := Real.sin_sq_add_cos_sq az
  have hel := Real.sin_sq_add_cos_sq el
  rcases v with ⟨x, y, z⟩
  simp only [levelRight, levelDown, boresight, Vec3.dot, Vec3.scale, Vec3.add_def,
    Vec3.mk.injEq] at hv ⊢
  refine ⟨?_, ?_, ?_⟩
  · linear_combination -(Real.cos el * Real.cos az) * hv - x * haz +
      (y * Real.cos az * Real.sin az - x * Real.cos az ^ 2) * hel
  · linear_combination (Real.cos el * Real.sin az) * hv - y * haz +
      (x * Real.cos az * Real.sin az - y * Real.sin az ^ 2) * hel
  · linear_combination Real.sin el * hv - z * hel

/-- The roll that is read off a direction in the plane of the image turns the level axis there. -/
theorem turned_levelRight {v : Vec3 ℝ} (hv : v.dot (boresight az el) = 0) (hunit : v.dot v = 1) :
    let roll := Scalar.atan2 (v.dot (levelDown az el)) (v.dot (levelRight az))
    (levelRight az).scale (Real.cos roll) + (levelDown az el).scale (Real.sin roll) = v := by
  intro roll
  have hspan := eq_of_dot_boresight az el hv
  have hsquares : v.dot (levelRight az) ^ 2 + v.dot (levelDown az el) ^ 2 = 1 := by
    calc v.dot (levelRight az) ^ 2 + v.dot (levelDown az el) ^ 2
        = v.dot ((levelRight az).scale (v.dot (levelRight az)) +
            (levelDown az el).scale (v.dot (levelDown az el))) := by
          simp only [Vec3.dot, Vec3.scale, Vec3.add_def]
          ring
      _ = 1 := by rw [← hspan, hunit]
  obtain ⟨hcos, hsin⟩ := Scalar.polar_atan2 (v.dot (levelDown az el)) (v.dot (levelRight az))
  rw [hsquares, Real.sqrt_one, one_mul] at hcos hsin
  rw [hcos, hsin, ← hspan]

end Frame

/-- A direction is that of the azimuth and the elevation read off from it. They are the spherical
coordinates of the direction with its southward component counted to the north. -/
theorem boresight_eq {b : Vec3 ℝ} (hb : b.dot b = 1) :
    boresight (Scalar.modulo (Scalar.atan2 b.y (-b.x)) Scalar.tau)
      (Scalar.asin (Scalar.clampUnit b.z)) = b := by
  let mirrored : Vec3 ℝ := ⟨-b.x, b.y, b.z⟩
  have hnorm : mirrored.norm = 1 := by
    refine Real.sqrt_eq_one.mpr ?_
    rw [← hb]
    simp only [mirrored, Vec3.dot, neg_mul_neg]
  have hread : toSpherical mirrored = (1, Scalar.modulo (Scalar.atan2 b.y (-b.x)) Scalar.tau,
      Scalar.asin (Scalar.clampUnit b.z)) := by
    have hnonzero : ¬ Scalar.IsZero (1 : ℝ) := fun h => absurd h.1 one_pos.not_ge
    rw [toSpherical, hnorm, if_neg hnonzero, div_one]
  have hback := ofSpherical_toSpherical mirrored
  rw [hread] at hback
  simp only [ofSpherical, one_mul, mirrored, Vec3.mk.injEq] at hback
  obtain ⟨hx, hy, hz⟩ := hback
  rcases b with ⟨x, y, z⟩
  simp only [boresight, neg_mul, Vec3.mk.injEq]
  exact ⟨neg_eq_iff_eq_neg.mpr hx, hy, hz⟩

/-- The angles that are read off an orientation make its rotation. -/
theorem horizonToCamera_pointing {q : Quaternion ℝ} (hq : q.norm = 1) :
    horizonToCamera (pointing q).1 (pointing q).2.1 (pointing q).2.2 = q.toMatrix := by
  have h := Quaternion.isRotation_toMatrix hq
  have hrow2 : boresight (pointing q).1 (pointing q).2.1 = q.toMatrix.row2 := boresight_eq h.unit2
  have hroll : (pointing q).2.2 =
      Scalar.atan2 (q.toMatrix.row0.dot (levelDown (pointing q).1 (pointing q).2.1))
        (q.toMatrix.row0.dot (levelRight (pointing q).1)) := by
    have hlevel := level_eq (pointing q).1 (pointing q).2.1
    simp only [pointing] at hlevel ⊢
    rw [hlevel]
  refine (isRotation_horizonToCamera _ _ _).eq_of_rows h ?_ ?_
  · rw [horizonToCamera_eq, hroll]
    exact turned_levelRight _ _ (by rw [hrow2, h.orthogonal02]) h.unit0
  · rw [horizonToCamera_eq]
    exact hrow2

/-- Azimuth, elevation and roll make a rotation that turns the boresight into the axis of the
camera, and the angles that are read off a unit quaternion lie in their ranges and give it back. -/
theorem pointing_gives_orientation :
    (∀ az el roll : ℝ, (horizonToCamera az el roll).IsRotation ∧
      (horizonToCamera az el roll).mulVec
        ⟨-Real.cos el * Real.cos az, Real.cos el * Real.sin az, Real.sin el⟩ = ⟨0, 0, 1⟩) ∧
    ∀ q : Quaternion ℝ, q.norm = 1 → ∃ az el roll, pointing q = (az, el, roll) ∧
      (0 ≤ az ∧ az < 2 * Real.pi) ∧ (-(Real.pi / 2) ≤ el ∧ el ≤ Real.pi / 2) ∧
      horizonToCamera az el roll = q.toMatrix ∧
      (orientation az el roll = q ∨ orientation az el roll = -q) := by
  refine ⟨fun az el roll => ⟨isRotation_horizonToCamera az el roll, mulVec_boresight az el roll⟩,
    fun q hq => ⟨(pointing q).1, (pointing q).2.1, (pointing q).2.2, rfl, ?_, ?_, ?_, ?_⟩⟩
  · exact ⟨Scalar.modulo_tau_nonneg _, Scalar.modulo_tau_lt _⟩
  · exact ⟨Real.neg_pi_div_two_le_arcsin _, Real.arcsin_le_pi_div_two _⟩
  · exact horizonToCamera_pointing hq
  · rw [orientation, horizonToCamera_pointing hq]
    exact Quaternion.ofMatrix_toMatrix hq

theorem toMatrix_identity :
    Quaternion.identity.toMatrix = (⟨⟨1, 0, 0⟩, ⟨0, 1, 0⟩, ⟨0, 0, 1⟩⟩ : Mat3 ℝ) := by
  simp only [Quaternion.toMatrix, Quaternion.identity, Scalar.two_real, Mat3.mk.injEq,
    Vec3.mk.injEq]
  norm_num

/-- At the zenith the azimuth is taken as zero, and the roll stands for both. -/
theorem pointing_identity :
    pointing Quaternion.identity = ((0, Real.pi / 2, -(Real.pi / 2)) : ℝ × ℝ × ℝ) := by
  have harg : Scalar.atan2 (0 : ℝ) (-0) = 0 := by
    show Complex.arg ⟨-0, 0⟩ = 0
    rw [neg_zero]
    exact Complex.arg_zero
  have hdown : Scalar.atan2 (-1 : ℝ) 0 = -(Real.pi / 2) := by
    show Complex.arg ⟨0, -1⟩ = _
    have hi : (⟨0, -1⟩ : ℂ) = -Complex.I := Complex.ext neg_zero.symm rfl
    rw [hi, Complex.arg_neg_I]
  have hmodulo : Scalar.modulo (0 : ℝ) Scalar.tau = 0 := by
    rw [Scalar.modulo_tau, zero_div, Int.floor_zero, Int.cast_zero, zero_mul, sub_zero]
  have hasin : Scalar.asin (Scalar.clampUnit (1 : ℝ)) = Real.pi / 2 := by
    rw [Scalar.clampUnit_of_abs_le abs_one.le]
    exact Real.arcsin_one
  simp only [pointing, toMatrix_identity, harg, hmodulo, hasin, level_eq]
  simp only [levelRight, levelDown, Vec3.dot, Real.sin_zero, Real.cos_zero, Real.sin_pi_div_two,
    Real.cos_pi_div_two, one_mul, mul_one, mul_zero, add_zero, neg_zero, hdown]

/-- A camera that looks at the zenith, where the azimuth is taken as zero. -/
theorem pointing_gives_orientation_zenith :
    (Quaternion.identity : Quaternion ℝ).norm = 1 ∧
      (Quaternion.identity : Quaternion ℝ).toMatrix.row2 = ⟨0, 0, 1⟩ ∧
      pointing Quaternion.identity = ((0, Real.pi / 2, -(Real.pi / 2)) : ℝ × ℝ × ℝ) ∧
      (orientation (0 : ℝ) (Real.pi / 2) (-(Real.pi / 2)) = Quaternion.identity ∨
        orientation (0 : ℝ) (Real.pi / 2) (-(Real.pi / 2)) = -Quaternion.identity) := by
  obtain ⟨az, el, roll, hangles, -, -, -, hback⟩ :=
    pointing_gives_orientation.2 Quaternion.identity Quaternion.norm_identity
  have hrow : (Quaternion.identity : Quaternion ℝ).toMatrix.row2 = ⟨0, 0, 1⟩ := by
    rw [toMatrix_identity]
  rw [pointing_identity] at hangles
  cases hangles
  exact ⟨Quaternion.norm_identity, hrow, pointing_identity, hback⟩

end Sky
end SkyCamera
