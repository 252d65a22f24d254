import Mathlib.Analysis.Calculus.Deriv.Add
import Mathlib.Topology.Algebra.Module.ModuleTopology
import Mathlib.Analysis.Calculus.Deriv.Comp
import Mathlib.Analysis.Calculus.Deriv.Inv
import Mathlib.Analysis.Calculus.Deriv.Mul
import Mathlib.Analysis.Calculus.Deriv.Pow
import SkyCamera.Camera.Model
import SkyCamera.Proofs.RealScalar

/-!
The derivatives of a projection are derivatives, in exact arithmetic: along every curve of vectors
in front of the camera, and in every intrinsic parameter.
-/
namespace SkyCamera

/-- The derivative of a curve of vectors. -/
structure Vec3.HasSlope (v : ℝ → Vec3 ℝ) (slope : Vec3 ℝ) (t : ℝ) : Prop where
  x : HasDerivAt (fun u => (v u).x) slope.x t
  y : HasDerivAt (fun u => (v u).y) slope.y t
  z : HasDerivAt (fun u => (v u).z) slope.z t

def HasPixelSlope (pixel : ℝ → ℝ × ℝ) (slope : ℝ × ℝ) (t : ℝ) : Prop :=
  HasDerivAt (fun u => (pixel u).1) slope.1 t ∧ HasDerivAt (fun u => (pixel u).2) slope.2 t

namespace RadialDistortion

theorem take_freeCount_set (d : RadialDistortion ℝ) (ks : List ℝ) (j : Nat) (x : ℝ)
    (hks : ks.length = d.freeCount) : (ks.set j x).take d.freeCount = ks.set j x :=
  List.take_of_length_le (by rw [List.length_set, hks])

/-- Each free coefficient enters the factor with a power of the squared radius of its own. -/
theorem scale_withFree_set (d : RadialDistortion ℝ) (ks : List ℝ) (hks : ks.length = d.freeCount)
    {j : Nat} (hj : j < ks.length) (r2 x : ℝ) :
    (d.withFree (ks.set j x)).scale r2 =
      (d.withFree ks).scale r2 + r2 * r2 ^ j * (x - ks[j]) := by
  have hset : ∀ (i : Nat) (k : ℝ), (ks.set j x).getD i k = if i = j then x else ks.getD i k := by
    intro i k
    by_cases hij : i = j
    · subst hij
      simp [List.getD_eq_getElem?_getD, hj]
    · simp [List.getD_eq_getElem?_getD, hij, Ne.symm hij]
  have hget : ks[j]? = some ks[j] := List.getElem?_eq_getElem hj
  have htake : ks.take d.freeCount = ks := List.take_of_length_le (by omega)
  have hthree := d.freeCount_le_three
  have hcases : j = 0 ∨ j = 1 ∨ j = 2 := by omega
  simp only [withFree, scale, d.take_freeCount_set ks j x hks, htake, hset]
  obtain rfl | rfl | rfl := hcases
  · simp [hget]
    ring
  · simp [hget]
    ring
  · simp [hget]
    ring

/-- Without a coefficient that is not zero no point is moved. -/
theorem distort_of_isZero {d : RadialDistortion ℝ} (hd : d.IsZero) (x y : ℝ) :
    d.distort x y = (x, y) := by
  obtain ⟨h1, h2, h3⟩ := hd
  rw [Scalar.isZero_real_iff] at h1 h2 h3
  simp [distort, scale, h1, h2, h3]

end RadialDistortion

namespace Distortion

@[simp] theorem freeCount_withFree {α : Type} (d : Distortion α) (ks : List α) :
    (d.withFree ks).freeCount = d.freeCount := by
  cases d <;> rfl

/-- In a free coefficient the scale is linear. -/
theorem hasDerivAt_scale_free (d : Distortion ℝ) (ks : List ℝ) (hks : ks.length = d.freeCount)
    {j : Nat} (hj : j < ks.length) (r2 t : ℝ) :
    HasDerivAt (fun x => ((d.withFree (ks.set j x)).scaleAndSlope r2).1) (r2 * r2 ^ j) t := by
  cases d with
  | none =>
    rw [hks] at hj
    exact absurd hj (Nat.not_lt_zero j)
  | radial d =>
    simp only [withFree, scaleAndSlope, d.scale_withFree_set ks hks hj]
    have haffine := (((hasDerivAt_id' t).sub_const ks[j]).const_mul (r2 * r2 ^ j)).const_add
      ((d.withFree ks).scale r2)
    rwa [mul_one] at haffine

/-- Where a factor of one changes no number, each coordinate is multiplied by the factor. -/
theorem distort_eq {α : Type} [Scalar α] (hone : ∀ x : α, x * 1 = x) (d : Distortion α) (x y : α) :
    d.distort x y =
      (x * (d.scaleAndSlope (x * x + y * y)).1, y * (d.scaleAndSlope (x * x + y * y)).1) := by
  cases d with
  | none => simp only [distort, scaleAndSlope, hone]
  | radial d => rfl

/-- The slope beside the scale is its derivative in the squared radius. -/
theorem hasDerivAt_scale (d : Distortion ℝ) (r2 : ℝ) :
    HasDerivAt (fun r2 => (d.scaleAndSlope r2).1) (d.scaleAndSlope r2).2 r2 := by
  cases d with
  | none => exact hasDerivAt_const r2 1
  | radial d =>
    have hinner := ((hasDerivAt_id' r2).mul_const d.k3).const_add d.k2
    have hmiddle := ((hasDerivAt_id' r2).fun_mul hinner).const_add d.k1
    have houter := ((hasDerivAt_id' r2).fun_mul hmiddle).const_add 1
    refine houter.congr_deriv ?_
    simp only [scaleAndSlope, RadialDistortion.scaleSlope, Scalar.two_real, Scalar.three_real]
    ring

end Distortion

namespace Camera

theorem project_of_pos (c : Camera ℝ) (v : Vec3 ℝ) (hv : 0 < v.z) :
    c.project v = some (c.tangentToPixel (v.x / v.z) (v.y / v.z)) := by
  rw [project, if_neg (not_le.mpr hv)]

theorem exists_projectWithSlopes (c : Camera ℝ) (v : Vec3 ℝ) (hv : 0 < v.z) :
    ∃ slopes, c.projectWithSlopes v = some slopes := by
  rw [projectWithSlopes, if_neg (not_le.mpr hv)]
  exact ⟨_, rfl⟩

theorem tangentToPixel_eq (c : Camera ℝ) (x y : ℝ) :
    c.tangentToPixel x y =
      (c.fi * (x * (c.distortion.scaleAndSlope (x * x + y * y)).1) + c.pi,
        c.fj * (y * (c.distortion.scaleAndSlope (x * x + y * y)).1) + c.pj) := by
  simp only [tangentToPixel, Distortion.distort_eq (α := ℝ) mul_one]

/-- The quotient of a coordinate by the depth. -/
theorem hasDerivAt_quotient {a z : ℝ → ℝ} {a' z' t : ℝ} (ha : HasDerivAt a a' t)
    (hz : HasDerivAt z z' t) (hpos : 0 < z t) :
    HasDerivAt (fun u => a u / z u) (1 / z t * a' + -(a t / z t) * (1 / z t) * z') t := by
  refine (ha.div hz hpos.ne').congr_deriv ?_
  field_simp
  ring

/-- The chain rule through the distortion, for any motion of the tangent point. -/
theorem hasPixelSlope_tangentToPixel (c : Camera ℝ) {x y : ℝ → ℝ} {x' y' t : ℝ}
    (hx : HasDerivAt x x' t) (hy : HasDerivAt y y' t) :
    let scaling := c.distortion.scaleAndSlope (x t * x t + y t * y t)
    HasPixelSlope (fun u => c.tangentToPixel (x u) (y u))
      (c.fi * (scaling.1 + 2 * x t * x t * scaling.2) * x' +
          c.fi * (2 * x t * y t * scaling.2) * y',
        c.fj * (2 * x t * y t * scaling.2) * x' +
          c.fj * (scaling.1 + 2 * y t * y t * scaling.2) * y') t := by
  have hr2 := (hx.fun_mul hx).fun_add (hy.fun_mul hy)
  have hscale := (c.distortion.hasDerivAt_scale _).comp t hr2
  simp only [HasPixelSlope, tangentToPixel_eq]
  constructor
  · refine (((hx.mul hscale).const_mul c.fi).add_const c.pi).congr_deriv ?_
    simp only [Function.comp_apply]
    ring
  · refine (((hy.mul hscale).const_mul c.fj).add_const c.pj).congr_deriv ?_
    simp only [Function.comp_apply]
    ring

/-- A vector that moves in front of the camera moves its pixel by the derivatives by the vector. -/
theorem hasPixelSlope_project (c : Camera ℝ) {v : ℝ → Vec3 ℝ} {slope : Vec3 ℝ} {t : ℝ}
    (hv : Vec3.HasSlope v slope t) (hdepth : 0 < (v t).z) {slopes : PixelSlopes ℝ}
    (hslopes : c.projectWithSlopes (v t) = some slopes) (hidden : ℝ × ℝ) :
    HasPixelSlope (fun u => (c.project (v u)).getD hidden)
      (slopes.byPoint.1.dot slope, slopes.byPoint.2.dot slope) t := by
  have hfront : ∀ᶠ u in nhds t, (c.project (v u)).getD hidden =
      c.tangentToPixel ((v u).x / (v u).z) ((v u).y / (v u).z) := by
    filter_upwards [hv.z.continuousAt.eventually (lt_mem_nhds hdepth)] with u hu
    rw [c.project_of_pos (v u) hu, Option.getD_some]
  have hx := hasDerivAt_quotient hv.x hv.z hdepth
  have hy := hasDerivAt_quotient hv.y hv.z hdepth
  obtain ⟨hi, hj⟩ := c.hasPixelSlope_tangentToPixel hx hy
  simp only [projectWithSlopes, if_neg (not_le.mpr hdepth), Option.some.injEq] at hslopes
  subst hslopes
  constructor
  · refine (hi.congr_of_eventuallyEq (hfront.mono fun u hu => congrArg Prod.fst hu)).congr_deriv ?_
    simp only [Vec3.dot, Vec3.scale, Vec3.add_def, Scalar.two_real]
    ring
  · refine (hj.congr_of_eventuallyEq (hfront.mono fun u hu => congrArg Prod.snd hu)).congr_deriv ?_
    simp only [Vec3.dot, Vec3.scale, Vec3.add_def, Scalar.two_real]
    ring

/-- The powers of a ratio, from the first on. -/
theorem getElem?_geometric (ratio : ℝ) {n j : Nat} (hj : j < n) (first : ℝ) :
    (geometric ratio n first)[j]? = some (first * ratio ^ j) := by
  induction n generalizing j first with
  | zero => omega
  | succ n ih =>
    cases j with
    | zero => simp only [geometric, List.getElem?_cons_zero, pow_zero, mul_one]
    | succ j =>
      rw [geometric, List.getElem?_cons_succ, ih (by omega), pow_succ']
      congr 1
      ring

@[simp] theorem length_geometric {α : Type} [Scalar α] (ratio : α) (n : Nat) (first : α) :
    (geometric ratio n first).length = n := by
  induction n generalizing first with
  | zero => rfl
  | succ n ih => rw [geometric, List.length_cons, ih]

/-- There is a derivative for each intrinsic. -/
theorem length_byIntrinsics {α : Type} [Scalar α] {c : Camera α} {v : Vec3 α}
    {slopes : PixelSlopes α} (hslopes : c.projectWithSlopes v = some slopes) :
    slopes.byIntrinsics.length = c.parameterCount := by
  unfold projectWithSlopes at hslopes
  split at hslopes
  · cases hslopes
  · cases hslopes
    rw [List.length_append, List.length_map, length_geometric]
    rfl

/-- The parameters of a camera are its four pinhole parameters and the free coefficients. -/
theorem exists_pinhole_of_length {α : Type} (c : Camera α) (ps : List α)
    (hps : ps.length = c.parameterCount) :
    ∃ fi fj pi pj ks, ps = fi :: fj :: pi :: pj :: ks ∧ ks.length = c.distortion.freeCount := by
  match ps with
  | fi :: fj :: pi :: pj :: ks =>
    refine ⟨fi, fj, pi, pj, ks, rfl, ?_⟩
    simp only [List.length_cons, parameterCount] at hps
    omega
  | [] | [_] | [_, _] | [_, _, _] =>
    simp only [List.length_cons, List.length_nil, parameterCount] at hps
    omega

@[simp] theorem parameterCount_withParameters {α : Type} (c : Camera α) (ps : List α) :
    (c.withParameters ps).parameterCount = c.parameterCount := by
  unfold withParameters
  split
  · simp only [parameterCount, Distortion.freeCount_withFree]
  · rfl

/-- A pixel moves with a free coefficient by the power of the squared radius that belongs to it. -/
theorem hasPixelSlope_coefficient (c : Camera ℝ) (fi fj pi pj : ℝ) (ks : List ℝ)
    (hks : ks.length = c.distortion.freeCount) {j : Nat} (hj : j < ks.length) (x y t : ℝ) :
    HasPixelSlope
      (fun k => (c.withParameters (fi :: fj :: pi :: pj :: ks.set j k)).tangentToPixel x y)
      (fi * x * ((x * x + y * y) * (x * x + y * y) ^ j),
        fj * y * ((x * x + y * y) * (x * x + y * y) ^ j)) t := by
  have hscale := c.distortion.hasDerivAt_scale_free ks hks hj (x * x + y * y) t
  simp only [HasPixelSlope, tangentToPixel_eq, withParameters]
  constructor
  · refine (((hscale.const_mul x).const_mul fi).add_const pi).congr_deriv ?_
    ring
  · refine (((hscale.const_mul y).const_mul fj).add_const pj).congr_deriv ?_
    ring

/-- The pixel moves with each intrinsic by the derivative listed for it. -/
theorem hasPixelSlope_intrinsic (c : Camera ℝ) (ps : List ℝ) (hps : ps.length = c.parameterCount)
    {i : Nat} (hi : i < ps.length) (v : Vec3 ℝ) (hdepth : 0 < v.z) {slopes : PixelSlopes ℝ}
    (hslopes : (c.withParameters ps).projectWithSlopes v = some slopes) (hidden : ℝ × ℝ) (t : ℝ) :
    HasPixelSlope (fun x => ((c.withParameters (ps.set i x)).project v).getD hidden)
      (slopes.byIntrinsics.getD i (0, 0)) t := by
  obtain ⟨fi, fj, pi, pj, ks, rfl, hks⟩ := c.exists_pinhole_of_length ps hps
  simp only [projectWithSlopes, if_neg (not_le.mpr hdepth), Option.some.injEq] at hslopes
  subst hslopes
  simp only [project_of_pos _ v hdepth, Option.getD_some, tangentToPixel_eq, HasPixelSlope,
    withParameters]
  match i with
  | 0 =>
    constructor
    · simpa using ((hasDerivAt_id' t).mul_const _).add_const pi
    · simpa using hasDerivAt_const t _
  | 1 =>
    constructor
    · simpa using hasDerivAt_const t _
    · simpa using ((hasDerivAt_id' t).mul_const _).add_const pj
  | 2 =>
    constructor
    · simpa using (hasDerivAt_id' t).const_add _
    · simpa using hasDerivAt_const t _
  | 3 =>
    constructor
    · simpa using hasDerivAt_const t _
    · simpa using (hasDerivAt_id' t).const_add _
  | j + 4 =>
    have hj : j < ks.length := by
      simp only [List.length_cons] at hi
      omega
    have hpower := getElem?_geometric (v.x / v.z * (v.x / v.z) + v.y / v.z * (v.y / v.z))
      (hks ▸ hj) (v.x / v.z * (v.x / v.z) + v.y / v.z * (v.y / v.z))
    have hcoefficient :=
      c.hasPixelSlope_coefficient fi fj pi pj ks hks hj (v.x / v.z) (v.y / v.z) t
    simpa [HasPixelSlope, tangentToPixel_eq, withParameters, hpower] using hcoefficient

end Camera
end SkyCamera
