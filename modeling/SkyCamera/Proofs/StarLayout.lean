import Mathlib.Data.Fin.Basic
import SkyCamera.Calibration.StarFit

/-!
The layout of a calibration. Each star has two places among the data, one for each coordinate of
its pixel; values, observations and rows of the Jacobian at these places are those of the star
alone. Among the parameters the intrinsics of the camera come first and the quaternion last, and
either part can be changed without the other.
-/
namespace SkyCamera

theorem RadialDistortion.withFree_freeCoefficients {α : Type} (d : RadialDistortion α) :
    d.withFree d.freeCoefficients = d := by
  have hthree := d.freeCount_le_three
  have hcases : d.freeCount = 0 ∨ d.freeCount = 1 ∨ d.freeCount = 2 ∨ d.freeCount = 3 := by omega
  obtain h | h | h | h := hcases
  · simp [withFree, freeCoefficients, h]
  · simp [withFree, freeCoefficients, h]
  · simp [withFree, freeCoefficients, h]
  · simp [withFree, freeCoefficients, h]

theorem RadialDistortion.freeCoefficients_withFree {α : Type} (d : RadialDistortion α) {ks : List α}
    (hks : ks.length = d.freeCount) : (d.withFree ks).freeCoefficients = ks := by
  have hthree := d.freeCount_le_three
  have hfree : (d.withFree ks).freeCoefficients =
      [(d.withFree ks).k1, (d.withFree ks).k2, (d.withFree ks).k3].take d.freeCount := rfl
  rw [hfree]
  match ks with
  | [] => simp [← hks]
  | [k1] => simp [withFree, ← hks]
  | [k1, k2] => simp [withFree, ← hks]
  | [k1, k2, k3] => simp [withFree, ← hks]
  | _ :: _ :: _ :: _ :: _ =>
    simp only [List.length_cons] at hks
    omega

theorem Distortion.withFree_freeCoefficients {α : Type} (d : Distortion α) :
    d.withFree d.freeCoefficients = d := by
  cases d with
  | none => rfl
  | radial d => exact congrArg Distortion.radial d.withFree_freeCoefficients

theorem Camera.withParameters_parameters {α : Type} (c : Camera α) :
    c.withParameters c.parameters = c := by
  simp only [parameters, List.cons_append, List.nil_append, withParameters,
    Distortion.withFree_freeCoefficients]

theorem Camera.parameters_withParameters {α : Type} (c : Camera α) {ps : List α}
    (hps : ps.length = c.parameterCount) : (c.withParameters ps).parameters = ps := by
  match ps with
  | [] | [_] | [_, _] | [_, _, _] =>
    simp only [parameterCount, List.length_cons, List.length_nil] at hps
    omega
  | fi :: fj :: pi :: pj :: ks =>
    have hks : ks.length = c.distortion.freeCount := by
      simp only [parameterCount, List.length_cons] at hps
      omega
    have hfree : (c.distortion.withFree ks).freeCoefficients = ks := by
      cases hdistortion : c.distortion with
      | none =>
        rw [hdistortion] at hks
        exact (List.length_eq_zero_iff.mp hks).symm
      | radial d =>
        rw [hdistortion] at hks
        exact d.freeCoefficients_withFree hks
    simp only [parameters, withParameters, hfree, List.cons_append, List.nil_append]

/-- The quaternion with component `e` replaced, counted from the scalar part. -/
def Quaternion.replace {α : Type} (q : Quaternion α) (e : Fin 4) (x : α) : Quaternion α :=
  match e with
  | 0 => { q with w := x }
  | 1 => { q with x := x }
  | 2 => { q with y := x }
  | 3 => { q with z := x }

namespace StarFit

section Places

variable {α : Type} (f : StarFit α)

/-- The place among the data of a coordinate of star `k`: `2 k` and `2 k + 1`. -/
def place (k : Fin f.stars.size) (e : Fin 2) : Fin f.dataCount :=
  ⟨2 * k + e, by
    have hk := k.isLt
    have he := e.isLt
    unfold dataCount
    omega⟩

/-- Data that are packed star by star. -/
theorem getElem_place {β : Type} {v : Vector β f.dataCount} {rows : Fin f.stars.size → Vector β 2}
    (hv : v = (Vector.ofFn rows).flatten) (k : Fin f.stars.size) (e : Fin 2) :
    v[f.place k e] = (rows k)[e] := by
  subst hv
  have hdiv : (2 * k.val + e.val) / 2 = k.val := by omega
  have hmod : (2 * k.val + e.val) % 2 = e.val := by omega
  refine (Vector.getElem_flatten (f.place k e).isLt).trans ?_
  simp only [place, Vector.getElem_ofFn, hdiv, hmod]
  rfl

theorem observed_place (k : Fin f.stars.size) (e : Fin 2) :
    f.observed[f.place k e] = #v[(f.star k).i, (f.star k).j][e] :=
  f.getElem_place rfl k e

def pairAt {β : Type} (v : Vector β f.dataCount) (k : Fin f.stars.size) : β × β :=
  (v[f.place k 0], v[f.place k 1])

theorem pairAt_observed (k : Fin f.stars.size) :
    f.pairAt f.observed k = ((f.star k).i, (f.star k).j) := by
  rw [pairAt, observed_place, observed_place]
  rfl

def coordinate {β : Type} (pair : β × β) (e : Fin 2) : β := if e.val = 0 then pair.1 else pair.2

/-- The camera depends on the intrinsics alone. -/
theorem cameraAt_congr {p q : Vector α f.parameterCount}
    (h : ∀ c : Fin f.parameterCount, c.val < f.intrinsicCount → p[c] = q[c]) :
    f.cameraAt p = f.cameraAt q := by
  have htake : p.toList.take f.intrinsicCount = q.toList.take f.intrinsicCount := by
    refine List.ext_getElem (by simp) fun i hi hi' => ?_
    have hlt : i < f.intrinsicCount := (List.length_take_le _ _).trans_lt' hi
    simpa using h ⟨i, Nat.lt_add_right 4 hlt⟩ hlt
  rw [cameraAt, htake, cameraAt]

theorem cameraAt_set_intrinsic (p : Vector α f.parameterCount) (c : Fin f.parameterCount)
    (x : α) :
    f.cameraAt (p.set c x) =
      f.camera.withParameters ((p.toList.take f.intrinsicCount).set c x) := by
  rw [cameraAt, Vector.toList_set, List.take_set]

theorem cameraAt_set_of_le (p : Vector α f.parameterCount) (c : Fin f.parameterCount)
    (hc : f.intrinsicCount ≤ c.val) (x : α) : f.cameraAt (p.set c x) = f.cameraAt p :=
  f.cameraAt_congr fun _ hlt => Vector.getElem_set_ne _ _ (hlt.trans_le hc).ne'

theorem quaternionAt_set_of_lt (p : Vector α f.parameterCount) (c : Fin f.parameterCount)
    (hc : c.val < f.intrinsicCount) (x : α) : f.quaternionAt (p.set c x) = f.quaternionAt p := by
  simp only [quaternionAt, Quaternion.mk.injEq]
  refine ⟨?_, ?_, ?_, ?_⟩ <;> exact Vector.getElem_set_ne _ _ (by omega)

/-- The component `e` of the quaternion is the parameter `e` after the intrinsics. -/
theorem quaternionAt_set_component (p : Vector α f.parameterCount) (e : Fin 4)
    (hc : f.intrinsicCount + e.val < f.parameterCount) (x : α) :
    f.quaternionAt (p.set (f.intrinsicCount + e.val) x) = (f.quaternionAt p).replace e x := by
  match e with
  | 0 | 1 | 2 | 3 => simp [quaternionAt, Quaternion.replace]

/-- Every parameter after the intrinsics is a component of the quaternion. -/
theorem exists_component (p : Vector α f.parameterCount) (c : Fin f.parameterCount)
    (hc : f.intrinsicCount ≤ c.val) :
    ∃ component : Fin 4, c.val = f.intrinsicCount + component.val ∧
      ∀ x : α, f.quaternionAt (p.set c x) = (f.quaternionAt p).replace component x := by
  have hlt : c.val - f.intrinsicCount < 4 := by
    have hc' := c.isLt
    unfold parameterCount at hc'
    omega
  have hplace : c.val = f.intrinsicCount + (c.val - f.intrinsicCount) := by omega
  refine ⟨⟨c.val - f.intrinsicCount, hlt⟩, hplace, fun x => ?_⟩
  have hset := f.quaternionAt_set_component p ⟨c.val - f.intrinsicCount, hlt⟩ (hplace ▸ c.isLt) x
  simp only [← hplace] at hset
  exact hset

theorem length_take_intrinsicCount (p : Vector α f.parameterCount) :
    (p.toList.take f.intrinsicCount).length = f.camera.parameterCount := by
  rw [List.length_take, Vector.length_toList, parameterCount, intrinsicCount]
  omega

theorem setParameters_take (p : Vector α f.parameterCount) :
    f.camera.setParameters (p.toList.take f.intrinsicCount) = .ok (f.cameraAt p) := by
  rw [Camera.setParameters, if_pos (f.length_take_intrinsicCount p), cameraAt]

theorem drop_intrinsicCount (p : Vector α f.parameterCount) :
    p.toList.drop f.intrinsicCount = (f.quaternionAt p).toList := by
  have hlength : p.toList.length = f.intrinsicCount + 4 := p.length_toList
  rw [List.drop_eq_getElem_cons (by omega), List.drop_eq_getElem_cons (by omega),
    List.drop_eq_getElem_cons (by omega), List.drop_eq_getElem_cons (by omega),
    List.drop_eq_nil_of_le (by omega)]
  simp [quaternionAt, Quaternion.toList]

theorem length_initialList : f.initialList.length = f.parameterCount := by
  rw [initialList, List.length_append, Camera.length_parameters]
  rfl

end Places

variable {α : Type} [Scalar α] (f : StarFit α)

/-- A star on the plane of the camera or behind it is modelled where it was observed. -/
theorem pixelOf_of_hidden (camera : Camera α) (q : Quaternion α) (star : KeptStar α)
    (hdepth : (rotate q star.direction).z ≤ 0) : pixelOf camera q star = #v[star.i, star.j] := by
  rw [pixelOf, Camera.project, if_pos hdepth, Option.getD_none]

theorem rowsOf_of_hidden (camera : Camera α) (q : Quaternion α) (star : KeptStar α)
    (hdepth : (rotate q star.direction).z ≤ 0) : rowsOf camera q star = ([], []) := by
  rw [rowsOf, Camera.projectWithSlopes, if_pos hdepth]

theorem values_place (p : Vector α f.parameterCount) (k : Fin f.stars.size) (e : Fin 2) :
    (f.values p)[f.place k e] = (pixelOf (f.cameraAt p) (f.quaternionAt p) (f.star k))[e] :=
  f.getElem_place rfl k e

def pixelAt (f : StarFit α) (p : Vector α f.parameterCount) (k : Fin f.stars.size) : α × α :=
  ((f.values p)[f.place k 0], (f.values p)[f.place k 1])

theorem pixelAt_eq (p : Vector α f.parameterCount) (k : Fin f.stars.size) :
    f.pixelAt p k =
      ((f.cameraAt p).project (rotate (f.quaternionAt p) (f.star k).direction)).getD
        ((f.star k).i, (f.star k).j) := by
  rw [pixelAt, values_place, values_place]
  rfl

theorem jacobian_place (p : Vector α f.parameterCount) (k : Fin f.stars.size) (e : Fin 2)
    (c : Fin f.parameterCount) :
    (f.jacobian p)[f.place k e][c] =
      (coordinate (rowsOf (f.cameraAt p) (f.quaternionAt p) (f.star k)) e).getD c 0 := by
  have hrow := f.getElem_place (v := f.jacobian p) rfl k e
  refine (congrArg (fun row : Vector α f.parameterCount => row[c]) hrow).trans ?_
  match e with
  | 0 => simp [coordinate]
  | 1 => simp [coordinate]

theorem jacobian_model {mode : JacobianMode} (hmode : mode = .analytic)
    (p : Vector α f.parameterCount) : (f.model mode).jacobian p = f.jacobian p := by
  rw [hmode]
  rfl

theorem toList_initial : f.initial.toList = f.initialList := by
  refine List.ext_getElem (by rw [Vector.length_toList, length_initialList]) fun i hi hi' => ?_
  simp [initial, hi']

theorem cameraAt_initial : f.cameraAt f.initial = f.camera := by
  have htake : f.initialList.take f.intrinsicCount = f.camera.parameters :=
    List.take_left' f.camera.length_parameters
  rw [cameraAt, toList_initial, htake, Camera.withParameters_parameters]

theorem quaternionAt_initial : f.quaternionAt f.initial = f.orientation := by
  have hlength : f.camera.parameters.length = f.intrinsicCount := f.camera.length_parameters
  simp [quaternionAt, initial, initialList, Quaternion.toList, hlength]

end StarFit
end SkyCamera
