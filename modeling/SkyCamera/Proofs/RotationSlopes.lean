import SkyCamera.Proofs.ProjectionSlopes
import SkyCamera.Proofs.StarLayout

/-!
The turned vector is a quadratic form in the components of the quaternion, so its expansion to the
second order in each of them is exact, and the slopes listed are those of first order.
-/
namespace SkyCamera

/-- A curve that is of second order about a point has the coefficient of first order as its
derivative there. -/
theorem hasDerivAt_of_second_order {g : ℝ → ℝ} {a b c t : ℝ}
    (hg : ∀ x, g x = a + b * (x - t) + c * (x - t) ^ 2) : HasDerivAt g b t := by
  have hstep := (hasDerivAt_id' t).sub_const t
  have hsum := ((hstep.const_mul b).const_add a).fun_add ((hstep.fun_pow 2).const_mul c)
  rw [funext hg]
  refine hsum.congr_deriv ?_
  rw [sub_self]
  ring

namespace StarFit

noncomputable def rotateSlope (q : Quaternion ℝ) (s : Vec3 ℝ) (e : Fin 4) : Vec3 ℝ :=
  (rotateSlopes q s)[e]

/-- What a change of component `e` by one adds to the turned vector in second order. -/
noncomputable def rotateBend (s : Vec3 ℝ) (e : Fin 4) : Vec3 ℝ :=
  rotate ((⟨0, 0, 0, 0⟩ : Quaternion ℝ).replace e 1) s

/-- In one component of the quaternion a rotated vector is a polynomial of degree two. -/
theorem rotate_replace (q : Quaternion ℝ) (s : Vec3 ℝ) (e : Fin 4) (x t : ℝ) :
    rotate (q.replace e x) s = rotate (q.replace e t) s +
      (rotateSlope (q.replace e t) s e).scale (x - t) + (rotateBend s e).scale ((x - t) ^ 2) := by
  match e with
  | 0 | 1 | 2 | 3 =>
    simp only [rotateSlope, rotateSlopes, rotateBend, rotate, Quaternion.replace, Vec3.add_def,
      Vec3.scale, Vec3.dot, Vec3.cross, Scalar.two_real, Fin.getElem_fin, Fin.isValue,
      Fin.coe_ofNat_eq_mod, Nat.reduceMod, List.getElem_cons_zero, List.getElem_cons_succ,
      Vec3.mk.injEq]
    refine ⟨?_, ?_, ?_⟩
    · ring
    · ring
    · ring

theorem hasSlope_rotate (q : Quaternion ℝ) (s : Vec3 ℝ) (e : Fin 4) (t : ℝ) :
    Vec3.HasSlope (fun x => rotate (q.replace e x) s) (rotateSlope (q.replace e t) s e) t where
  x := hasDerivAt_of_second_order fun x => congrArg Vec3.x (rotate_replace q s e x t)
  y := hasDerivAt_of_second_order fun x => congrArg Vec3.y (rotate_replace q s e x t)
  z := hasDerivAt_of_second_order fun x => congrArg Vec3.z (rotate_replace q s e x t)

end StarFit
end SkyCamera
