import Mathlib.Analysis.SpecialFunctions.Complex.Arg
import Mathlib.Analysis.SpecialFunctions.Trigonometric.Angle
import SkyCamera.Proofs.RealScalar

/-!
Angles as they are read off, in exact arithmetic: from the two coordinates of a point, brought into
one turn, or from a quotient that is clamped first.
-/
namespace SkyCamera.Scalar

theorem tau_real : (Scalar.tau : ℝ) = 2 * Real.pi := congrArg (· * Real.pi) two_real

theorem modulo_tau (x : ℝ) :
    Scalar.modulo x Scalar.tau = x - ⌊x / (2 * Real.pi)⌋ * (2 * Real.pi) := by
  show x - |Scalar.tau| * _ = _
  rw [tau_real, abs_of_pos Real.two_pi_pos, mul_comm]

theorem modulo_tau_nonneg (x : ℝ) : 0 ≤ Scalar.modulo x Scalar.tau := by
  rw [modulo_tau]
  exact Int.sub_floor_div_mul_nonneg x Real.two_pi_pos

theorem modulo_tau_lt (x : ℝ) : Scalar.modulo x Scalar.tau < 2 * Real.pi := by
  rw [modulo_tau]
  exact Int.sub_floor_div_mul_lt x Real.two_pi_pos

theorem cos_modulo_tau (x : ℝ) : Real.cos (Scalar.modulo x Scalar.tau) = Real.cos x := by
  rw [modulo_tau, Real.cos_sub_int_mul_two_pi]

theorem sin_modulo_tau (x : ℝ) : Real.sin (Scalar.modulo x Scalar.tau) = Real.sin x := by
  rw [modulo_tau, Real.sin_sub_int_mul_two_pi]

/-- Within one turn, cosine and sine decide the angle. -/
theorem eq_of_cos_eq_of_sin_eq {a b : ℝ} (ha : 0 ≤ a ∧ a < 2 * Real.pi)
    (hb : 0 ≤ b ∧ b < 2 * Real.pi) (hcos : Real.cos a = Real.cos b)
    (hsin : Real.sin a = Real.sin b) : a = b := by
  obtain ⟨k, hk⟩ :=
    Real.Angle.angle_eq_iff_two_pi_dvd_sub.mp (Real.Angle.cos_sin_inj hcos hsin)
  -- The two are less than a turn apart.
  have hupper : 2 * Real.pi * k < 2 * Real.pi * 1 := by linarith
  have hlower : 2 * Real.pi * -1 < 2 * Real.pi * k := by linarith
  have hlt : (k : ℝ) < 1 := lt_of_mul_lt_mul_left hupper Real.two_pi_pos.le
  have hgt : (-1 : ℝ) < k := lt_of_mul_lt_mul_left hlower Real.two_pi_pos.le
  have hzero : k = 0 := by
    have hlt' : k < 1 := by exact_mod_cast hlt
    have hgt' : -1 < k := by exact_mod_cast hgt
    omega
  rw [hzero, Int.cast_zero, mul_zero] at hk
  exact sub_eq_zero.mp hk

/-- Polar coordinates are those of a point, also of the origin, which has no angle of its own. -/
theorem polar_atan2 (y x : ℝ) :
    Real.sqrt (x ^ 2 + y ^ 2) * Real.cos (Scalar.atan2 y x) = x ∧
      Real.sqrt (x ^ 2 + y ^ 2) * Real.sin (Scalar.atan2 y x) = y := by
  have hpolar := Complex.norm_mul_cos_add_sin_mul_I ⟨x, y⟩
  rw [Complex.norm_eq_sqrt_sq_add_sq] at hpolar
  have hre := congrArg Complex.re hpolar
  have him := congrArg Complex.im hpolar
  rw [← Complex.ofReal_cos, ← Complex.ofReal_sin, Complex.re_ofReal_mul] at hre
  rw [← Complex.ofReal_cos, ← Complex.ofReal_sin, Complex.im_ofReal_mul] at him
  simp only [Complex.add_re, Complex.add_im, Complex.ofReal_re, Complex.ofReal_im, Complex.mul_re,
    Complex.mul_im, Complex.I_re, Complex.I_im, mul_zero, mul_one, sub_zero, add_zero,
    zero_add] at hre him
  exact ⟨hre, him⟩

/-- The angle of a point that is given by polar coordinates, brought into one turn. -/
theorem modulo_atan2_of_polar {r theta : ℝ} (hr : 0 < r) (htheta : 0 ≤ theta)
    (hturn : theta < 2 * Real.pi) :
    Scalar.modulo (Scalar.atan2 (r * Real.sin theta) (r * Real.cos theta)) Scalar.tau = theta := by
  have hradius : Real.sqrt ((r * Real.cos theta) ^ 2 + (r * Real.sin theta) ^ 2) = r := by
    have hsquares : (r * Real.cos theta) ^ 2 + (r * Real.sin theta) ^ 2 = r ^ 2 := by
      linear_combination r ^ 2 * Real.cos_sq_add_sin_sq theta
    rw [hsquares, Real.sqrt_sq hr.le]
  obtain ⟨hcos, hsin⟩ := polar_atan2 (r * Real.sin theta) (r * Real.cos theta)
  rw [hradius] at hcos hsin
  refine eq_of_cos_eq_of_sin_eq ⟨modulo_tau_nonneg _, modulo_tau_lt _⟩ ⟨htheta, hturn⟩ ?_ ?_
  · rw [cos_modulo_tau, mul_left_cancel₀ hr.ne' hcos]
  · rw [sin_modulo_tau, mul_left_cancel₀ hr.ne' hsin]

theorem clampUnit_of_abs_le {x : ℝ} (hx : |x| ≤ 1) : Scalar.clampUnit x = x := by
  obtain ⟨hlow, hhigh⟩ := abs_le.mp hx
  rw [clampUnit, if_neg hlow.not_gt, if_neg hhigh.not_gt]

end SkyCamera.Scalar
