import Mathlib.Analysis.SpecialFunctions.Complex.Arg
import Mathlib.Analysis.SpecialFunctions.Trigonometric.Arctan
import Mathlib.Analysis.SpecialFunctions.Trigonometric.Inverse
import SkyCamera.Scalar

/-!
The real numbers as an arithmetic. Every real number is finite, comparisons are those of a linear
order and operations are those of a field, so what is proved of calibrations over the reals holds
in exact arithmetic.
-/
namespace SkyCamera

noncomputable instance : Scalar ℝ where
  toZero := inferInstance
  toOne := inferInstance
  toAdd := inferInstance
  toSub := inferInstance
  toMul := inferInstance
  toDiv := inferInstance
  toNeg := inferInstance
  toLT := inferInstance
  toLE := inferInstance
  toNatCast := inferInstance
  toIntCast := inferInstance
  toOfScientific := inferInstance
  decidableLT := inferInstance
  decidableLE := inferInstance
  pi := Real.pi
  sqrt := Real.sqrt
  hypot x y := Real.sqrt (x ^ 2 + y ^ 2)
  sin := Real.sin
  cos := Real.cos
  tan := Real.tan
  asin := Real.arcsin
  atan := Real.arctan
  atan2 y x := Complex.arg ⟨x, y⟩
  exp := Real.exp
  log := Real.log
  modulo x y := x - |y| * ⌊x / |y|⌋

namespace Scalar

@[simp] theorem two_real : (2.0 : ℝ) = 2 := by norm_num

@[simp] theorem three_real : (3.0 : ℝ) = 3 := by norm_num

@[simp] theorem sin_real (x : ℝ) : Scalar.sin x = Real.sin x := rfl

@[simp] theorem cos_real (x : ℝ) : Scalar.cos x = Real.cos x := rfl

@[simp] theorem isZero_real_iff (x : ℝ) : Scalar.IsZero x ↔ x = 0 := le_antisymm_iff.symm

@[simp] theorem isFinite_real (x : ℝ) : Scalar.IsFinite x := by
  rw [Scalar.IsFinite, sub_self, isZero_real_iff]

theorem abs_real (x : ℝ) : Scalar.abs x = |x| := by
  unfold Scalar.abs
  split
  next h => exact (abs_of_neg h).symm
  next h => exact (abs_of_nonneg (not_lt.mp h)).symm

theorem smallest_pos : (0 : ℝ) < Scalar.smallest := by
  unfold Scalar.smallest
  rw [← NNRat.cast_ofScientific, NNRat.cast_pos]
  decide +kernel

theorem smallest_le_one : (Scalar.smallest : ℝ) ≤ 1 := by
  unfold Scalar.smallest
  rw [← NNRat.cast_ofScientific, NNRat.cast_le_one]
  decide +kernel

theorem atLeast_real (floor x : ℝ) : Scalar.atLeast floor x = max x floor := by
  rw [Scalar.atLeast, max_comm, max_def]

theorem atLeast_pos {floor : ℝ} (hfloor : 0 < floor) (x : ℝ) : 0 < Scalar.atLeast floor x := by
  unfold Scalar.atLeast
  split
  next h => exact hfloor.trans_le h
  next => exact hfloor

end Scalar
end SkyCamera
