import SkyCamera.Proofs.FloatValue

/-!
Floats beyond the numbers. What is undefined or infinite is not made finite again by a difference, a
product or a quotient of it, and a result that is too large becomes the infinity with its sign. So
a difference that is above zero tells where its terms are.
-/
namespace SkyCamera.Binary64

open Float.Model

/-- Undefined or infinite. -/
inductive IsUnbounded : UnpackedFloat → Prop
  | notANumber : IsUnbounded .notANumber
  | infinity (s : UnpackedFloat.Sign) : IsUnbounded (.infinity s)

theorem IsUnbounded.not_hasValue {a : UnpackedFloat} (h : IsUnbounded a) (q : ℚ) :
    ¬ HasValue a q := by
  cases h with
  | notANumber => exact nofun
  | infinity s => exact nofun

theorem IsUnbounded.unpack_eq {x : Float} {a : UnpackedFloat} (h : IsUnbounded a)
    (hx : x.toModel = .pack a) : x.toModel.unpack = a := by
  rw [hx]
  cases h with
  | notANumber => rfl
  | infinity s => cases s <;> rfl

/-- The test subtracts the float from itself. -/
theorem isFinite_iff_not_isUnbounded (x : Float) :
    Scalar.IsFinite x ↔ ¬ IsUnbounded x.toModel.unpack := by
  rw [isFinite_iff]
  constructor
  · rintro ⟨q, hq⟩ h
    exact h.not_hasValue q hq
  · intro h
    rcases exists_isValue_or x with hx | hx | ⟨s, hx⟩
    · exact hx
    · exact absurd (hx ▸ .notANumber) h
    · exact absurd (hx ▸ .infinity s) h

/-- A result is not finite where it was not made so. -/
theorem not_isUnbounded_of_isFinite {z : Float} {a b : UnpackedFloat} (hz : z.toModel = .pack b)
    (hab : IsUnbounded a → IsUnbounded b) (h : Scalar.IsFinite z) : ¬ IsUnbounded a := by
  intro ha
  rw [isFinite_iff_not_isUnbounded, (hab ha).unpack_eq hz] at h
  exact h (hab ha)

/-- An operation that makes nothing finite of an argument on the left that is not. -/
def LeavesUnbounded (operation : UnpackedFloat → UnpackedFloat → UnpackedFloat) : Prop :=
  ∀ a b, IsUnbounded a → IsUnbounded (operation a b)

theorem leavesUnbounded_sub : LeavesUnbounded (UnpackedFloat.sub .binary64) := by
  intro a b ha
  cases ha with
  | notANumber => cases b <;> exact .notANumber
  | infinity s =>
    rcases b with s' | _ | _ | _
    · cases s <;> cases s' <;> constructor
    · exact .notANumber
    · exact .infinity s
    · exact .infinity s

theorem leavesUnbounded_mul : LeavesUnbounded (UnpackedFloat.mul .binary64) := by
  intro a b ha
  cases ha with
  | notANumber => cases b <;> exact .notANumber
  | infinity s => cases b <;> constructor

theorem leavesUnbounded_div : LeavesUnbounded (UnpackedFloat.div .binary64) := by
  intro a b ha
  cases ha with
  | notANumber => cases b <;> exact .notANumber
  | infinity s => cases b <;> constructor

theorem isFinite_of_sub {x y : Float} (h : Scalar.IsFinite (x - y)) : Scalar.IsFinite x :=
  (isFinite_iff_not_isUnbounded x).mpr
    (not_isUnbounded_of_isFinite rfl (leavesUnbounded_sub _ y.toModel.unpack) h)

theorem isFinite_of_mul {x y : Float} (h : Scalar.IsFinite (x * y)) : Scalar.IsFinite x :=
  (isFinite_iff_not_isUnbounded x).mpr
    (not_isUnbounded_of_isFinite rfl (leavesUnbounded_mul _ y.toModel.unpack) h)

theorem isFinite_of_div {x y : Float} (h : Scalar.IsFinite (x / y)) : Scalar.IsFinite x :=
  (isFinite_iff_not_isUnbounded x).mpr
    (not_isUnbounded_of_isFinite rfl (leavesUnbounded_div _ y.toModel.unpack) h)

theorem isStrict_sub : IsStrict (UnpackedFloat.sub .binary64) :=
  ⟨fun b => by cases b <;> rfl, fun a => by cases a <;> rfl⟩

theorem isNumber_of_sub {x y : Float} (h : Scalar.IsNumber (x - y)) :
    Scalar.IsNumber x ∧ Scalar.IsNumber y := isNumber_of_isStrict isStrict_sub rfl h

/-- The float that a number is rounded to: of one that is too large, the infinity with its sign. -/
inductive IsResult (x : Float) (q : ℚ) : Prop
  | value (h : IsValue x q)
  | overflow (s : UnpackedFloat.Sign) (h : x.toModel.unpack = .infinity s) (hq : 0 < signed s q)

/-- Packing keeps the number, or gives the infinity of its sign where it is too large. -/
theorem isResult_of_pack {x : Float} {a : UnpackedFloat} {q : ℚ} (hx : x.toModel = .pack a)
    (h : HasValue a q) : IsResult x q := by
  cases h with
  | zero s => exact .value (isValue_of_pack hx (.zero s) (by norm_num))
  | finite s m e hpos hm he hfull =>
    have hsize : (0 : ℚ) < m * 2 ^ e := mul_pos (Nat.cast_pos.mpr hpos) (zpow_pos two_pos e)
    have hvalue := HasValue.finite s m e hpos hm he hfull
    by_cases hmax : e ≤ 971
    · refine .value (isValue_of_pack hx hvalue ?_)
      rw [abs_signed, abs_of_pos hsize]
      exact mul_zpow_lt_limit hm hmax
    · have hbiased : 2 ^ Format.binary64.exponentBits ≤ (e + Format.binary64.exponentBias +
          Format.binary64.mantissaBitsWithoutImplicit).toNat + 1 := by
        show 2 ^ 11 ≤ (e + 1023 + 52).toNat + 1
        omega
      have hpack : Float.Model.pack (.finite s m e hpos) = .pack (.infinity s) := by
        simp only [Float.Model.pack, UnpackedFloat.pack, if_pos hbiased]
      refine .overflow s ?_ ?_
      · exact (IsUnbounded.infinity s).unpack_eq (hx.trans hpack)
      · cases s with
        | positive => exact hsize
        | negative => exact hsize.trans_eq (neg_neg _).symm

theorem placeOf_infinity {x : Float} {s : UnpackedFloat.Sign}
    (h : x.toModel.unpack = .infinity s) : placeOf x = place (.infinity s) := by
  rw [placeOf, h]

theorem zero_le_infinity_iff {x : Float} {s : UnpackedFloat.Sign}
    (h : x.toModel.unpack = .infinity s) : 0 ≤ x ↔ s = .positive := by
  rw [Binary64.le_iff, placeOf_infinity h]
  cases s with
  | positive => exact iff_of_true ⟨_, _, rfl, rfl, rfl⟩ rfl
  | negative =>
    refine iff_of_false ?_ nofun
    rintro ⟨c, d, hc, hd, hle⟩
    cases hc
    cases hd
    cases hle

theorem zero_lt_infinity_iff {x : Float} {s : UnpackedFloat.Sign}
    (h : x.toModel.unpack = .infinity s) : 0 < x ↔ s = .positive := by
  rw [OrderedScalar.lt_iff, zero_le_infinity_iff h, Binary64.le_iff, placeOf_infinity h]
  refine and_iff_left_of_imp ?_
  rintro rfl ⟨c, d, hc, hd, hle⟩
  cases hc
  cases hd
  cases hle

/-- The sign of a result is that of its number. -/
theorem IsResult.pos {x : Float} {q : ℚ} (h : IsResult x q) (hx : 0 < x) : 0 < q := by
  cases h with
  | value h => exact (isValue_zero.lt_iff h).mp hx
  | overflow s h hq =>
    obtain rfl := (zero_lt_infinity_iff h).mp hx
    exact hq

theorem IsResult.nonneg {x : Float} {q : ℚ} (h : IsResult x q) (hq : 0 ≤ q) : 0 ≤ x := by
  cases h with
  | value h => exact (isValue_zero.le_iff h).mpr hq
  | overflow s h hpos =>
    rw [zero_le_infinity_iff h]
    cases s with
    | positive => rfl
    | negative => exact absurd hpos (neg_nonpos.mpr hq).not_gt

theorem neg_apply (s : UnpackedFloat.Sign) (m : ℕ) : (-s).apply (m : ℤ) = -s.apply (m : ℤ) := by
  cases s with
  | positive => rfl
  | negative => exact (neg_neg _).symm

theorem unpacked_sub_eq (a b : UnpackedFloat) :
    UnpackedFloat.sub .binary64 a b = UnpackedFloat.add .binary64 a b.neg := by
  cases a with
  | notANumber => cases b <;> rfl
  | infinity s => cases b <;> rfl
  | zero s => cases b <;> rfl
  | finite s m e hpos =>
    cases b with
    | finite s' m' e' hpos' =>
      simp only [UnpackedFloat.sub, UnpackedFloat.add, UnpackedFloat.neg, neg_apply]
      rw [sub_eq_add_neg]
    | _ => rfl

/-- A difference of floats is the difference of their numbers, rounded. -/
theorem IsValue.sub {x y : Float} {p q : ℚ} (hx : IsValue x p) (hy : IsValue y q) :
    ∃ r, Rounds (p - q) r ∧ IsResult (x - y) r := by
  obtain ⟨r, hr, hvalue⟩ := add_hasValue hx (HasValue.neg hy)
  rw [← sub_eq_add_neg] at hr
  rw [← unpacked_sub_eq] at hvalue
  exact ⟨r, hr, isResult_of_pack rfl hvalue⟩

theorem mul_nonneg_of_isValue {x y : Float} {p q : ℚ} (hx : IsValue x p) (hy : IsValue y q)
    (h : 0 ≤ p * q) : 0 ≤ x * y := by
  obtain ⟨r, hr, hvalue⟩ := mul_hasValue hx hy
  exact (isResult_of_pack rfl hvalue).nonneg (rounds_zero.le_of_le hr h)

/-- A square that is a number is not negative, also where it overflows. -/
theorem nonneg_mul_self {x : Float} (h : Scalar.IsNumber (x * x)) : 0 ≤ x * x := by
  rcases exists_isValue_or x with ⟨q, hx⟩ | hx | ⟨s, hx⟩
  · exact mul_nonneg_of_isValue hx hx (mul_self_nonneg q)
  · exact absurd (isNumber_of_mul h).1 (not_isNumber_of_unpack hx)
  · have hproduct : (x * x).toModel =
        .pack (UnpackedFloat.mul .binary64 (.infinity s) (.infinity s)) := by
      rw [← hx]
      rfl
    rw [zero_le_infinity_iff ((IsUnbounded.infinity (s * s)).unpack_eq hproduct)]
    cases s <;> rfl

/-- Neither what is undefined nor the infinity below all numbers is above zero. -/
theorem not_pos_of_pack {x : Float} {a : UnpackedFloat} (hx : x.toModel = .pack a)
    (ha : a = .notANumber ∨ a = .infinity .negative) : ¬ 0 < x := by
  rcases ha with rfl | rfl
  · intro h
    have hnumber := (OrderedScalar.isNumber_of_le (OrderedScalar.lt_iff.mp h).1).2
    exact not_isNumber_of_unpack (IsUnbounded.notANumber.unpack_eq hx) hnumber
  · rw [zero_lt_infinity_iff ((IsUnbounded.infinity .negative).unpack_eq hx)]
    exact nofun

/-- Nothing finite is left of a float when infinity is taken away. -/
theorem sub_infinity (a : UnpackedFloat) :
    UnpackedFloat.sub .binary64 a (.infinity .positive) = .notANumber ∨
      UnpackedFloat.sub .binary64 a (.infinity .positive) = .infinity .negative := by
  cases a with
  | notANumber => exact Or.inl rfl
  | infinity s =>
    cases s with
    | positive => exact Or.inl rfl
    | negative => exact Or.inr rfl
  | zero s => exact Or.inr rfl
  | finite s m e => exact Or.inr rfl

theorem infinity_sub (s : UnpackedFloat.Sign) {b : UnpackedFloat} {q : ℚ} (hb : HasValue b q) :
    UnpackedFloat.sub .binary64 (.infinity s) b = .infinity s := by
  cases hb <;> rfl

/-- What is above zero after a number that is not below it was taken away was above zero before, and
that number was finite. -/
theorem pos_of_sub_pos {x y : Float} (hy : 0 ≤ y) (h : 0 < x - y) :
    0 < x ∧ Scalar.IsFinite y := by
  have hsub : (x - y).toModel =
      .pack (UnpackedFloat.sub .binary64 x.toModel.unpack y.toModel.unpack) := rfl
  have hnumber := (OrderedScalar.isNumber_of_le (OrderedScalar.lt_iff.mp h).1).2
  obtain ⟨q, hq⟩ : ∃ q, IsValue y q := by
    rcases exists_isValue_or y with hvalue | hundefined | ⟨s, hinfinite⟩
    · exact hvalue
    · exact absurd (isNumber_of_sub hnumber).2 (not_isNumber_of_unpack hundefined)
    · rw [hinfinite, (zero_le_infinity_iff hinfinite).mp hy] at hsub
      exact absurd h (not_pos_of_pack hsub (sub_infinity _))
  refine ⟨?_, (isFinite_iff y).mpr ⟨q, hq⟩⟩
  rcases exists_isValue_or x with ⟨p, hp⟩ | hundefined | ⟨s, hinfinite⟩
  · obtain ⟨r, hr, hresult⟩ := hp.sub hq
    have hpos := hresult.pos h
    have hnonneg := (isValue_zero.le_iff hq).mp hy
    refine (isValue_zero.lt_iff hp).mpr (not_le.mp fun hle => hpos.not_ge ?_)
    exact hr.le_of_le rounds_zero (by linarith)
  · exact absurd (isNumber_of_sub hnumber).1 (not_isNumber_of_unpack hundefined)
  · rw [zero_lt_infinity_iff hinfinite]
    cases s with
    | positive => rfl
    | negative =>
      rw [hinfinite, infinity_sub _ hq] at hsub
      exact absurd h (not_pos_of_pack hsub (Or.inr rfl))

end SkyCamera.Binary64
