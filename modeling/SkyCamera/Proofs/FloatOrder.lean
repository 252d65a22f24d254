import SkyCamera.Binary64

/-!
Comparisons of floats. A float that is not undefined has a place in one order of all numbers, in
which comparisons are lexicographic; an undefined one compares with nothing, itself included. A sum,
a product or a quotient is a number only if both of its arguments are.
-/
namespace SkyCamera

namespace Scalar

variable {α : Type} [Scalar α]

abbrev IsNumber (x : α) : Prop := x ≤ x

end Scalar

/-- Comparisons that order the numbers of an arithmetic, apart from those that are undefined. -/
class OrderedScalar (α : Type) [Scalar α] : Prop where
  isNumber_of_le : ∀ {x y : α}, x ≤ y → Scalar.IsNumber x ∧ Scalar.IsNumber y
  le_trans : ∀ {x y z : α}, x ≤ y → y ≤ z → x ≤ z
  le_total : ∀ {x y : α}, Scalar.IsNumber x → Scalar.IsNumber y → x ≤ y ∨ y ≤ x
  lt_iff : ∀ {x y : α}, x < y ↔ x ≤ y ∧ ¬ y ≤ x

theorem OrderedScalar.le_of_not_lt {α : Type} [Scalar α] [OrderedScalar α] {x y : α}
    (hx : Scalar.IsNumber x) (hy : Scalar.IsNumber y) (h : ¬ y < x) : x ≤ y := by
  by_cases hxy : x ≤ y
  · exact hxy
  · exact absurd (lt_iff.mpr ⟨(le_total hx hy).resolve_left hxy, hxy⟩) h

namespace Binary64

open Float.Model

/-- Where a number stands: its class from negative to positive infinity, and in a class its exponent
and its significand. -/
def place : UnpackedFloat → Option (Int × Int × Int)
  | .notANumber => none
  | .infinity .negative => some (-2, 0, 0)
  | .infinity .positive => some (2, 0, 0)
  | .zero _ => some (0, 0, 0)
  | .finite .negative m e _ => some (-1, -e, -m)
  | .finite .positive m e _ => some (1, e, m)

def order : Int × Int × Int → Int × Int × Int → Ordering :=
  compareLex (compareOn (·.1)) (compareLex (compareOn (·.2.1)) (compareOn (·.2.2)))

instance : Std.TransCmp order := inferInstanceAs (Std.TransCmp (compareLex _ _))

theorem compare_neg (x y : Int) : compare (-x) (-y) = (compare x y).swap := by
  rcases Int.lt_trichotomy x y with h | rfl | h
  · rw [Int.compare_eq_lt.mpr h, Int.compare_eq_gt.mpr (Int.neg_lt_neg h)]
    rfl
  · rw [Int.compare_eq_eq.mpr rfl, Int.compare_eq_eq.mpr rfl]
    rfl
  · rw [Int.compare_eq_gt.mpr h, Int.compare_eq_lt.mpr (Int.neg_lt_neg h)]
    rfl

theorem compare_natCast (m n : Nat) : compare (m : Int) (n : Int) = compare m n := by
  rcases Nat.lt_trichotomy m n with h | rfl | h
  · rw [Nat.compare_eq_lt.mpr h, Int.compare_eq_lt.mpr (Int.ofNat_lt.mpr h)]
  · rw [Nat.compare_eq_eq.mpr rfl, Int.compare_eq_eq.mpr rfl]
  · rw [Nat.compare_eq_gt.mpr h, Int.compare_eq_gt.mpr (Int.ofNat_lt.mpr h)]

/-- Comparison goes by places. Only two numbers of one sign are compared any further. -/
theorem compare_eq (a b : UnpackedFloat) :
    a.compare b = (place a).bind fun p => (place b).map (order p) := by
  rcases a with ⟨_ | _⟩ | _ | _ | ⟨_ | _, m, e, _⟩ <;>
    rcases b with ⟨_ | _⟩ | _ | _ | ⟨_ | _, m', e', _⟩ <;> try rfl
  -- Between two negative numbers the comparison is turned around as a whole, places are negated.
  · show some ((compare e e').then (compare m m')).swap =
      some ((compare (-e) (-e')).then (compare (-(m : Int)) (-(m' : Int))))
    rw [compare_neg, compare_neg, compare_natCast, Ordering.swap_then]
  · show some ((compare e e').then (compare m m')) =
      some ((compare e e').then (compare (m : Int) (m' : Int)))
    rw [compare_natCast]

theorem place_eq_none_iff (a : UnpackedFloat) : place a = none ↔ a = .notANumber := by
  constructor
  · intro h
    rcases a with ⟨_ | _⟩ | _ | _ | ⟨_ | _, m, e, _⟩
    case notANumber => rfl
    all_goals cases h
  · rintro rfl
    rfl

def placeOf (x : Float) : Option (Int × Int × Int) := place x.toModel.unpack

/-- Floats that have a place are ordered by it; the others compare with nothing. -/
theorem le_iff (x y : Float) :
    x ≤ y ↔ ∃ p q, placeOf x = some p ∧ placeOf y = some q ∧ (order p q).isLE := by
  have hcompare : x ≤ y ↔ (x.toModel.unpack.compare y.toModel.unpack).any (·.isLE) = true := by
    show decide (x.toModel ≤ y.toModel) = true ↔ _
    rw [decide_eq_true_iff]
    rfl
  rw [hcompare, compare_eq]
  unfold placeOf
  cases place x.toModel.unpack with
  | none => simp
  | some p =>
    cases place y.toModel.unpack with
    | none => simp
    | some q => simp

theorem lt_iff (x y : Float) :
    x < y ↔ ∃ p q, placeOf x = some p ∧ placeOf y = some q ∧ order p q = .lt := by
  have hcompare : x < y ↔ x.toModel.unpack.compare y.toModel.unpack = some .lt := by
    show decide (x.toModel < y.toModel) = true ↔ _
    rw [decide_eq_true_iff]
    show (x.toModel.unpack.compare y.toModel.unpack == some .lt) = true ↔ _
    rw [beq_iff_eq]
  rw [hcompare, compare_eq]
  unfold placeOf
  cases place x.toModel.unpack with
  | none => simp
  | some p =>
    cases place y.toModel.unpack with
    | none => simp
    | some q => simp

theorem isNumber_iff (x : Float) : Scalar.IsNumber x ↔ ∃ p, placeOf x = some p := by
  constructor
  · intro h
    obtain ⟨p, -, hp, -⟩ := (le_iff x x).mp h
    exact ⟨p, hp⟩
  · rintro ⟨p, hp⟩
    exact (le_iff x x).mpr ⟨p, p, hp, hp, Std.ReflCmp.isLE_rfl⟩

instance : OrderedScalar Float where
  isNumber_of_le {x y} h := by
    obtain ⟨p, q, hp, hq, -⟩ := (le_iff x y).mp h
    exact ⟨(isNumber_iff x).mpr ⟨p, hp⟩, (isNumber_iff y).mpr ⟨q, hq⟩⟩
  le_trans {x y z} hxy hyz := by
    obtain ⟨p, q, hp, hq, hpq⟩ := (le_iff x y).mp hxy
    obtain ⟨q', r, hq', hr, hqr⟩ := (le_iff y z).mp hyz
    rw [hq] at hq'
    cases hq'
    exact (le_iff x z).mpr ⟨p, r, hp, hr, Std.TransCmp.isLE_trans hpq hqr⟩
  le_total {x y} hx hy := by
    obtain ⟨p, hp⟩ := (isNumber_iff x).mp hx
    obtain ⟨q, hq⟩ := (isNumber_iff y).mp hy
    by_cases hpq : (order p q).isLE
    · exact Or.inl ((le_iff x y).mpr ⟨p, q, hp, hq, hpq⟩)
    · have hqp := Ordering.isLE_of_eq_lt (Std.OrientedCmp.lt_of_not_isLE hpq)
      exact Or.inr ((le_iff y x).mpr ⟨q, p, hq, hp, hqp⟩)
  lt_iff {x y} := by
    rw [lt_iff]
    constructor
    · rintro ⟨p, q, hp, hq, hpq⟩
      refine ⟨(le_iff x y).mpr ⟨p, q, hp, hq, Ordering.isLE_of_eq_lt hpq⟩, fun hyx => ?_⟩
      obtain ⟨q', p', hq', hp', hqp⟩ := (le_iff y x).mp hyx
      rw [hq] at hq'
      rw [hp] at hp'
      cases hq'
      cases hp'
      exact Std.OrientedCmp.not_isLE_of_lt hpq hqp
    · rintro ⟨hxy, hyx⟩
      obtain ⟨p, q, hp, hq, -⟩ := (le_iff x y).mp hxy
      have hqp : ¬ (order q p).isLE := fun h => hyx ((le_iff y x).mpr ⟨q, p, hq, hp, h⟩)
      exact ⟨p, q, hp, hq, Std.OrientedCmp.lt_of_not_isLE hqp⟩

theorem unpack_pack_notANumber : (Float.Model.pack .notANumber).unpack = .notANumber := rfl

/-- An operation that has no result where one of its arguments is undefined. -/
structure IsStrict (operation : UnpackedFloat → UnpackedFloat → UnpackedFloat) : Prop where
  left : ∀ b, operation .notANumber b = .notANumber
  right : ∀ a, operation a .notANumber = .notANumber

theorem isStrict_add : IsStrict (UnpackedFloat.add Format.binary64) :=
  ⟨fun b => by cases b <;> rfl, fun a => by cases a <;> rfl⟩

theorem isStrict_mul : IsStrict (UnpackedFloat.mul Format.binary64) :=
  ⟨fun b => by cases b <;> rfl, fun a => by cases a <;> rfl⟩

theorem isStrict_div : IsStrict (UnpackedFloat.div Format.binary64) :=
  ⟨fun b => by cases b <;> rfl, fun a => by cases a <;> rfl⟩

/-- An operation that keeps not-a-numbers gives a number only of numbers. -/
theorem isNumber_of_isStrict {operation : UnpackedFloat → UnpackedFloat → UnpackedFloat}
    (hstrict : IsStrict operation) {x y z : Float}
    (hz : z.toModel = .pack (operation x.toModel.unpack y.toModel.unpack))
    (h : Scalar.IsNumber z) : Scalar.IsNumber x ∧ Scalar.IsNumber y := by
  obtain ⟨p, hp⟩ := (isNumber_iff z).mp h
  have hdefined : operation x.toModel.unpack y.toModel.unpack ≠ .notANumber := by
    intro hnone
    rw [placeOf, hz, hnone, unpack_pack_notANumber] at hp
    cases hp
  have hnumber (w : Float) (hw : w.toModel.unpack ≠ .notANumber) : Scalar.IsNumber w := by
    refine (isNumber_iff w).mpr (Option.ne_none_iff_exists'.mp fun hnone => ?_)
    exact hw ((place_eq_none_iff _).mp hnone)
  constructor
  · refine hnumber x fun hx => hdefined ?_
    rw [hx, hstrict.left]
  · refine hnumber y fun hy => hdefined ?_
    rw [hy, hstrict.right]

theorem isNumber_of_add {x y : Float} (h : Scalar.IsNumber (x + y)) :
    Scalar.IsNumber x ∧ Scalar.IsNumber y := isNumber_of_isStrict isStrict_add rfl h

theorem isNumber_of_mul {x y : Float} (h : Scalar.IsNumber (x * y)) :
    Scalar.IsNumber x ∧ Scalar.IsNumber y := isNumber_of_isStrict isStrict_mul rfl h

theorem isNumber_of_div {x y : Float} (h : Scalar.IsNumber (x / y)) :
    Scalar.IsNumber x ∧ Scalar.IsNumber y := isNumber_of_isStrict isStrict_div rfl h

theorem isNumber_zero : Scalar.IsNumber (0 : Float) := (isNumber_iff 0).mpr ⟨(0, 0, 0), rfl⟩

theorem isLE_place {a : UnpackedFloat} {p : Int × Int × Int} (hp : place a = some p) :
    (order p (2, 0, 0)).isLE := by
  rcases a with ⟨_ | _⟩ | _ | _ | ⟨_ | _, m, e, _⟩
  case notANumber => cases hp
  all_goals
    cases hp
    rfl

/-- Infinity is behind every number. -/
theorem le_infinity {x : Float} (hx : Scalar.IsNumber x) : x ≤ Scalar.infinity := by
  obtain ⟨p, hp⟩ := (isNumber_iff x).mp hx
  exact (le_iff x Scalar.infinity).mpr ⟨p, (2, 0, 0), hp, rfl, isLE_place hp⟩

end Binary64
end SkyCamera
