import SkyCamera.Proofs.CatalogueLines
import SkyCamera.Proofs.FloatRemainder

/-!
The positions of the stars of a list. A declination lies between the poles and is a number. A right
ascension lies in one turn if its field is a finite number, and is undefined if it is not.
-/
namespace SkyCamera.Binary64

open Float.Model

def degree : ℚ := 5030569068109113 * 2 ^ (-58 : ℤ)

theorem isValue_degree : IsValue (Scalar.pi / 180.0) degree := by
  have hunpack : (Scalar.pi / 180.0 : Float).toModel.unpack =
      .finite .positive 5030569068109113 (-58) (by decide) := rfl
  exact isValue_of_unpack_eq hunpack (by rw [signed, degree, Nat.cast_ofNat])

theorem degree_pos : 0 < degree := by norm_num [degree]

theorem degree_lt_one : degree < 1 := by norm_num [degree]

theorem IsValue.radians {x : Float} {p : ℚ} (hx : IsValue x p) :
    ∃ r, Rounds (p * degree) r ∧ IsValue (Scalar.radians x) r := by
  refine hx.mul isValue_degree hx.abs ?_
  rw [abs_mul, abs_of_pos degree_pos]
  exact mul_le_of_le_one_right (abs_nonneg p) degree_lt_one.le

/-- Radians keep the order of degrees. -/
theorem radians_le_radians {x y : Float} {p q : ℚ} (hx : IsValue x p) (hy : IsValue y q)
    (h : x ≤ y) : Scalar.radians x ≤ Scalar.radians y := by
  obtain ⟨r, hr, hvalue⟩ := hx.radians
  obtain ⟨r', hr', hvalue'⟩ := hy.radians
  have hle : p * degree ≤ q * degree :=
    mul_le_mul_of_nonneg_right ((hx.le_iff hy).mp h) degree_pos.le
  exact (hvalue.le_iff hvalue').mpr (hr.le_of_le hr' hle)

theorem isValue_ninety : IsValue 90.0 90 := by
  have hunpack : (90.0 : Float).toModel.unpack =
      .finite .positive 6333186975989760 (-46) (by decide) := rfl
  exact isValue_of_unpack_eq hunpack (by norm_num [signed])

theorem isValue_turn : IsValue 360.0 360 := by
  have hunpack : (360.0 : Float).toModel.unpack =
      .finite .positive 6333186975989760 (-44) (by decide) := rfl
  exact isValue_of_unpack_eq hunpack (by norm_num [signed])

theorem radians_ninety : Scalar.radians (90.0 : Float) = Scalar.pi / 2.0 := rfl

theorem radians_neg_ninety : Scalar.radians (-90.0 : Float) = -(Scalar.pi / 2.0) := rfl

theorem radians_turn : Scalar.radians (360.0 : Float) ≤ Scalar.tau := by decide +kernel

theorem isFinite_radians {x : Float} {p : ℚ} (hx : IsValue x p) :
    Scalar.IsFinite (Scalar.radians x) := by
  obtain ⟨r, -, hr⟩ := hx.radians
  exact (isFinite_iff _).mpr ⟨r, hr⟩

theorem not_isNumber_undefined : ¬ Scalar.IsNumber (0 / 0 : Float) :=
  not_isNumber_of_unpack rfl

end SkyCamera.Binary64

namespace SkyCamera.Sky.Star

def HasDeclination (star : Star Float) : Prop :=
  Scalar.IsFinite star.declination ∧
    -(Scalar.pi / 2.0) ≤ star.declination ∧ star.declination ≤ Scalar.pi / 2.0

def HasRightAscension (star : Star Float) : Prop :=
  Scalar.IsFinite star.rightAscension ∧
    0 ≤ star.rightAscension ∧ star.rightAscension ≤ Scalar.tau

open Binary64

variable (id : UInt64) (ra magnitude : Float)

theorem hasDeclination_ofDegrees {y : Float} (h : -90.0 ≤ y ∧ y ≤ 90.0) :
    HasDeclination (.ofDegrees id ra y magnitude) := by
  obtain ⟨hlow, hhigh⟩ := h
  obtain ⟨q, hy⟩ := exists_isValue_of_mem isValue_ninety.neg isValue_ninety hlow hhigh
  refine ⟨isFinite_radians hy, ?_, ?_⟩
  · rw [← radians_neg_ninety]
    exact radians_le_radians isValue_ninety.neg hy hlow
  · rw [← radians_ninety]
    exact radians_le_radians hy isValue_ninety hhigh

variable (dec : Float)

theorem hasRightAscension_ofDegrees {x : Float} (h : Scalar.IsFinite x) :
    HasRightAscension (.ofDegrees id (Scalar.modulo x 360.0) dec magnitude) := by
  obtain ⟨p, hx⟩ := (isFinite_iff x).mp h
  obtain ⟨r, hr, hnonneg, hle⟩ := modulo_mem hx isValue_turn (by norm_num)
  rw [abs_of_pos (by norm_num)] at hle
  refine ⟨isFinite_radians hr, ?_, ?_⟩
  · obtain ⟨r', hr', hvalue⟩ := hr.radians
    exact (isValue_zero.le_iff hvalue).mpr
      (rounds_zero.le_of_le hr' (mul_nonneg hnonneg degree_pos.le))
  · have hturn := radians_le_radians hr isValue_turn ((hr.le_iff isValue_turn).mpr hle)
    exact OrderedScalar.le_trans hturn radians_turn

/-- The remainder of a right ascension that is not finite is no number. -/
theorem rightAscension_undefined {x : Float} (h : ¬ Scalar.IsFinite x) :
    ¬ Scalar.IsNumber
      (ofDegrees id (Scalar.modulo x 360.0) dec magnitude : Star Float).rightAscension := by
  intro hnumber
  refine not_isNumber_undefined ?_
  rw [← modulo_eq_undefined h isValue_turn]
  exact (isNumber_of_mul hnumber).1

end SkyCamera.Sky.Star

namespace SkyCamera.Catalogue

open Text

/-- The right ascension and the declination in the fields of a line, in degrees. -/
inductive States : List (List Char) → Float → Float → Prop
  | unnamed {ra dec : List Char} (magnitude : List Char) {x y : Float}
      (hra : readNumber ra = some x) (hdec : readNumber dec = some y) :
      States [ra, dec, magnitude] x y
  | named (id : List Char) {ra dec : List Char} (magnitude : List Char) {x y : Float}
      (hra : readNumber ra = some x) (hdec : readNumber dec = some y) :
      States [id, ra, dec, magnitude] x y

theorem Describes.of_states {number : Nat} {fields : List (List Char)} {star : Sky.Star Float}
    {x y : Float} (h : Describes number fields star) (hstates : States fields x y) :
    (-90.0 ≤ y ∧ y ≤ 90.0) ∧
      ∃ id magnitude, star = .ofDegrees id (Scalar.modulo x 360.0) y magnitude := by
  cases h with
  | unnamed hra hdec hmagnitude hrange =>
    cases hstates with
    | unnamed magnitude hra' hdec' =>
      obtain rfl := Option.some.inj (hra.symm.trans hra')
      obtain rfl := Option.some.inj (hdec.symm.trans hdec')
      exact ⟨hrange, _, _, rfl⟩
  | named hid hra hdec hmagnitude hrange =>
    cases hstates with
    | named id magnitude hra' hdec' =>
      obtain rfl := Option.some.inj (hra.symm.trans hra')
      obtain rfl := Option.some.inj (hdec.symm.trans hdec')
      exact ⟨hrange, _, _, rfl⟩

theorem Describes.exists_states {number : Nat} {fields : List (List Char)} {star : Sky.Star Float}
    (h : Describes number fields star) : ∃ x y, States fields x y := by
  cases h with
  | unnamed hra hdec => exact ⟨_, _, .unnamed _ hra hdec⟩
  | named _ hra hdec => exact ⟨_, _, .named _ _ hra hdec⟩

theorem States.not_isBlankLine {line : List Char} {x y : Float} (h : States (fields line) x y) :
    ¬ IsBlankLine line := by
  intro hblank
  rw [fields_eq_nil_of_isBlankLine hblank] at h
  cases h

theorem mem_stars_iff {text : String} {star : Sky.Star Float} :
    star ∈ (read text).stars ↔ ∃ p ∈ numbered text, star? p.2 p.1 = some star := by
  rw [read_eq]
  exact List.mem_filterMap

theorem mem_warnings_iff {text : String} {w : Warning} :
    w ∈ (read text).warnings ↔ ∃ p ∈ numbered text, warning? p.2 p.1 = some w := by
  rw [read_eq]
  exact List.mem_filterMap

/-- A line with a declination that is not finite gives no star. -/
theorem star?_eq_none_of_states (number : Nat) {line : List Char} {x y : Float}
    (h : States (fields line) x y) (hy : ¬ Scalar.IsFinite y) : star? number line = none := by
  by_contra hne
  obtain ⟨star, hstar⟩ := Option.ne_none_iff_exists'.mp hne
  obtain ⟨⟨hlow, hhigh⟩, -⟩ := (star?_eq_some_iff.mp hstar).of_states h
  exact hy ((Binary64.isFinite_iff y).mpr
    (Binary64.exists_isValue_of_mem Binary64.isValue_ninety.neg Binary64.isValue_ninety hlow hhigh))

/-- A line that states a position gives a star or a warning. -/
theorem exists_warning_of_states (number : Nat) {line : List Char} {x y : Float}
    (h : States (fields line) x y) (hstar : star? number line = none) :
    ∃ fault, warning? number line = some ⟨number, fault⟩ := by
  cases outcome number line with
  | blank hline => exact absurd hline h.not_isBlankLine
  | star _ star hsome =>
    rw [hsome] at hstar
    cases hstar
  | warning _ fault _ hwarning => exact ⟨fault, hwarning⟩

/-- The position of a star follows from the numbers that its line states. -/
theorem position_of_describes {number : Nat} {fields : List (List Char)} {star : Sky.Star Float}
    {x y : Float} (h : Describes number fields star) (hstates : States fields x y) :
    star.HasDeclination ∧ (Scalar.IsFinite x → star.HasRightAscension) ∧
      (¬ Scalar.IsFinite x → ¬ Scalar.IsNumber star.rightAscension) := by
  obtain ⟨hrange, id, magnitude, rfl⟩ := h.of_states hstates
  exact ⟨Sky.Star.hasDeclination_ofDegrees id _ magnitude hrange,
    Sky.Star.hasRightAscension_ofDegrees id magnitude y,
    Sky.Star.rightAscension_undefined id magnitude y⟩

/-- Each star of a list comes from a line that states two numbers. Its declination lies between the
poles. Its right ascension lies in one turn if the first number is finite; if it is not, the right
ascension is undefined, and the line is not warned of. A line whose declination is not finite is
skipped with a warning. -/
theorem positions_of_stars (text : String) :
    (∀ star ∈ (read text).stars, ∃ p ∈ numbered text, ∃ x y,
      star? p.2 p.1 = some star ∧ warning? p.2 p.1 = none ∧ States (fields p.1) x y ∧
        star.HasDeclination ∧ (Scalar.IsFinite x → star.HasRightAscension) ∧
        (¬ Scalar.IsFinite x → ¬ Scalar.IsNumber star.rightAscension)) ∧
    ∀ p ∈ numbered text, ∀ x y, States (fields p.1) x y → ¬ Scalar.IsFinite y →
      star? p.2 p.1 = none ∧ ∃ fault, ⟨p.2, fault⟩ ∈ (read text).warnings := by
  constructor
  · intro star hmem
    obtain ⟨p, hp, hstar⟩ := mem_stars_iff.mp hmem
    have hdescribes := star?_eq_some_iff.mp hstar
    obtain ⟨x, y, hstates⟩ := hdescribes.exists_states
    refine ⟨p, hp, x, y, hstar, ?_, hstates, position_of_describes hdescribes hstates⟩
    rw [warning?, star?_eq_some_iff_readLine.mp hstar]
  · intro p hp x y hstates hy
    have hnone := star?_eq_none_of_states p.2 hstates hy
    obtain ⟨fault, hwarning⟩ := exists_warning_of_states p.2 hstates hnone
    exact ⟨hnone, fault, mem_warnings_iff.mpr ⟨p, hp, hwarning⟩⟩

/-- A line without a right ascension that is a number gives a star, and no warning. -/
theorem read_nan_rightAscension :
    ∃ star, (read "nan 0 0").stars = [star] ∧ (read "nan 0 0").warnings = [] ∧
      ¬ Scalar.IsFinite star.rightAscension := by
  refine ⟨.ofDegrees 1 (Scalar.modulo (0 / 0) 360.0) 0.0 0.0, rfl, rfl, ?_⟩
  decide +kernel

theorem positions_of_stars_twoLines :
    (∃ star ∈ (read "10 20 3\n10 inf 3").stars, star.HasDeclination ∧ star.HasRightAscension) ∧
      ∃ fault, ⟨2, fault⟩ ∈ (read "10 20 3\n10 inf 3").warnings := by
  obtain ⟨hstars, hskipped⟩ := positions_of_stars "10 20 3\n10 inf 3"
  constructor
  · have hmem : Sky.Star.ofDegrees 1 (Scalar.modulo 10.0 360.0) 20.0 3.0 ∈
        (read "10 20 3\n10 inf 3").stars := List.mem_singleton.mpr rfl
    obtain ⟨p, hp, x, y, hstar, -, hstates, hdec, hra, -⟩ := hstars _ hmem
    refine ⟨_, hmem, hdec, hra ?_⟩
    rcases List.mem_pair.mp hp with rfl | rfl
    · cases hstates with
      | unnamed magnitude hx =>
        obtain rfl : 10.0 = x := Option.some.inj hx
        decide +kernel
    · cases hstar
  · have hline : (['1', '0', ' ', 'i', 'n', 'f', ' ', '3'], 2) ∈ numbered "10 20 3\n10 inf 3" := by
      decide
    have hstates : States (fields ['1', '0', ' ', 'i', 'n', 'f', ' ', '3']) 10.0 (1.0 / 0.0) :=
      .unnamed ['3'] rfl rfl
    have hinfinite : ¬ Scalar.IsFinite (1.0 / 0.0 : Float) := by decide +kernel
    exact (hskipped _ hline _ _ hstates hinfinite).2

end SkyCamera.Catalogue
