import SkyCamera.Proofs.FloatOrder
import SkyCamera.Proofs.FloatRounding

/-!
The numbers that floats are. A float is undefined, infinite or a rational number; floats are ordered
as their numbers are, and a product or a sum of two floats is that of their numbers, rounded.
-/
namespace SkyCamera.Binary64

open Float.Model Float.Model.UnpackedFloat

theorem toNat_unpackMantissa (b : BitVec 64) :
    (@unpackMantissa .binary64 b).toNat = b.toNat % 2 ^ 52 := by
  simp [unpackMantissa, BitVec.extractLsb]

theorem toNat_unpackExponent (b : BitVec 64) :
    (@unpackExponent .binary64 b).toNat = b.toNat / 2 ^ 52 % 2 ^ 11 := by
  simp [unpackExponent, BitVec.extractLsb, Nat.shiftRight_eq_div_pow]

theorem toNat_unpackSign (b : BitVec 64) :
    (@unpackSign .binary64 b).toNat = b.toNat / 2 ^ 63 % 2 := by
  simp [unpackSign, BitVec.extractLsb, Nat.shiftRight_eq_div_pow]

def isNegative : Sign → Bool
  | .positive => false
  | .negative => true

theorem isNegative_ofBitVec (v : BitVec 1) : isNegative (.ofBitVec v) = decide (v.toNat = 1) := by
  revert v
  decide

def ofUnpacked : UnpackedFloat → Binary64
  | .notANumber => .undefined
  | .infinity s => .infinite (isNegative s)
  | .zero s => .finite (isNegative s) 0 (-1074)
  | .finite s m e _ => .finite (isNegative s) m e

theorem toNat_append_one (v : BitVec 52) : (1#1 ++ v).toNat = 2 ^ 52 + v.toNat := by
  rw [BitVec.toNat_append, ← Nat.shiftLeft_add_eq_or_of_lt v.isLt]
  rfl

def ofFields (s : Sign) (e f : ℕ) : UnpackedFloat :=
  if e = 2047 then if f = 0 then .infinity s else .notANumber
  else if e = 0 then
    if h : f = 0 then .zero s else .finite s f (-1074) (Nat.pos_of_ne_zero h)
  else .finite s (2 ^ 52 + f) (e - 1075) (Nat.add_pos_left (Nat.two_pow_pos 52) f)

/-- The model unpacks field by field: sign, exponent and significand. -/
theorem unpack_eq (b : BitVec 64) :
    UnpackedFloat.unpack .binary64 b =
      ofFields (.ofBitVec (@unpackSign .binary64 b)) (@unpackExponent .binary64 b).toNat
        (@unpackMantissa .binary64 b).toNat := by
  generalize hf : @unpackMantissa .binary64 b = f
  generalize he : @unpackExponent .binary64 b = e
  have hones : e = -1#11 ↔ e.toNat = 2047 := BitVec.toNat_inj.symm
  have hzero : e = 0#11 ↔ e.toNat = 0 := BitVec.toNat_inj.symm
  have hfraction : f = 0#52 ↔ f.toNat = 0 := BitVec.toNat_inj.symm
  have hbias : (Format.binary64.exponentBias : ℤ) = 1023 := rfl
  have hbits : (Format.binary64.mantissaBitsWithoutImplicit : ℤ) = 52 := rfl
  rw [UnpackedFloat.unpack, ofFields]
  simp only [hf, he, hbias, hbits, ← hones, ← hzero, ← hfraction, toNat_append_one]
  by_cases hmax : e = -1#11
  · rw [if_pos hmax, if_pos hmax]
  · rw [if_neg hmax, if_neg hmax]
    by_cases hmin : e = 0#11
    · rw [if_pos hmin, if_pos hmin]
      have hexponent : (e.toNat : ℤ) - (1023 + 52) + 1 = -1074 := by
        rw [hzero.mp hmin]
        rfl
      simp only [hexponent]
    · rw [if_neg hmin, if_neg hmin]
      rfl

/-- The fields of a float are read from its bits. -/
theorem ofFloat_eq (x : Float) : ofFloat x = ofUnpacked x.toModel.unpack := by
  have hsign := isNegative_ofBitVec (@unpackSign .binary64 x.toBits.toBitVec)
  rw [toNat_unpackSign] at hsign
  show ofFloat x = ofUnpacked (UnpackedFloat.unpack .binary64 x.toBits.toBitVec)
  rw [unpack_eq, ofFloat, ofFields]
  simp only [Nat.pow_eq, ← UInt64.toNat_toBitVec, ← toNat_unpackMantissa, ← toNat_unpackExponent,
    ← hsign]
  generalize @unpackMantissa .binary64 x.toBits.toBitVec = f
  generalize @unpackExponent .binary64 x.toBits.toBitVec = e
  by_cases hmax : e.toNat = 2047
  · rw [if_pos hmax, if_pos hmax]
    split <;> rfl
  · rw [if_neg hmax, if_neg hmax]
    by_cases hmin : e.toNat = 0
    · rw [if_pos hmin, if_pos hmin]
      split
      next h => rw [h, ofUnpacked]
      next => rfl
    · rw [if_neg hmin, if_neg hmin]
      rfl

/-- The exponent of a float is the last place of its significand, and below the largest there is. -/
theorem bounds_of_unpack {b : BitVec 64} {s : Sign} {m : ℕ} {e : ℤ} {hpos : 0 < m}
    (h : UnpackedFloat.unpack .binary64 b = .finite s m e hpos) :
    m < 2 ^ 53 ∧ -1074 ≤ e ∧ e ≤ 971 ∧ (2 ^ 52 ≤ m ∨ e = -1074) := by
  have hfraction := (@unpackMantissa .binary64 b).isLt
  have hexponent := (@unpackExponent .binary64 b).isLt
  rw [unpack_eq, ofFields] at h
  simp only at hfraction hexponent
  split at h
  · split at h <;> cases h
  · split at h
    · split at h
      · cases h
      · cases h
        omega
    · cases h
      omega

/-- The number of a float that is neither undefined nor infinite. -/
def IsValue (x : Float) (q : ℚ) : Prop := HasValue x.toModel.unpack q

theorem isValue_of_unpack {x : Float} {s : Sign} {m : ℕ} {e : ℤ} {hpos : 0 < m}
    (h : x.toModel.unpack = .finite s m e hpos) : IsValue x (signed s (m * 2 ^ e)) := by
  obtain ⟨hm, he, -, hfull⟩ := bounds_of_unpack h
  rw [IsValue, h]
  exact .finite s m e hpos hm he hfull

theorem isValue_of_unpack_eq {x : Float} {s : Sign} {m : ℕ} {e : ℤ} {hpos : 0 < m} {q : ℚ}
    (h : x.toModel.unpack = .finite s m e hpos) (hq : signed s (m * 2 ^ e) = q) : IsValue x q :=
  hq ▸ isValue_of_unpack h

/-- The exact value of a float that has one. -/
theorem IsValue.exists_ofFloat {x : Float} {q : ℚ} (h : IsValue x q) :
    ∃ s m e, Binary64.ofFloat x = .finite (isNegative s) m e ∧ q = signed s (m * 2 ^ e) ∧
      m < 2 ^ 53 ∧ -1074 ≤ e ∧ e ≤ 971 := by
  rw [ofFloat_eq]
  unfold IsValue at h
  cases hx : x.toModel.unpack with
  | notANumber => rw [hx] at h; cases h
  | infinity s => rw [hx] at h; cases h
  | zero s =>
    rw [hx] at h
    cases h
    refine ⟨s, 0, -1074, rfl, ?_, by decide, le_rfl, by decide⟩
    cases s <;> simp [signed]
  | finite s m e hpos =>
    obtain ⟨hm, he, hmax, -⟩ := bounds_of_unpack hx
    rw [hx] at h
    cases h
    exact ⟨s, m, e, rfl, rfl, hm, he, hmax⟩

theorem unpackSign_packComponents (s : Sign) (e : BitVec 11) (f : BitVec 52) :
    unpackSign (packComponents .binary64 s e f) = s.toBitVec := by
  simp only [unpackSign, packComponents, BitVec.extractLsb]
  rw [BitVec.extractLsb'_append_eq_of_le (by omega), BitVec.extractLsb'_append_eq_of_le (by omega)]
  cases s <;> rfl

theorem unpack_packComponents (s : Sign) (e : BitVec 11) (f : BitVec 52) :
    UnpackedFloat.unpack .binary64 (packComponents .binary64 s e f) =
      ofFields s e.toNat f.toNat := by
  have hsign : Sign.ofBitVec s.toBitVec = s := by cases s <;> rfl
  rw [unpack_eq, unpackMantissa_packComponents, unpackExponent_packComponents,
    unpackSign_packComponents, hsign]

/-- A normal float stores its exponent shifted and its significand without the leading bit. -/
theorem pack_full (s : Sign) {m : ℕ} (e : ℤ) (hpos : 0 < m) (hfull : 2 ^ 52 ≤ m) (hm : m < 2 ^ 53)
    (hmax : e ≤ 971) :
    UnpackedFloat.pack .binary64 (.finite s m e hpos) =
      packComponents .binary64 s (BitVec.ofNat 11 (e + 1075).toNat) (BitVec.ofNat 52 m) := by
  have hlog : m.log2 + 1 = Format.binary64.mantissaBits := by
    rw [(Nat.log2_eq_iff hpos.ne').mpr ⟨hfull, hm⟩]
    rfl
  have hbiased : (e + Format.binary64.exponentBias +
      Format.binary64.mantissaBitsWithoutImplicit).toNat = (e + 1075).toNat :=
    congrArg Int.toNat (add_assoc e 1023 52)
  have hfits : ¬ 2 ^ Format.binary64.exponentBits ≤ (e + 1075).toNat + 1 := by
    show ¬ 2 ^ 11 ≤ (e + 1075).toNat + 1
    omega
  simp only [UnpackedFloat.pack, hbiased]
  rw [if_neg hfits, if_pos hlog]

/-- A subnormal float has the lowest exponent, and its significand stands as it is. -/
theorem pack_lowest (s : Sign) {m : ℕ} (hpos : 0 < m) (hm : m < 2 ^ 52) :
    UnpackedFloat.pack .binary64 (.finite s m (-1074) hpos) =
      packComponents .binary64 s 0#11 (BitVec.ofNat 52 m) := by
  have hlog : ¬ m.log2 + 1 = Format.binary64.mantissaBits := by
    have hlt := (Nat.log2_lt hpos.ne').mpr hm
    show ¬ m.log2 + 1 = 53
    omega
  rw [UnpackedFloat.pack]
  exact (if_neg (by decide)).trans (if_neg hlog)

theorem abs_signed (s : Sign) (q : ℚ) : |signed s q| = |q| := by
  cases s with
  | positive => rfl
  | negative => exact abs_neg q

theorem exponent_le {m : ℕ} {e : ℤ} (hfull : 2 ^ 52 ≤ m ∨ e = -1074)
    (h : (m : ℚ) * 2 ^ e < 2 ^ (1024 : ℤ)) : e ≤ 971 := by
  by_contra hlt
  have hm : ((2 ^ 52 : ℕ) : ℚ) ≤ m := Nat.cast_le.mpr (hfull.resolve_right (by omega))
  refine h.not_ge ?_
  calc (2 : ℚ) ^ (1024 : ℤ) = (2 ^ 52 : ℕ) * 2 ^ (972 : ℤ) := by
        rw [Nat.cast_pow, Nat.cast_ofNat, ← zpow_natCast, ← zpow_add₀ two_ne_zero]
        rfl
    _ ≤ m * 2 ^ e := mul_le_mul hm (zpow_le_zpow_right₀ one_le_two (by omega))
        (zpow_pos two_pos _).le m.cast_nonneg

/-- What is packed is unpacked again, unless it is beyond the largest float. -/
theorem unpack_pack {a : UnpackedFloat} {q : ℚ} (h : HasValue a q) (hq : |q| < 2 ^ (1024 : ℤ)) :
    UnpackedFloat.unpack .binary64 (UnpackedFloat.pack .binary64 a) = a := by
  cases h with
  | zero s => cases s <;> rfl
  | finite s m e hpos hm he hfull =>
    rw [abs_signed, abs_of_nonneg (by positivity)] at hq
    have hmax := exponent_le hfull hq
    by_cases hnormal : 2 ^ 52 ≤ m
    · have hexponent : (BitVec.ofNat 11 (e + 1075).toNat).toNat = (e + 1075).toNat :=
        Nat.mod_eq_of_lt (by omega)
      have hfraction : (BitVec.ofNat 52 m).toNat = m - 2 ^ 52 := by
        show m % 2 ^ 52 = _
        omega
      rw [pack_full s e hpos hnormal hm hmax, unpack_packComponents, hexponent, hfraction, ofFields,
        if_neg (by omega), if_neg (by omega)]
      simp only [UnpackedFloat.finite.injEq, true_and]
      omega
    · obtain rfl := hfull.resolve_left hnormal
      have hfraction : (BitVec.ofNat 52 m).toNat = m := Nat.mod_eq_of_lt (not_le.mp hnormal)
      have hzero : (0#11).toNat = 0 := rfl
      rw [pack_lowest s hpos (not_le.mp hnormal), unpack_packComponents, hzero, hfraction, ofFields,
        if_neg (by decide), if_pos rfl, dif_neg hpos.ne']

/-- Below the overflow limit packing and unpacking give the number back. -/
theorem isValue_of_pack {x : Float} {a : UnpackedFloat} {q : ℚ} (hx : x.toModel = .pack a)
    (h : HasValue a q) (hq : |q| < 2 ^ (1024 : ℤ)) : IsValue x q := by
  have hunpack : x.toModel.unpack = a := by
    rw [hx]
    exact unpack_pack h hq
  rw [IsValue, hunpack]
  exact h

theorem mul_zpow_lt_limit {m : ℕ} {e : ℤ} (hm : m < 2 ^ 53) (he : e ≤ 971) :
    (m : ℚ) * 2 ^ e < 2 ^ (1024 : ℤ) := by
  calc (m : ℚ) * 2 ^ e ≤ m * 2 ^ (971 : ℤ) :=
        mul_le_mul_of_nonneg_left (zpow_le_zpow_right₀ one_le_two he) m.cast_nonneg
    _ < 2 ^ 53 * 2 ^ (971 : ℤ) :=
        mul_lt_mul_of_pos_right (by exact_mod_cast hm) (zpow_pos two_pos _)
    _ = 2 ^ (1024 : ℤ) := by
        rw [← zpow_natCast, ← zpow_add₀ two_ne_zero]
        rfl

theorem IsValue.abs_lt {x : Float} {q : ℚ} (h : IsValue x q) : |q| < 2 ^ (1024 : ℤ) := by
  obtain ⟨s, m, e, -, rfl, hm, -, he⟩ := h.exists_ofFloat
  rw [abs_signed, abs_of_nonneg (by positivity)]
  exact mul_zpow_lt_limit hm he

/-- A float is its own rounding. -/
theorem HasValue.rounds {a : UnpackedFloat} {q : ℚ} (h : HasValue a q) : Rounds q q := by
  cases h with
  | zero => exact rounds_zero
  | finite s m e _ hm he => exact (rounds_mul_zpow hm he).signed s

theorem IsValue.rounds {x : Float} {q : ℚ} (h : IsValue x q) : Rounds q q := HasValue.rounds h

/-- No rounding goes beyond a float. -/
theorem Rounds.abs_le_of_isValue {q r b : ℚ} {z : Float} (h : Rounds q r) (hz : IsValue z b)
    (hq : |q| ≤ b) : |r| ≤ b := by
  obtain ⟨hlow, hhigh⟩ := abs_le.mp hq
  exact abs_le.mpr ⟨hz.rounds.neg.le_of_le h hlow, h.le_of_le hz.rounds hhigh⟩

theorem isValue_of_rounds {x z : Float} {a : UnpackedFloat} {q r b : ℚ} (hx : x.toModel = .pack a)
    (h : HasValue a r) (hr : Rounds q r) (hz : IsValue z b) (hq : |q| ≤ b) : IsValue x r :=
  isValue_of_pack hx h (((hr.abs_le_of_isValue hz hq).trans (le_abs_self b)).trans_lt hz.abs_lt)

theorem signed_mul (s s' : Sign) (p q : ℚ) :
    signed (s * s') (p * q) = signed s p * signed s' q := by
  cases s <;> cases s'
  · exact (neg_mul_neg p q).symm
  · exact (neg_mul p q).symm
  · exact (mul_neg p q).symm
  · rfl

/-- A product of floats is the rounded product of their numbers. -/
theorem mul_hasValue {a b : UnpackedFloat} {p q : ℚ} (ha : HasValue a p) (hb : HasValue b q) :
    ∃ r, Rounds (p * q) r ∧ HasValue (UnpackedFloat.mul .binary64 a b) r := by
  cases ha with
  | zero s =>
    rw [zero_mul]
    refine ⟨0, rounds_zero, ?_⟩
    cases hb with
    | zero s' => exact .zero (s * s')
    | finite s' => exact .zero (s * s')
  | finite s m e hpos hm he hfull =>
    cases hb with
    | zero s' =>
      rw [mul_zero]
      exact ⟨0, rounds_zero, .zero (s * s')⟩
    | finite s' m' e' hpos' hm' he' hfull' =>
      have hproduct : signed (s * s') ((m * m' : ℕ) * 2 ^ (e + e')) =
          signed s (m * 2 ^ e) * signed s' (m' * 2 ^ e') := by
        rw [← signed_mul, zpow_add₀ two_ne_zero, Nat.cast_mul, mul_mul_mul_comm]
      rw [← hproduct]
      refine roundWithAccuracy_hasValue (s * s') (Nat.mul_pos hpos hpos') ?_
      by_cases hlarge : 2 ^ 52 ≤ m * m'
      · have hlog := (Nat.le_log2 (Nat.mul_pos hpos hpos').ne').mpr hlarge
        omega
      · have hle : m ≤ m * m' := Nat.le_mul_of_pos_right m hpos'
        have hle' : m' ≤ m * m' := Nat.le_mul_of_pos_left m' hpos
        omega

/-- Two summands are brought to the lower of their exponents, which loses nothing. -/
theorem aligned (s : Sign) (m : ℕ) {e low : ℤ} (h : low ≤ e) :
    ((s.apply ((decreaseExponent m e low).1 : ℤ) : ℤ) : ℚ) * 2 ^ low = signed s (m * 2 ^ e) := by
  obtain ⟨k, rfl⟩ := Int.le.dest h
  have hshift : (decreaseExponent m (low + k) low).1 = m * 2 ^ k := by
    rw [decreaseExponent, add_sub_cancel_left, Int.toNat_natCast, Nat.shiftLeft_eq]
  have hvalue : ((m * 2 ^ k : ℕ) : ℚ) * 2 ^ low = m * 2 ^ (low + k) := by
    rw [zpow_add₀ two_ne_zero, zpow_natCast]
    push_cast
    ring
  rw [hshift, ← hvalue]
  cases s <;> simp [Sign.apply, signed]

/-- A sum of floats is the rounded sum of their numbers. -/
theorem add_hasValue {a b : UnpackedFloat} {p q : ℚ} (ha : HasValue a p) (hb : HasValue b q) :
    ∃ r, Rounds (p + q) r ∧ HasValue (UnpackedFloat.add .binary64 a b) r := by
  cases ha with
  | zero s =>
    rw [zero_add]
    refine ⟨q, hb.rounds, ?_⟩
    cases hb with
    | zero s' => cases s <;> cases s' <;> exact .zero _
    | finite s' m' e' hpos' hm' he' hfull' => exact .finite s' m' e' hpos' hm' he' hfull'
  | finite s m e hpos hm he hfull =>
    cases hb with
    | zero s' =>
      rw [add_zero]
      have ha := HasValue.finite s m e hpos hm he hfull
      exact ⟨_, ha.rounds, ha⟩
    | finite s' m' e' hpos' hm' he' hfull' =>
      rw [← aligned s m (min_le_left e e'), ← aligned s' m' (min_le_right e e'), ← add_mul,
        ← Int.cast_add]
      exact normalize_hasValue _ _ .positive

/-- A product of floats that is not beyond a float is the product of their numbers, rounded. -/
theorem IsValue.mul {x y z : Float} {p q b : ℚ} (hx : IsValue x p) (hy : IsValue y q)
    (hz : IsValue z b) (hbound : |p * q| ≤ b) : ∃ r, Rounds (p * q) r ∧ IsValue (x * y) r := by
  obtain ⟨r, hr, hvalue⟩ := mul_hasValue hx hy
  exact ⟨r, hr, isValue_of_rounds rfl hvalue hr hz hbound⟩

/-- A sum of floats that is not beyond a float is the sum of their numbers, rounded. -/
theorem IsValue.add {x y z : Float} {p q b : ℚ} (hx : IsValue x p) (hy : IsValue y q)
    (hz : IsValue z b) (hbound : |p + q| ≤ b) : ∃ r, Rounds (p + q) r ∧ IsValue (x + y) r := by
  obtain ⟨r, hr, hvalue⟩ := add_hasValue hx hy
  exact ⟨r, hr, isValue_of_rounds rfl hvalue hr hz hbound⟩

theorem HasValue.neg {a : UnpackedFloat} {q : ℚ} (h : HasValue a q) : HasValue a.neg (-q) := by
  cases h with
  | zero s =>
    rw [neg_zero]
    exact .zero (-s)
  | finite s m e hpos hm he hfull =>
    have hneg : -signed s (m * 2 ^ e) = signed (-s) (m * 2 ^ e) := by
      cases s with
      | positive => rfl
      | negative => exact neg_neg _
    rw [hneg]
    exact .finite (-s) m e hpos hm he hfull

theorem IsValue.neg {x : Float} {q : ℚ} (hx : IsValue x q) : IsValue (-x) (-q) :=
  isValue_of_pack rfl (HasValue.neg hx) ((abs_neg q).symm ▸ hx.abs_lt)

theorem HasValue.abs {a : UnpackedFloat} {q : ℚ} (h : HasValue a q) : HasValue a.abs |q| := by
  cases h with
  | zero s =>
    rw [abs_zero]
    exact .zero .positive
  | finite s m e hpos hm he hfull =>
    rw [abs_signed, abs_of_nonneg (by positivity)]
    exact .finite .positive m e hpos hm he hfull

theorem IsValue.abs {x : Float} {q : ℚ} (hx : IsValue x q) : IsValue x.abs |q| :=
  isValue_of_pack rfl (HasValue.abs hx) ((abs_abs q).symm ▸ hx.abs_lt)

theorem order_isLE_iff (c d : ℤ × ℤ × ℤ) :
    (order c d).isLE ↔
      c.1 < d.1 ∨ c.1 = d.1 ∧ (c.2.1 < d.2.1 ∨ c.2.1 = d.2.1 ∧ c.2.2 ≤ d.2.2) := by
  simp only [order, compareLex, compareOn, Ordering.isLE_then_iff_or, Int.compare_eq_lt,
    Int.compare_eq_eq, Int.isLE_compare]

/-- The larger exponent has the larger number, as its significand has all digits. -/
theorem mul_zpow_lt {m m' : ℕ} {e e' : ℤ} (hm : m < 2 ^ 53) (he : -1074 ≤ e)
    (hfull : 2 ^ 52 ≤ m' ∨ e' = -1074) (h : e < e') : (m : ℚ) * 2 ^ e < m' * 2 ^ e' := by
  have hlow : (m : ℚ) < 2 ^ 53 := by exact_mod_cast hm
  have hhigh : (2 : ℚ) ^ 52 ≤ m' := by exact_mod_cast hfull.resolve_right (by omega)
  calc (m : ℚ) * 2 ^ e < 2 ^ 53 * 2 ^ e := mul_lt_mul_of_pos_right hlow (zpow_pos two_pos e)
    _ = 2 ^ 52 * 2 ^ (e + 1) := by rw [zpow_add_one₀ two_ne_zero]; ring
    _ ≤ m' * 2 ^ e' := mul_le_mul hhigh (zpow_le_zpow_right₀ one_le_two h)
        (zpow_pos two_pos _).le m'.cast_nonneg

/-- Numbers in normal form compare by exponent first and by significand then. -/
theorem mul_zpow_le_iff {m m' : ℕ} {e e' : ℤ} (hm : m < 2 ^ 53) (he : -1074 ≤ e)
    (hfull : 2 ^ 52 ≤ m ∨ e = -1074) (hm' : m' < 2 ^ 53) (he' : -1074 ≤ e')
    (hfull' : 2 ^ 52 ≤ m' ∨ e' = -1074) :
    (m : ℚ) * 2 ^ e ≤ m' * 2 ^ e' ↔ e < e' ∨ e = e' ∧ m ≤ m' := by
  rcases lt_trichotomy e e' with h | rfl | h
  · exact iff_of_true (mul_zpow_lt hm he hfull' h).le (Or.inl h)
  · rw [mul_le_mul_iff_left₀ (zpow_pos two_pos e), Nat.cast_le]
    simp
  · refine iff_of_false (mul_zpow_lt hm' he' hfull h).not_ge ?_
    omega

/-- Places are ordered as numbers are. -/
theorem place_order_iff {a b : UnpackedFloat} {p q : ℚ} (ha : HasValue a p) (hb : HasValue b q) :
    ∃ c d, place a = some c ∧ place b = some d ∧ ((order c d).isLE ↔ p ≤ q) := by
  have hsize {m : ℕ} (hpos : 0 < m) (e : ℤ) : (0 : ℚ) < m * 2 ^ e :=
    mul_pos (Nat.cast_pos.mpr hpos) (zpow_pos two_pos e)
  cases ha with
  | zero =>
    cases hb with
    | zero => exact ⟨_, _, rfl, rfl, iff_of_true rfl le_rfl⟩
    | finite s' m' e' hpos' =>
      have h' := hsize hpos' e'
      cases s' with
      | positive => exact ⟨_, _, rfl, rfl, iff_of_true rfl h'.le⟩
      | negative =>
        exact ⟨_, _, rfl, rfl, iff_of_false Bool.false_ne_true (neg_neg_of_pos h').not_ge⟩
  | finite s m e hpos hm he hfull =>
    have h := hsize hpos e
    cases hb with
    | zero =>
      cases s with
      | positive => exact ⟨_, _, rfl, rfl, iff_of_false Bool.false_ne_true h.not_ge⟩
      | negative => exact ⟨_, _, rfl, rfl, iff_of_true rfl (neg_neg_of_pos h).le⟩
    | finite s' m' e' hpos' hm' he' hfull' =>
      have h' := hsize hpos' e'
      cases s <;> cases s'
      case positive.positive =>
        refine ⟨_, _, rfl, rfl, (order_isLE_iff _ _).trans ?_⟩
        rw [signed, signed, mul_zpow_le_iff hm he hfull hm' he' hfull']
        simp
      case positive.negative =>
        exact ⟨_, _, rfl, rfl, iff_of_false Bool.false_ne_true ((neg_neg_of_pos h').trans h).not_ge⟩
      case negative.positive =>
        exact ⟨_, _, rfl, rfl, iff_of_true rfl ((neg_neg_of_pos h).trans h').le⟩
      case negative.negative =>
        refine ⟨_, _, rfl, rfl, (order_isLE_iff _ _).trans (Iff.trans ?_ neg_le_neg_iff.symm)⟩
        rw [mul_zpow_le_iff hm' he' hfull' hm he hfull]
        simp [eq_comm]

/-- Floats are ordered as their numbers are. -/
theorem IsValue.le_iff {x y : Float} {p q : ℚ} (hx : IsValue x p) (hy : IsValue y q) :
    x ≤ y ↔ p ≤ q := by
  obtain ⟨c, d, hc, hd, horder⟩ := place_order_iff hx hy
  rw [Binary64.le_iff, ← horder]
  constructor
  · rintro ⟨c', d', hc', hd', h⟩
    obtain rfl := Option.some.inj (hc.symm.trans hc')
    obtain rfl := Option.some.inj (hd.symm.trans hd')
    exact h
  · exact fun h => ⟨c, d, hc, hd, h⟩

theorem IsValue.isNumber {x : Float} {q : ℚ} (hx : IsValue x q) : Scalar.IsNumber x :=
  (hx.le_iff hx).mpr le_rfl

theorem IsValue.lt_iff {x y : Float} {p q : ℚ} (hx : IsValue x p) (hy : IsValue y q) :
    x < y ↔ p < q := by
  rw [OrderedScalar.lt_iff, hx.le_iff hy, hy.le_iff hx, lt_iff_le_not_ge]

theorem exists_isValue_or (x : Float) :
    (∃ q, IsValue x q) ∨ x.toModel.unpack = .notANumber ∨ ∃ s, x.toModel.unpack = .infinity s := by
  cases hx : x.toModel.unpack with
  | notANumber => exact Or.inr (Or.inl rfl)
  | infinity s => exact Or.inr (Or.inr ⟨s, rfl⟩)
  | zero s =>
    refine Or.inl ⟨0, ?_⟩
    rw [IsValue, hx]
    exact .zero s
  | finite s m e hpos => exact Or.inl ⟨_, isValue_of_unpack hx⟩

theorem isValue_zero : IsValue 0 0 := .zero .positive

theorem not_isNumber_of_unpack {x : Float} (h : x.toModel.unpack = .notANumber) :
    ¬ Scalar.IsNumber x := by
  rw [isNumber_iff, placeOf, h]
  rintro ⟨p, hp⟩
  cases hp

theorem place_of_hasValue {a : UnpackedFloat} {q : ℚ} (h : HasValue a q) {c : ℤ × ℤ × ℤ}
    (hc : place a = some c) : -1 ≤ c.1 ∧ c.1 ≤ 1 := by
  cases h with
  | zero =>
    cases hc
    decide
  | finite s =>
    cases s with
    | positive =>
      cases hc
      exact ⟨neg_le_self zero_le_one, le_rfl⟩
    | negative =>
      cases hc
      exact ⟨le_rfl, neg_le_self zero_le_one⟩

/-- Between two numbers there is no infinity. -/
theorem exists_isValue_of_mem {x y z : Float} {p q : ℚ} (hx : IsValue x p) (hz : IsValue z q)
    (hxy : x ≤ y) (hyz : y ≤ z) : ∃ r, IsValue y r := by
  rcases exists_isValue_or y with hy | hy | ⟨s, hy⟩
  · exact hy
  · exact absurd (OrderedScalar.isNumber_of_le hxy).2 (not_isNumber_of_unpack hy)
  · obtain ⟨c, d, hc, hd, hcd⟩ := (Binary64.le_iff x y).mp hxy
    obtain ⟨d', e, hd', he, hde⟩ := (Binary64.le_iff y z).mp hyz
    rw [order_isLE_iff] at hcd hde
    have hlow := place_of_hasValue hx hc
    have hhigh := place_of_hasValue hz he
    rw [placeOf, hy] at hd hd'
    cases s <;> cases hd <;> cases hd' <;> omega

theorem sub_self_of_hasValue {a : UnpackedFloat} {q : ℚ} (h : HasValue a q) :
    ∃ s, UnpackedFloat.sub .binary64 a a = .zero s := by
  cases h with
  | zero s => cases s <;> exact ⟨_, rfl⟩
  | finite s m e =>
    refine ⟨.positive, ?_⟩
    rw [UnpackedFloat.sub]
    simp only [Int.sub_self]
    rfl

/-- A float is finite where it is a number. -/
theorem isFinite_iff (x : Float) : Scalar.IsFinite x ↔ ∃ q, IsValue x q := by
  have hsub : (x - x).toModel = .pack (.sub .binary64 x.toModel.unpack x.toModel.unpack) := rfl
  have hundefined {a : UnpackedFloat} (hx : x.toModel.unpack = a)
      (ha : UnpackedFloat.sub .binary64 a a = .notANumber) (hvalue : ∀ q, ¬ HasValue a q) :
      Scalar.IsFinite x ↔ ∃ q, IsValue x q := by
    rw [hx, ha] at hsub
    refine iff_of_false (fun hfinite => ?_) fun ⟨q, hq⟩ => hvalue q (hx ▸ hq)
    refine not_isNumber_of_unpack ?_ (OrderedScalar.isNumber_of_le hfinite.1).1
    rw [hsub, unpack_pack_notANumber]
  rcases exists_isValue_or x with ⟨q, hx⟩ | hx | ⟨s, hx⟩
  · refine iff_of_true ?_ ⟨q, hx⟩
    obtain ⟨s, hs⟩ := sub_self_of_hasValue hx
    rw [hs] at hsub
    have hvalue : IsValue (x - x) 0 := isValue_of_pack hsub (.zero s) (by norm_num)
    exact ⟨(hvalue.le_iff isValue_zero).mpr le_rfl, (isValue_zero.le_iff hvalue).mpr le_rfl⟩
  · exact hundefined hx rfl nofun
  · exact hundefined hx (by cases s <;> rfl) nofun

/-- A float that is not zero is the only one of its number. -/
theorem HasValue.eq_of_ne_zero {a b : UnpackedFloat} {q : ℚ} (ha : HasValue a q) (hb : HasValue b q)
    (hq : q ≠ 0) : a = b := by
  obtain ⟨c, d, hc, hd, hle⟩ := place_order_iff ha hb
  obtain ⟨d', c', hd', hc', hge⟩ := place_order_iff hb ha
  obtain rfl := Option.some.inj (hc.symm.trans hc')
  obtain rfl := Option.some.inj (hd.symm.trans hd')
  have hplace : c = d := by
    have hcd := (order_isLE_iff c d).mp (hle.mpr le_rfl)
    have hdc := (order_isLE_iff d c).mp (hge.mpr le_rfl)
    exact Prod.ext (by omega) (Prod.ext (by omega) (by omega))
  subst hplace
  cases ha with
  | zero => exact absurd rfl hq
  | finite s m e hpos =>
    generalize hr : signed s (m * 2 ^ e) = r at *
    cases hb with
    | zero => exact absurd rfl hq
    | finite s' m' e' hpos' =>
      cases s <;> cases s' <;> simp only [place, Option.some.injEq] at hc hd <;> rw [← hc] at hd <;>
        simp at hd <;> obtain ⟨rfl, rfl⟩ := hd <;> rfl

/-- A float is packed from its fields, as no float has more than one way to be undefined. -/
theorem pack_unpack_toModel (x : Float) : Float.Model.pack x.toModel.unpack = x.toModel := by
  obtain ⟨⟨⟨b⟩, hvalid⟩⟩ := x
  have hbits : UnpackedFloat.pack .binary64 (.unpack .binary64 b) = b := pack_unpack_of_valid hvalid
  simp only [Float.Model.pack, Float.Model.unpack, hbits]

end SkyCamera.Binary64
