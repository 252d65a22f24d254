import SkyCamera.Proofs.FloatValue

/-!
The remainder of a division of floats. For a finite dividend it lies between zero and the size of
the divisor, both of which it may reach by rounding; an infinite or undefined dividend has none.
-/
namespace SkyCamera.Binary64

open Float.Model Float.Model.UnpackedFloat

theorem isValue_one : IsValue 1.0 1 := by
  have hunpack : (1.0 : Float).toModel.unpack = .finite .positive (2 ^ 52) (-52) (by decide) := rfl
  exact isValue_of_unpack_eq hunpack (by norm_num [signed])

/-- A float, undefined and infinite ones included, is left as it is by a product with one. -/
theorem float_mul_one (x : Float) : x * 1.0 = x := by
  have hproduct (h : UnpackedFloat.mul .binary64 x.toModel.unpack (1.0 : Float).toModel.unpack =
      x.toModel.unpack) : x * 1.0 = x := by
    have hmodel : (x * 1.0).toModel = .pack (.mul .binary64 x.toModel.unpack
      (1.0 : Float).toModel.unpack) := rfl
    rw [h, pack_unpack_toModel] at hmodel
    exact congrArg Float.ofModel hmodel
  have hunpack : (1.0 : Float).toModel.unpack = .finite .positive (2 ^ 52) (-52) (by decide) := rfl
  refine hproduct ?_
  cases hx : x.toModel.unpack with
  | notANumber => rfl
  | infinity s => cases s <;> rfl
  | zero s => cases s <;> rfl
  | finite s m e hpos =>
    have hvalue := isValue_of_unpack hx
    obtain ⟨r, hr, hmul⟩ := mul_hasValue hvalue isValue_one
    rw [mul_one] at hr
    obtain rfl := hr.eq hvalue.rounds
    rw [hx] at hmul
    have hsize : (m : ℚ) * 2 ^ e ≠ 0 :=
      (mul_pos (Nat.cast_pos.mpr hpos) (zpow_pos two_pos e)).ne'
    have hne : signed s (m * 2 ^ e) ≠ 0 := by
      rwa [← abs_ne_zero, abs_signed, abs_ne_zero]
    exact hmul.eq_of_ne_zero (hx ▸ hvalue) hne

theorem rounds_natCast {n : ℕ} (h : n < 2 ^ 53) : Rounds n n := by
  simpa using rounds_mul_zpow h (show -1074 ≤ (0 : ℤ) by decide)

/-- Natural numbers below `2 ^ 53` are converted exactly. -/
theorem isValue_toFloat {n : ℕ} (h : n < 2 ^ 53) : IsValue n.toUInt64.toFloat n := by
  have hn : n.toUInt64.toNat = n := Nat.mod_eq_of_lt (by omega)
  have hmodel : n.toUInt64.toFloat.toModel = .pack (.normalize .binary64 n 0 .positive) := by
    show Float.Model.pack (.normalize .binary64 (n.toUInt64.toNat : ℤ) 0 .positive) = _
    rw [hn]
  obtain ⟨r, hr, hvalue⟩ := normalize_hasValue n 0 .positive
  rw [zpow_zero, mul_one, Int.cast_natCast] at hr
  obtain rfl := hr.eq (rounds_natCast h)
  refine isValue_of_pack hmodel hvalue ?_
  rw [abs_of_nonneg n.cast_nonneg]
  calc (n : ℚ) < 2 ^ (53 : ℤ) := by exact_mod_cast h
    _ < 2 ^ (1024 : ℤ) := zpow_lt_zpow_right₀ one_lt_two (by decide)

/-- An integer of at most 53 bits is a float. -/
theorem isValue_ofNat {n : ℕ} (h : n < 2 ^ 53) : IsValue (Float.ofNat n) n := by
  have hofNat : Float.ofNat n = n.toUInt64.toFloat * 1.0 := by
    show Float.ofScientific n false 0 = _
    rw [Float.ofScientific, dif_pos ⟨h, by decide⟩]
    rfl
  have hvalue := isValue_toFloat h
  obtain ⟨r, hr, hproduct⟩ := hvalue.mul isValue_one hvalue
    (by rw [mul_one, abs_of_nonneg n.cast_nonneg])
  rw [mul_one] at hr
  obtain rfl := hr.eq (rounds_natCast h)
  rwa [hofNat]

theorem isValue_ofBits {b : UInt64} {a : UnpackedFloat} {q : ℚ}
    (hb : b.toBitVec = UnpackedFloat.pack .binary64 a) (h : HasValue a q)
    (hq : |q| < 2 ^ (1024 : ℤ)) : IsValue (Float.ofBits b) q := by
  refine isValue_of_pack ?_ h hq
  show Float.Model.pack (UnpackedFloat.unpack .binary64 b.toBitVec) = Float.Model.pack a
  rw [hb, unpack_pack h hq]

theorem toNat_packComponents (e : BitVec 11) (f : BitVec 52) :
    (packComponents .binary64 .positive e f).toNat = e.toNat * 2 ^ 52 + f.toNat := by
  have hsign : (0#1 ++ e).toNat = e.toNat := by
    rw [BitVec.toNat_append, ← Nat.shiftLeft_add_eq_or_of_lt e.isLt, BitVec.toNat_zero,
      Nat.zero_shiftLeft, zero_add]
  show (0#1 ++ e ++ f).toNat = _
  rw [BitVec.toNat_append, ← Nat.shiftLeft_add_eq_or_of_lt f.isLt, hsign, Nat.shiftLeft_eq]

theorem toBitVec_eq_packComponents {n : ℕ} {e : BitVec 11} {f : BitVec 52}
    (h : n = e.toNat * 2 ^ 52 + f.toNat) :
    (UInt64.ofNat n).toBitVec = packComponents .binary64 .positive e f := by
  have he := e.isLt
  have hf := f.isLt
  apply BitVec.eq_of_toNat_eq
  rw [toNat_packComponents, ← h]
  exact Nat.mod_eq_of_lt (by omega)

/-- Powers of two are built from their bits, the exponents of subnormal ones included. -/
theorem isValue_powerOfTwo {e : ℤ} (he : -1074 ≤ e) (hmax : e ≤ 1023) :
    IsValue (powerOfTwo e) (2 ^ e) := by
  have hbound : |(2 : ℚ) ^ e| < 2 ^ (1024 : ℤ) := by
    rw [abs_of_nonneg (zpow_pos two_pos e).le]
    exact zpow_lt_zpow_right₀ one_lt_two (by omega)
  unfold powerOfTwo
  split
  next h =>
    have hvalue : signed .positive ((2 ^ 52 : ℕ) * 2 ^ (e - 52)) = 2 ^ e := by
      rw [signed, Nat.cast_pow, Nat.cast_ofNat, ← zpow_natCast, ← zpow_add₀ two_ne_zero]
      exact congrArg _ (by omega)
    have hfloat := HasValue.finite .positive (2 ^ 52) (e - 52) (by decide) (by decide) (by omega)
      (Or.inl le_rfl)
    rw [hvalue] at hfloat
    refine isValue_ofBits ?_ hfloat hbound
    rw [pack_full .positive (e - 52) _ le_rfl (by decide) (by omega)]
    refine toBitVec_eq_packComponents ?_
    have hexponent : (BitVec.ofNat 11 (e - 52 + 1075).toNat).toNat = (e + 1023).toNat := by
      show (e - 52 + 1075).toNat % 2 ^ 11 = _
      omega
    have hfraction : (BitVec.ofNat 52 (2 ^ 52)).toNat = 0 := rfl
    rw [hexponent, hfraction, Nat.pow_eq, add_zero]
  next h =>
    obtain ⟨k, rfl⟩ := Int.le.dest he
    have hk : k < 52 := by omega
    have hpow : 2 ^ k < 2 ^ 52 := Nat.pow_lt_pow_right one_lt_two hk
    have hvalue : signed .positive ((2 ^ k : ℕ) * 2 ^ (-1074 : ℤ)) = 2 ^ (-1074 + k : ℤ) := by
      rw [signed, zpow_add₀ two_ne_zero, zpow_natCast, Nat.cast_pow, Nat.cast_ofNat, mul_comm]
    have hfloat := HasValue.finite .positive (2 ^ k) (-1074) (Nat.two_pow_pos k) (by omega) le_rfl
      (Or.inr rfl)
    rw [hvalue] at hfloat
    refine isValue_ofBits ?_ hfloat hbound
    rw [pack_lowest .positive _ hpow]
    refine toBitVec_eq_packComponents ?_
    have hexponent : (-1074 + k + 1074 : ℤ).toNat = k := by omega
    have hfraction : (BitVec.ofNat 52 (2 ^ k)).toNat = 2 ^ k := Nat.mod_eq_of_lt hpow
    rw [hexponent, hfraction, Nat.pow_eq, BitVec.toNat_zero, Nat.zero_mul, zero_add]

/-- The remainder of two significands is below the divisor, with no more bits than one of them. -/
theorem significand_mod_lt {m m' : ℕ} (e e' : ℤ) (hm : m < 2 ^ 53) (hm' : m' < 2 ^ 53)
    (hpos : 0 < m') :
    m * 2 ^ (e - min e e').toNat % (m' * 2 ^ (e' - min e e').toNat) < 2 ^ 53 := by
  rcases le_total e e' with h | h
  · have hshift : (e - min e e').toNat = 0 := by omega
    rw [hshift, pow_zero, mul_one]
    exact (Nat.mod_le _ _).trans_lt hm
  · have hshift : (e' - min e e').toNat = 0 := by omega
    rw [hshift, pow_zero, mul_one]
    exact (Nat.mod_lt _ hpos).trans hm'

/-- The remainder that has the sign of the dividend is not larger than the divisor. -/
theorem truncatedRemainder_le (negative : Bool) {m m' : ℕ} {e e' : ℤ} {z : Float} {b : ℚ}
    (hm : m < 2 ^ 53) (he : -1074 ≤ e) (hmax : e ≤ 971) (hm' : m' < 2 ^ 53) (he' : -1074 ≤ e')
    (hpos : 0 < m') (hz : IsValue z b) (hb : b = m' * 2 ^ e') :
    ∃ r, IsValue (truncatedRemainder negative m e m' e') r ∧ |r| ≤ b := by
  have hbits := significand_mod_lt e e' hm hm' hpos
  have hlt : m * 2 ^ (e - min e e').toNat % (m' * 2 ^ (e' - min e e').toNat) <
      m' * 2 ^ (e' - min e e').toNat :=
    Nat.mod_lt _ (Nat.mul_pos hpos (Nat.two_pow_pos _))
  have hlow : -1074 ≤ min e e' ∧ min e e' ≤ 1023 ∧ min e e' ≤ e' := by omega
  obtain ⟨hlowest, hlargest, hmin⟩ := hlow
  unfold truncatedRemainder
  simp only [Nat.pow_eq]
  generalize min e e' = low at *
  generalize m * 2 ^ (e - low).toNat % (m' * 2 ^ (e' - low).toNat) = n at *
  have hlow : (n : ℚ) * 2 ^ low ≤ b := by
    obtain ⟨k, hk⟩ := Int.le.dest hmin
    rw [← hk, add_sub_cancel_left, Int.toNat_natCast] at hlt
    calc (n : ℚ) * 2 ^ low ≤ (m' * 2 ^ k : ℕ) * 2 ^ low :=
          mul_le_mul_of_nonneg_right (Nat.cast_le.mpr hlt.le) (zpow_pos two_pos _).le
      _ = m' * 2 ^ (low + k) := by
          rw [zpow_add₀ two_ne_zero, zpow_natCast]
          push_cast
          ring
      _ = b := by rw [hk, hb]
  have hnonneg : 0 ≤ (n : ℚ) * 2 ^ low := by positivity
  have hsize : |(n : ℚ) * 2 ^ low| ≤ b := (abs_of_nonneg hnonneg).trans_le hlow
  obtain ⟨r, hr, hvalue⟩ := (isValue_ofNat hbits).mul
    (isValue_powerOfTwo hlowest hlargest) hz hsize
  have hr := hr.abs_le_of_isValue hz hsize
  cases negative with
  | false => exact ⟨r, hvalue, hr⟩
  | true => exact ⟨-r, hvalue.neg, (abs_neg r).trans_le hr⟩

/-- The remainder of a number by a number that is not zero. -/
theorem modulo_mem {x y : Float} {p q : ℚ} (hx : IsValue x p) (hy : IsValue y q) (hq : q ≠ 0) :
    ∃ r, IsValue (modulo x y) r ∧ 0 ≤ r ∧ r ≤ |q| := by
  obtain ⟨s, m, e, hfields, -, hm, he, hmax⟩ := hx.exists_ofFloat
  obtain ⟨s', m', e', hfields', hvalue, hm', he', -⟩ := hy.exists_ofFloat
  have hpos : 0 < m' := by
    refine Nat.pos_of_ne_zero fun hzero => hq ?_
    rw [hvalue, hzero, Nat.cast_zero, zero_mul]
    cases s' <;> simp [signed]
  have habs : |q| = m' * 2 ^ e' := by rw [hvalue, abs_signed, abs_of_nonneg (by positivity)]
  obtain ⟨r, hr, hle⟩ := truncatedRemainder_le (isNegative s) hm he hmax hm' he' hpos hy.abs habs
  obtain ⟨hlow, hhigh⟩ := abs_le.mp hle
  rw [modulo, hfields, hfields']
  simp only [if_neg hpos.ne']
  split
  next hlt =>
    have hnegative : r < 0 := (hr.lt_iff isValue_zero).mp hlt
    have hnonneg : 0 ≤ r + |q| := by linarith
    have hbelow : r + |q| ≤ |q| := by linarith
    obtain ⟨r', hr', hsum⟩ := hr.add hy.abs hy.abs ((abs_of_nonneg hnonneg).trans_le hbelow)
    exact ⟨r', hsum, rounds_zero.le_of_le hr' hnonneg, hr'.le_of_le hy.abs.rounds hbelow⟩
  next hlt =>
    have hnonneg : 0 ≤ r := not_lt.mp fun h => hlt ((hr.lt_iff isValue_zero).mpr h)
    exact ⟨r, hr, hnonneg, hhigh⟩

/-- An infinite or undefined number has no remainder. -/
theorem modulo_eq_undefined {x y : Float} {q : ℚ} (hx : ¬ Scalar.IsFinite x) (hy : IsValue y q) :
    modulo x y = 0 / 0 := by
  obtain ⟨s', m', e', hfields', -⟩ := hy.exists_ofFloat
  rw [isFinite_iff] at hx
  rw [modulo, ofFloat_eq x, hfields']
  rcases exists_isValue_or x with hvalue | hundefined | ⟨s, hinfinite⟩
  · exact absurd hvalue hx
  · rw [hundefined]
    rfl
  · rw [hinfinite]
    rfl

end SkyCamera.Binary64
