import Mathlib
import SkyCamera.Binary64

/-!
Rounding to binary64, over the rational numbers. The last place of a number is 52 places behind
its first digit or the smallest there is, and the number is rounded to the nearest multiple of it,
of two that are equally near to the even one. Larger numbers are rounded to larger ones, which is
how bounds pass through an operation that is rounded. Rounding in the model of floats is of this
kind.
-/
namespace SkyCamera.Binary64

/-- The integer nearest to `y`; of two that are equally near, the even one. -/
structure IsNearest (n : ℤ) (y : ℚ) : Prop where
  near : |(n : ℚ) - y| ≤ 1 / 2
  even : |(n : ℚ) - y| = 1 / 2 → Even n

theorem isNearest_intCast (n : ℤ) : IsNearest n n where
  near := by rw [sub_self, abs_zero]; norm_num
  even h := by rw [sub_self, abs_zero] at h; norm_num at h

theorem isNearest_of_abs_lt {n : ℤ} {y : ℚ} (h : |(n : ℚ) - y| < 1 / 2) : IsNearest n y :=
  ⟨h.le, fun htie => absurd htie h.ne⟩

theorem IsNearest.neg {n : ℤ} {y : ℚ} (h : IsNearest n y) : IsNearest (-n) (-y) := by
  have habs : |((-n : ℤ) : ℚ) - -y| = |(n : ℚ) - y| := by
    rw [Int.cast_neg, neg_sub_neg, abs_sub_comm]
  exact ⟨habs ▸ h.near, fun htie => (h.even (habs ▸ htie)).neg⟩

/-- Only a midpoint has two nearest integers, and one of them is odd. -/
theorem IsNearest.le_of_le {m n : ℤ} {x y : ℚ} (hm : IsNearest m x) (hn : IsNearest n y)
    (h : x ≤ y) : m ≤ n := by
  by_contra hlt
  have hnext : (n : ℚ) + 1 ≤ m := by exact_mod_cast not_le.mp hlt
  obtain ⟨-, hx⟩ := abs_le.mp hm.near
  obtain ⟨hy, -⟩ := abs_le.mp hn.near
  have hmid : x = n + 1 / 2 ∧ y = n + 1 / 2 ∧ (m : ℚ) = n + 1 := by
    refine ⟨?_, ?_, ?_⟩ <;> linarith
  obtain ⟨rfl, rfl, hsucc⟩ := hmid
  have habove : (m : ℚ) - (n + 1 / 2) = 1 / 2 := by rw [hsucc]; ring
  have hbelow : (n : ℚ) - (n + 1 / 2) = -(1 / 2) := by ring
  have hhalf : |(1 / 2 : ℚ)| = 1 / 2 := abs_of_nonneg (by norm_num)
  have hevenm : Even m := hm.even (by rw [habove, hhalf])
  have hevenn : Even n := hn.even (by rw [hbelow, abs_neg, hhalf])
  have hodd : m = n + 1 := by exact_mod_cast hsucc
  exact Int.even_add_one.mp (hodd ▸ hevenm) hevenn

/-- The last place of a number is `2 ^ t`. -/
structure IsLastPlace (t : ℤ) (q : ℚ) : Prop where
  lowest : -1074 ≤ t
  lt : |q| < (2 : ℚ) ^ (t + 53)
  le : t = -1074 ∨ (2 : ℚ) ^ (t + 52) ≤ |q|

theorem IsLastPlace.neg {t : ℤ} {q : ℚ} (h : IsLastPlace t q) : IsLastPlace t (-q) :=
  ⟨h.lowest, (abs_neg q).symm ▸ h.lt, (abs_neg q).symm ▸ h.le⟩

/-- The last place grows with the number. -/
theorem IsLastPlace.le_of_abs_le {t t' : ℤ} {q q' : ℚ} (h : IsLastPlace t q)
    (h' : IsLastPlace t' q') (hle : |q| ≤ |q'|) : t ≤ t' := by
  rcases h.le with rfl | hq
  · exact h'.lowest
  · have hpow : (2 : ℚ) ^ (t + 52) < 2 ^ (t' + 53) := hq.trans_lt (hle.trans_lt h'.lt)
    have := (zpow_lt_zpow_iff_right₀ (by norm_num : (1 : ℚ) < 2)).mp hpow
    omega

theorem IsLastPlace.significand_le {t n : ℤ} {q : ℚ} (h : IsLastPlace t q) (hq : 0 ≤ q)
    (hn : IsNearest n (q / 2 ^ t)) : n ≤ 2 ^ 53 := by
  have hlt := h.lt.le
  rw [abs_of_nonneg hq, add_comm, zpow_add₀ two_ne_zero] at hlt
  refine hn.le_of_le (isNearest_intCast _) ((div_le_iff₀ (zpow_pos two_pos t)).mpr ?_)
  exact_mod_cast hlt

theorem IsLastPlace.le_significand {t n : ℤ} {q : ℚ} (h : IsLastPlace t q) (hq : 0 ≤ q)
    (hn : IsNearest n (q / 2 ^ t)) : t = -1074 ∨ 2 ^ 52 ≤ n := by
  refine h.le.imp_right fun hle => ?_
  rw [abs_of_nonneg hq, add_comm, zpow_add₀ two_ne_zero] at hle
  refine (isNearest_intCast _).le_of_le hn ((le_div_iff₀ (zpow_pos two_pos t)).mpr ?_)
  exact_mod_cast hle

/-- A number and what it is rounded to. -/
inductive Rounds (q : ℚ) : ℚ → Prop
  | nearest (n t : ℤ) (hplace : IsLastPlace t q) (hnear : IsNearest n (q / 2 ^ t)) :
      Rounds q (n * 2 ^ t)

theorem Rounds.neg {q r : ℚ} (h : Rounds q r) : Rounds (-q) (-r) := by
  obtain ⟨n, t, hplace, hnear⟩ := h
  have hneg := Rounds.nearest (-n) t hplace.neg (neg_div (2 ^ t) q ▸ hnear.neg)
  rwa [Int.cast_neg, neg_mul] at hneg

/-- Rounding is monotone: at the same last place the nearest integers are, and at a higher one there
is a power of two in between. -/
theorem Rounds.le_of_nonneg {q q' r r' : ℚ} (h : Rounds q r) (h' : Rounds q' r') (hq : 0 ≤ q)
    (hle : q ≤ q') : r ≤ r' := by
  obtain ⟨n, t, hplace, hnear⟩ := h
  obtain ⟨n', t', hplace', hnear'⟩ := h'
  have htwo : (2 : ℚ) ≠ 0 := two_ne_zero
  have hpos (k : ℤ) : (0 : ℚ) < 2 ^ k := zpow_pos two_pos k
  have hq' : 0 ≤ q' := hq.trans hle
  have hplaces : t ≤ t' :=
    hplace.le_of_abs_le hplace' (by rwa [abs_of_nonneg hq, abs_of_nonneg hq'])
  rcases hplaces.eq_or_lt with rfl | hlt
  · have hn : n ≤ n' := hnear.le_of_le hnear' (div_le_div_of_nonneg_right hle (hpos t).le)
    exact mul_le_mul_of_nonneg_right (by exact_mod_cast hn) (hpos t).le
  · -- The larger number starts behind the last place of the smaller one, where both roundings end.
    have hn : n ≤ 2 ^ 53 := hplace.significand_le hq hnear
    have hn' : 2 ^ 52 ≤ n' := (hplace'.le_significand hq' hnear').resolve_left fun hlowest =>
      (hlowest ▸ hlt).not_ge hplace.lowest
    calc (n : ℚ) * 2 ^ t ≤ 2 ^ 53 * 2 ^ t :=
          mul_le_mul_of_nonneg_right (by exact_mod_cast hn) (hpos t).le
      _ = 2 ^ (53 + t) := (zpow_add₀ htwo 53 t).symm
      _ ≤ 2 ^ (52 + t') := zpow_le_zpow_right₀ one_le_two (by omega)
      _ = 2 ^ 52 * 2 ^ t' := zpow_add₀ htwo 52 t'
      _ ≤ n' * 2 ^ t' := mul_le_mul_of_nonneg_right (by exact_mod_cast hn') (hpos t').le

theorem rounds_zero : Rounds 0 0 := by
  have hplace : IsLastPlace (-1074) 0 :=
    ⟨le_rfl, by rw [abs_zero]; exact zpow_pos two_pos _, Or.inl rfl⟩
  have hnear : IsNearest 0 (0 / 2 ^ (-1074 : ℤ)) := by
    rw [zero_div]
    exact_mod_cast isNearest_intCast 0
  have hzero := Rounds.nearest 0 (-1074) hplace hnear
  rwa [Int.cast_zero, zero_mul] at hzero

/-- Larger numbers are rounded to larger ones. -/
theorem Rounds.le_of_le {q q' r r' : ℚ} (h : Rounds q r) (h' : Rounds q' r') (hle : q ≤ q') :
    r ≤ r' := by
  rcases le_total 0 q with hq | hq
  · exact h.le_of_nonneg h' hq hle
  · rcases le_total 0 q' with hq' | hq'
    · have hr : 0 ≤ -r := rounds_zero.le_of_nonneg h.neg le_rfl (neg_nonneg.mpr hq)
      exact (neg_nonneg.mp hr).trans (rounds_zero.le_of_nonneg h' le_rfl hq')
    · exact neg_le_neg_iff.mp (h'.neg.le_of_nonneg h.neg (neg_nonneg.mpr hq') (neg_le_neg hle))

theorem Rounds.eq {q r r' : ℚ} (h : Rounds q r) (h' : Rounds q r') : r = r' :=
  le_antisymm (h.le_of_le h' le_rfl) (h'.le_of_le h le_rfl)

/-- The first digit of `m * 2 ^ e` stands at the place `m.log2 + e`. -/
theorem isLastPlace_mul_zpow {m : ℕ} (hm : 0 < m) (e : ℤ) :
    IsLastPlace (max (m.log2 + e - 52) (-1074)) (m * 2 ^ e) := by
  have htwo : (2 : ℚ) ≠ 0 := two_ne_zero
  have hpos : (0 : ℚ) < 2 ^ e := zpow_pos two_pos e
  have habs : |(m : ℚ) * 2 ^ e| = m * 2 ^ e := abs_of_nonneg (by positivity)
  have hlow : (2 : ℚ) ^ (m.log2 : ℤ) ≤ m := by exact_mod_cast Nat.log2_self_le hm.ne'
  have hhigh : (m : ℚ) < 2 ^ ((m.log2 : ℤ) + 1) := by exact_mod_cast Nat.lt_log2_self
  refine ⟨le_max_right _ _, ?_, ?_⟩
  · calc |(m : ℚ) * 2 ^ e| = m * 2 ^ e := habs
      _ < 2 ^ ((m.log2 : ℤ) + 1) * 2 ^ e := mul_lt_mul_of_pos_right hhigh hpos
      _ = 2 ^ ((m.log2 : ℤ) + 1 + e) := (zpow_add₀ htwo _ _).symm
      _ ≤ 2 ^ (max ((m.log2 : ℤ) + e - 52) (-1074) + 53) :=
          zpow_le_zpow_right₀ one_le_two (by omega)
  · rcases le_total ((m.log2 : ℤ) + e - 52) (-1074) with h | h
    · exact Or.inl (max_eq_right h)
    · refine Or.inr ?_
      rw [max_eq_left h, habs, sub_add_cancel, zpow_add₀ htwo]
      exact mul_le_mul_of_nonneg_right hlow hpos.le

theorem log2_le_of_lt {m : ℕ} (hm : m < 2 ^ 53) : m.log2 ≤ 52 := by
  rcases Nat.eq_zero_or_pos m with rfl | hpos
  · exact Nat.zero_le _
  · exact Nat.le_of_lt_succ ((Nat.log2_lt hpos.ne').mpr hm)

/-- A number of at most 53 digits is its own rounding. -/
theorem rounds_mul_zpow {m : ℕ} {e : ℤ} (hm : m < 2 ^ 53) (he : -1074 ≤ e) :
    Rounds (m * 2 ^ e) (m * 2 ^ e) := by
  rcases Nat.eq_zero_or_pos m with rfl | hpos
  · rw [Nat.cast_zero, zero_mul]
    exact rounds_zero
  · have hlog := log2_le_of_lt hm
    have hplace := isLastPlace_mul_zpow hpos e
    obtain ⟨k, hk⟩ := Int.le.dest (show max ((m.log2 : ℤ) + e - 52) (-1074) ≤ e by omega)
    generalize max ((m.log2 : ℤ) + e - 52) (-1074) = t at hplace hk
    have ht : (2 : ℚ) ^ t ≠ 0 := zpow_ne_zero t two_ne_zero
    have hvalue : (m : ℚ) * 2 ^ e = ((m * 2 ^ k : ℤ) : ℚ) * 2 ^ t := by
      rw [← hk, zpow_add₀ two_ne_zero, zpow_natCast]
      push_cast
      ring
    have hnear : IsNearest (m * 2 ^ k) ((m : ℚ) * 2 ^ e / 2 ^ t) := by
      rw [hvalue, mul_div_cancel_right₀ _ ht]
      exact isNearest_intCast _
    have hrounds := Rounds.nearest _ t hplace hnear
    rwa [← hvalue] at hrounds

open Float.Model Float.Model.UnpackedFloat

/-- A significand with its half, if it has one. -/
def halves (em : ExtendedMantissa) : ℚ := em.mantissa + if em.roundBit then 1 / 2 else 0

/-- The numbers that a significand and the bits behind it may stand for. -/
structure Represents (em : ExtendedMantissa) (y : ℚ) : Prop where
  le : halves em ≤ y
  lt : y < halves em + 1 / 2
  sticky_iff : em.stickyBit = false ↔ y = halves em

theorem halves_false (m : ℕ) (stickyBit : Bool) : halves ⟨m, false, stickyBit⟩ = m := add_zero _

theorem halves_true (m : ℕ) (stickyBit : Bool) : halves ⟨m, true, stickyBit⟩ = m + 1 / 2 := rfl

theorem represents_exact (m : ℕ) : Represents ⟨m, false, false⟩ m := by
  have hhalves := halves_false m false
  refine ⟨hhalves.le, ?_, iff_of_true rfl hhalves.symm⟩
  rw [hhalves]
  linarith

/-- The bit that is shifted out is the half of what is left. -/
theorem halves_shiftRightOne (em : ExtendedMantissa) :
    halves em.shiftRightOne = em.mantissa / 2 := by
  obtain ⟨m, roundBit, stickyBit⟩ := em
  rcases Nat.even_or_odd' m with ⟨k, rfl | rfl⟩
  · simp [halves, ExtendedMantissa.shiftRightOne]
  · have hk : (2 * k + 1) / 2 = k := by omega
    simp [halves, ExtendedMantissa.shiftRightOne, hk]
    ring

/-- A shift by one halves the number; the bit that leaves is kept as a half, and the former half
makes the rest sticky. -/
theorem Represents.shiftRightOne {em : ExtendedMantissa} {y : ℚ} (h : Represents em y) :
    Represents em.shiftRightOne (y / 2) := by
  obtain ⟨hle, hlt, hsticky⟩ := h
  obtain ⟨m, roundBit, stickyBit⟩ := em
  have hlow : (m : ℚ) ≤ y ∧ y < m + 1 ∧ (roundBit = false ∧ stickyBit = false ↔ y = m) := by
    cases roundBit with
    | false =>
      rw [halves_false] at hle hlt hsticky
      exact ⟨hle, by linarith, by rw [← hsticky]; exact and_iff_right rfl⟩
    | true =>
      rw [halves_true] at hle hlt
      exact ⟨by linarith, by linarith, iff_of_false (fun h => nomatch h.1) (by linarith)⟩
  obtain ⟨hle, hlt, hbits⟩ := hlow
  have hhalves := halves_shiftRightOne ⟨m, roundBit, stickyBit⟩
  constructor
  · rw [hhalves]
    linarith
  · rw [hhalves]
    linarith
  · rw [hhalves, div_left_inj' two_ne_zero, ← hbits]
    exact Bool.or_eq_false_iff

/-- Bits are shifted out one by one. -/
theorem Represents.shiftRight {em : ExtendedMantissa} {y : ℚ} (h : Represents em y) (k : ℕ) :
    Represents (em >>> k) (y / 2 ^ k) := by
  induction k with
  | zero => rwa [pow_zero, div_one]
  | succ k ih =>
    rw [pow_succ, ← div_div]
    exact ih.shiftRightOne

theorem isNearest_midpoint (m : ℕ) : IsNearest ((m + m % 2 : ℕ) : ℤ) (m + 1 / 2) := by
  have heven : (m + m % 2) % 2 = 0 := by omega
  refine ⟨?_, fun _ => (Int.even_coe_nat _).mpr (Nat.even_iff.mpr heven)⟩
  rw [Int.cast_natCast, Nat.cast_add, add_sub_add_left_eq_sub, abs_le]
  rcases Nat.mod_two_eq_zero_or_one m with h | h <;> rw [h] <;> norm_num

/-- The half bit and the sticky bit decide between the two neighbours, and a tie goes to the even
one. -/
theorem Represents.isNearest {em : ExtendedMantissa} {y : ℚ} (h : Represents em y) :
    IsNearest em.roundedMantissa y := by
  obtain ⟨hle, hlt, hsticky⟩ := h
  obtain ⟨m, roundBit, stickyBit⟩ := em
  have hcast : ((m : ℤ) : ℚ) = m := Int.cast_natCast m
  cases roundBit with
  | false =>
    have hkept : (⟨m, false, stickyBit⟩ : ExtendedMantissa).roundedMantissa = m := by
      cases stickyBit <;> rfl
    rw [halves_false] at hle hlt
    rw [hkept]
    exact isNearest_of_abs_lt (by rw [hcast, abs_lt]; constructor <;> linarith)
  | true =>
    rw [halves_true] at hle hlt hsticky
    cases stickyBit with
    | false =>
      obtain rfl := hsticky.mp rfl
      exact isNearest_midpoint m
    | true =>
      have hne : y ≠ m + 1 / 2 := fun heq => nomatch hsticky.mpr heq
      have hy : (m : ℚ) + 1 / 2 < y := lt_of_le_of_ne hle hne.symm
      show IsNearest ((m + 1 : ℕ) : ℤ) y
      refine isNearest_of_abs_lt ?_
      rw [Nat.cast_succ, Int.cast_add, Int.cast_one, hcast, abs_lt]
      constructor <;> linarith

/-- The last place of `m * 2 ^ e` is the exponent to which it is brought. -/
theorem targetExponent_eq (m : ℕ) (e : ℤ) :
    Format.binary64.targetExponent (totalExponent m e) = max ((m.log2 : ℤ) + e - 52) (-1074) := by
  have hbits : (Format.binary64.mantissaBits : ℤ) = 53 := by decide
  have hlowest : Format.binary64.minExponent = -1074 := by decide
  rw [Format.targetExponent, totalExponent, hbits, hlowest]
  omega

theorem shiftToTargetExponent_eq (m : ℕ) (e : ℤ) :
    shiftToTargetExponent .binary64 m e .exact =
      ((⟨m, false, false⟩ : ExtendedMantissa) >>>
          (max ((m.log2 : ℤ) + e - 52) (-1074) - e).toNat,
        e + (max ((m.log2 : ℤ) + e - 52) (-1074) - e).toNat) := by
  rw [shiftToTargetExponent, targetExponent_eq]
  rfl

/-- A significand that has been rounded is kept. -/
theorem shiftToTargetExponent_of_lt {m : ℕ} {e : ℤ} (hm : m < 2 ^ 53) (he : -1074 ≤ e) :
    shiftToTargetExponent .binary64 m e .exact = (⟨m, false, false⟩, e) := by
  have hlog := log2_le_of_lt hm
  have hshift : (max ((m.log2 : ℤ) + e - 52) (-1074) - e).toNat = 0 := by omega
  rw [shiftToTargetExponent_eq, hshift, Int.ofNat_zero, add_zero]
  rfl

/-- A carry into a new digit moves the significand by one bit. -/
theorem shiftToTargetExponent_carry {e : ℤ} (he : -1074 ≤ e) :
    shiftToTargetExponent .binary64 (2 ^ 53) e .exact = (⟨2 ^ 52, false, false⟩, e + 1) := by
  have hshift : (max (((2 ^ 53 : ℕ).log2 : ℤ) + e - 52) (-1074) - e).toNat = 1 := by
    rw [Nat.log2_two_pow]
    omega
  rw [shiftToTargetExponent_eq, hshift]
  rfl

def signed : Sign → ℚ → ℚ
  | .positive, q => q
  | .negative, q => -q

theorem Rounds.signed {q r : ℚ} (h : Rounds q r) (s : Sign) : Rounds (signed s q) (signed s r) := by
  cases s with
  | positive => exact h
  | negative => exact h.neg

/-- The number of a float whose exponent is the last place of its significand. -/
inductive HasValue : UnpackedFloat → ℚ → Prop
  | zero (s : Sign) : HasValue (.zero s) 0
  | finite (s : Sign) (m : ℕ) (e : ℤ) (hpos : 0 < m) (hm : m < 2 ^ 53) (he : -1074 ≤ e)
      (hfull : 2 ^ 52 ≤ m ∨ e = -1074) : HasValue (.finite s m e hpos) (signed s (m * 2 ^ e))

def settled (s : Sign) (shifted : ExtendedMantissa × ℤ) : UnpackedFloat :=
  if h : shifted.1.mantissa = 0 then .zero s
  else .finite s shifted.1.mantissa shifted.2 (Nat.pos_of_ne_zero h)

theorem roundWithAccuracy_eq (s : Sign) (m : ℕ) (e : ℤ) :
    roundWithAccuracy .binary64 s m e .exact =
      settled s (shiftToTargetExponent .binary64
        (shiftToTargetExponent .binary64 m e .exact).1.roundedMantissa
        (shiftToTargetExponent .binary64 m e .exact).2 .exact) := rfl

/-- A significand may have been rounded up to `2 ^ 53`, which is shifted once more. -/
theorem settled_hasValue (s : Sign) {n : ℕ} {t : ℤ} (hn : n ≤ 2 ^ 53) (ht : -1074 ≤ t)
    (hfull : 2 ^ 52 ≤ n ∨ t = -1074) :
    HasValue (settled s (shiftToTargetExponent .binary64 n t .exact)) (signed s (n * 2 ^ t)) := by
  rcases hn.lt_or_eq with hlt | rfl
  · rw [shiftToTargetExponent_of_lt hlt ht]
    by_cases hzero : n = 0
    · have hvalue : signed s (n * 2 ^ t) = 0 := by cases s <;> simp [signed, hzero]
      rw [settled, dif_pos hzero, hvalue]
      exact .zero s
    · rw [settled, dif_neg hzero]
      exact .finite s n t _ hlt ht hfull
  · have hvalue : ((2 ^ 53 : ℕ) : ℚ) * 2 ^ t = ((2 ^ 52 : ℕ) : ℚ) * 2 ^ (t + 1) := by
      rw [zpow_add_one₀ two_ne_zero]
      push_cast
      ring
    rw [shiftToTargetExponent_carry ht, settled, dif_neg (show 2 ^ 52 ≠ 0 by decide),
      hvalue]
    exact .finite s (2 ^ 52) (t + 1) _ (by decide) (by omega) (Or.inl le_rfl)

/-- A product or a sum is rounded if its exponent is not above its last place. -/
theorem roundWithAccuracy_hasValue (s : Sign) {m : ℕ} {e : ℤ} (hm : 0 < m)
    (he : e ≤ max ((m.log2 : ℤ) + e - 52) (-1074)) :
    ∃ r, Rounds (signed s (m * 2 ^ e)) r ∧
      HasValue (roundWithAccuracy .binary64 s m e .exact) r := by
  have hplace := isLastPlace_mul_zpow hm e
  have hshift := shiftToTargetExponent_eq m e
  rw [roundWithAccuracy_eq, hshift]
  obtain ⟨k, hk⟩ := Int.le.dest he
  generalize max ((m.log2 : ℤ) + e - 52) (-1074) = t at hplace hk ⊢
  rw [← hk, add_sub_cancel_left, Int.toNat_natCast, hk]
  have hnonneg : (0 : ℚ) ≤ m * 2 ^ e := by positivity
  have hscaled : (m : ℚ) * 2 ^ e / 2 ^ t = m / 2 ^ k := by
    rw [← hk, zpow_add₀ two_ne_zero, zpow_natCast, mul_comm, mul_div_mul_left]
    exact zpow_ne_zero e two_ne_zero
  have hnear := ((represents_exact m).shiftRight k).isNearest
  rw [← hscaled] at hnear
  refine ⟨_, (Rounds.nearest _ t hplace hnear).signed s, ?_⟩
  refine settled_hasValue s ?_ hplace.lowest ?_
  · exact_mod_cast hplace.significand_le hnonneg hnear
  · exact (hplace.le_significand hnonneg hnear).symm.imp_left fun h => by exact_mod_cast h

theorem log2_mul_two_pow {m : ℕ} (hm : 0 < m) (k : ℕ) : (m * 2 ^ k).log2 = m.log2 + k := by
  have hpow : 0 < 2 ^ k := Nat.two_pow_pos k
  rw [Nat.log2_eq_iff (Nat.mul_pos hm hpow).ne', Nat.add_right_comm, pow_add, pow_add _ (_ + 1)]
  exact ⟨Nat.mul_le_mul_right _ (Nat.log2_self_le hm.ne'),
    Nat.mul_lt_mul_of_pos_right Nat.lt_log2_self hpow⟩

/-- A number of any exponent is rounded. -/
theorem round_hasValue (s : Sign) {m : ℕ} (hm : 0 < m) (e : ℤ) :
    ∃ r, Rounds (signed s (m * 2 ^ e)) r ∧ HasValue (UnpackedFloat.round .binary64 s m e) r := by
  rw [UnpackedFloat.round, targetExponent_eq, decreaseExponent]
  generalize hk : (e - max ((m.log2 : ℤ) + e - 52) (-1074)).toNat = k
  have hpos : 0 < m * 2 ^ k := Nat.mul_pos hm (Nat.two_pow_pos k)
  have hlog := log2_mul_two_pow hm k
  have hvalue : (m : ℚ) * 2 ^ e = (m * 2 ^ k : ℕ) * 2 ^ (e - k) := by
    rw [zpow_sub₀ two_ne_zero, zpow_natCast]
    push_cast
    field_simp
  rw [hvalue]
  simp only [Nat.shiftLeft_eq]
  exact roundWithAccuracy_hasValue s hpos (by rw [hlog]; omega)

/-- A sum is rounded, also where it is zero. -/
theorem normalize_hasValue (m e : ℤ) (zeroSign : Sign) :
    ∃ r, Rounds (m * 2 ^ e) r ∧ HasValue (UnpackedFloat.normalize .binary64 m e zeroSign) r := by
  unfold UnpackedFloat.normalize
  rcases lt_trichotomy m 0 with h | rfl | h
  · rw [Int.compare_eq_lt.mpr h]
    obtain ⟨k, rfl⟩ : ∃ k : ℕ, m = -k := ⟨m.natAbs, by omega⟩
    have hvalue : ((-k : ℤ) : ℚ) * 2 ^ e = signed .negative (k * 2 ^ e) := by simp [signed]
    rw [hvalue, neg_neg, Int.toNat_natCast]
    exact round_hasValue .negative (by omega) e
  · rw [Int.cast_zero, zero_mul]
    exact ⟨0, rounds_zero, .zero zeroSign⟩
  · rw [Int.compare_eq_gt.mpr h]
    obtain ⟨k, rfl⟩ : ∃ k : ℕ, m = k := ⟨m.natAbs, by omega⟩
    exact round_hasValue .positive (by omega) e

end SkyCamera.Binary64
