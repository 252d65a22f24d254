import SkyCamera.Scalar

/-!
Binary64 numbers as exact values: a number that is neither infinite nor undefined is a signed
integer times a power of two. Remainders are taken on these integers, so they are exact, and
lengths are rounded once.
-/
namespace SkyCamera

inductive Binary64
  | undefined
  | infinite (negative : Bool)
  /-- The number `significand * 2 ^ exponent`, or its negative. -/
  | finite (negative : Bool) (significand : Nat) (exponent : Int)

namespace Binary64

def ofFloat (x : Float) : Binary64 :=
  let bits := x.toBits.toNat
  let negative : Bool := bits / Nat.pow 2 63 % 2 = 1
  let field : Nat := bits / Nat.pow 2 52 % Nat.pow 2 11
  let fraction : Nat := bits % Nat.pow 2 52
  if field = 2047 then
    if fraction = 0 then .infinite negative else .undefined
  else if field = 0 then .finite negative fraction (-1074)
  else .finite negative (Nat.pow 2 52 + fraction) (field - 1075 : Int)

/-- The float `2 ^ e`, for `e` from -1074 to 1023. -/
def powerOfTwo (e : Int) : Float :=
  if -1022 ≤ e then Float.ofBits (UInt64.ofNat ((e + 1023).toNat * Nat.pow 2 52))
  else Float.ofBits (UInt64.ofNat (Nat.pow 2 (e + 1074).toNat))

/-- The remainder of `x` by `y` with the sign of `x`, for finite `x` and finite `y ≠ 0`. -/
def truncatedRemainder (negative : Bool) (m : Nat) (e : Int) (m' : Nat) (e' : Int) : Float :=
  let low := min e e'
  let r := (m * Nat.pow 2 (e - low).toNat) % (m' * Nat.pow 2 (e' - low).toNat)
  let size := Float.ofNat r * powerOfTwo low
  if negative then -size else size

/-- A remainder below zero is moved up by one divisor. An infinite dividend and a divisor that is
zero have no remainder; an infinite divisor leaves the dividend. -/
def modulo (x y : Float) : Float :=
  let lift (r : Float) : Float := if r < 0 then r + y.abs else r
  match ofFloat x, ofFloat y with
  | .finite s m e, .finite _ m' e' =>
    if m' = 0 then 0 / 0 else lift (truncatedRemainder s m e m' e')
  | .finite .., .infinite _ => lift x
  | _, _ => 0 / 0

/-- The largest integer whose square is not above `n`. -/
def integerSqrt (n : Nat) : Nat :=
  if n = 0 then 0
  else
    let r := 2 * integerSqrt (n / 4) + 1
    if r * r ≤ n then r else r - 1
termination_by n
decreasing_by omega

theorem integerSqrt_bounds (n : Nat) :
    integerSqrt n * integerSqrt n ≤ n ∧ n < (integerSqrt n + 1) * (integerSqrt n + 1) := by
  fun_induction integerSqrt n with
  | case1 => decide
  | case2 n _ r hr ih =>
    have hsquare : r + 1 = 2 * (integerSqrt (n / 4) + 1) := by omega
    rw [hsquare, Nat.mul_mul_mul_comm]
    omega
  | case3 n _ r hr ih =>
    have hroot : r - 1 = 2 * integerSqrt (n / 4) := by omega
    rw [Nat.sub_add_cancel (by omega), hroot, Nat.mul_mul_mul_comm]
    omega

/-- The float nearest to the square root of `n * 4 ^ e`; of two that are equally near, the even
one. The root is first taken in halves of its last bit. -/
def nearestSqrt (n : Nat) (e : Int) : Float :=
  let last := max (n.log2 / 2 + e - 52) (-1074)
  let shift := e - last + 1
  let (num, den) := (n * Nat.pow 4 shift.toNat, Nat.pow 4 (-shift).toNat)
  let halves := integerSqrt (num / den)
  let exact := halves * halves * den = num
  let up := halves % 2 = 1 ∧ (¬ exact ∨ halves / 2 % 2 = 1)
  Float.ofNat (if up then halves / 2 + 1 else halves / 2) * powerOfTwo last

/-- An infinite coordinate makes the length infinite, also beside one that is undefined. -/
def hypot (x y : Float) : Float :=
  match ofFloat x, ofFloat y with
  | .infinite _, _ | _, .infinite _ => 1 / 0
  | .finite _ m e, .finite _ m' e' =>
    let low := min e e'
    let (a, b) := (m * Nat.pow 2 (e - low).toNat, m' * Nat.pow 2 (e' - low).toNat)
    nearestSqrt (a * a + b * b) low
  | _, _ => 0 / 0

end Binary64

instance : Scalar Float where
  zero := 0.0
  one := 1.0
  natCast := Float.ofNat
  intCast := Float.ofInt
  decidableLT := inferInstance
  decidableLE := inferInstance
  pi := 3.14159265358979323846
  sqrt := Float.sqrt
  hypot := Binary64.hypot
  sin := Float.sin
  cos := Float.cos
  tan := Float.tan
  asin := Float.asin
  atan := Float.atan
  atan2 := Float.atan2
  exp := Float.exp
  log := Float.log
  modulo := Binary64.modulo

end SkyCamera
