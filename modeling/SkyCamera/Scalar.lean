/-!
The arithmetic over which calibration is written: field operations, comparisons, square root and
the circular functions. Binary floating point is one arithmetic of this kind and the real numbers
are another, so no law is assumed here. Comparisons are those of the arithmetic itself: where it
has undefined values, each comparison with one of them fails, and the definitions below are
written so that this gives the intended branch.
-/
namespace SkyCamera

class Scalar (α : Type) extends Zero α, One α, Add α, Sub α, Mul α, Div α, Neg α, LT α, LE α,
    NatCast α, IntCast α, OfScientific α where
  decidableLT : DecidableLT α
  decidableLE : DecidableLE α
  /-- Half a turn in radians. -/
  pi : α
  sqrt : α → α
  /-- The length of the vector `(x, y)` of the plane, as `hypot x y`. -/
  hypot : α → α → α
  sin : α → α
  cos : α → α
  tan : α → α
  asin : α → α
  atan : α → α
  /-- The angle of the point with ordinate `y` and abscissa `x`, as `atan2 y x`. -/
  atan2 : α → α → α
  exp : α → α
  /-- The natural logarithm. -/
  log : α → α
  /-- The remainder of a division that is not negative, as `modulo x y`. -/
  modulo : α → α → α

attribute [reducible, instance] Scalar.decidableLT Scalar.decidableLE

namespace Scalar

variable {α : Type} [Scalar α]

/-- The quotient `0 / 0`, which stands for a number that is not there yet. -/
def undefined : α := 0 / 0

/-- The quotient `1 / 0`, which floating point places above every number. -/
def infinity : α := 1 / 0

/-- The smallest binary64 number above zero that has all its digits. -/
def smallest : α := 2.2250738585072014e-308

/-- A full turn in radians. -/
def tau : α := 2.0 * pi

/-- A number that is neither below nor above zero, and not undefined. -/
abbrev IsZero (x : α) : Prop := x ≤ 0 ∧ 0 ≤ x

/-- Two numbers of which neither is below the other, and none undefined. -/
abbrev Same (x y : α) : Prop := x ≤ y ∧ y ≤ x

/-- A number is finite when it leaves zero if it is taken from itself. -/
abbrev IsFinite (x : α) : Prop := IsZero (x - x)

def abs (x : α) : α := if x < 0 then -x else x

/-- The number itself, raised to `floor` if it is below it or undefined. -/
def atLeast (floor x : α) : α := if floor ≤ x then x else floor

/-- The number itself if it lies in `[-1, 1]` or is undefined, else the nearer end. -/
def clampUnit (x : α) : α := if x < -1 then -1 else if 1 < x then 1 else x

def radians (degrees : α) : α := degrees * (pi / 180.0)

/-- The sum of a finite family, from its first term to its last. -/
def sum {n : Nat} (f : Fin n → α) : α := Fin.foldl n (fun s i => s + f i) 0

theorem sum_empty (f : Fin 0 → α) : sum f = 0 := by
  simp only [sum, Fin.foldl_zero]

theorem sum_succ {n : Nat} (f : Fin (n + 1) → α) :
    sum f = (sum fun i : Fin n => f i.castSucc) + f (Fin.last n) := by
  simp only [sum, Fin.foldl_succ_last]

end Scalar
end SkyCamera
