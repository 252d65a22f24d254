import SkyCamera.Binary64

/-!
Decimal roundings of a positive fraction, in exact integer arithmetic: to a number of places, to
a number of significant digits, and to the fewest digits that still name one binary64 number.
-/
namespace SkyCamera

/-- The number `coefficient * 10 ^ exponent`. -/
structure Decimal where
  coefficient : Nat
  exponent : Int

namespace Decimal

/-- The integer nearest to `num / den`; of two that are equally near, the even one. -/
def roundDiv (num den : Nat) : Nat :=
  let q := num / den
  let r := num % den
  if 2 * r < den then q else if den < 2 * r then q + 1 else q + q % 2

/-- The number of decimal digits of `n`; zero has none. -/
def digitCount (n : Nat) : Nat := if n = 0 then 0 else digitCount (n / 10) + 1

/-- The largest `e` with `10 ^ e ≤ num / den`. -/
def magnitude (num den : Nat) : Int :=
  if den ≤ num then digitCount (num / den) - 1 else -digitCount ((den - 1) / num)

/-- The fraction `num / den * 10 ^ p`, as numerator and denominator. -/
def shifted (num den : Nat) (p : Int) : Nat × Nat :=
  (num * Nat.pow 10 p.toNat, den * Nat.pow 10 (-p).toNat)

/-- The multiple of `10 ^ -places` nearest to `num / den`. -/
def toPlaces (places : Int) (num den : Nat) : Decimal :=
  let (num, den) := shifted num den places
  ⟨roundDiv num den, -places⟩

/-- The number with `digits` significant digits nearest to `num / den`; a carry out of the first
digit leaves one digit more, the last of them zero. -/
def toSignificant (digits : Nat) (num den : Nat) : Decimal :=
  toPlaces (digits - 1 - magnitude num den) num den

/-- The exponent of the first digit. -/
def leading (d : Decimal) : Int := d.exponent + digitCount d.coefficient - 1

/-- The same number without zeros at the end of its coefficient. -/
def trimmed (d : Decimal) : Decimal :=
  if h : d.coefficient = 0 then d
  else if d.coefficient % 10 = 0 then trimmed ⟨d.coefficient / 10, d.exponent + 1⟩
  else d
termination_by d.coefficient
decreasing_by omega

/-- Whether `d` lies between `low / den` and `high / den`, with the ends if `closed`. -/
def between (low high den : Nat) (closed : Bool) (d : Decimal) : Bool :=
  let (value, unit) := shifted d.coefficient 1 d.exponent
  if closed then low * unit ≤ value * den ∧ value * den ≤ high * unit
  else low * unit < value * den ∧ value * den < high * unit

/-- Of the numbers with the fewest digits that round to `m * 2 ^ q` in binary64, the nearest, and
of two that are equally near the larger. An even significand also wins the midpoints to its
neighbours; below a power of two the neighbour is half as far away. Seventeen digits always
suffice. -/
def shortest (m : Nat) (q : Int) : Decimal :=
  let (up, den) := (Nat.pow 2 q.toNat, 4 * Nat.pow 2 (-q).toNat)
  let num := 4 * m * up
  let low := if m = Nat.pow 2 52 then num - up else num - 2 * up
  let high := num + 2 * up
  let closed := m % 2 = 0
  let hit (digits : Nat) : Option Decimal :=
    let places : Int := digits - 1 - magnitude num den
    let (n, d) := shifted num den places
    let near := (2 * n + d) / (2 * d)
    let far := if near = n / d then near + 1 else n / d
    [near, far].map (⟨·, -places⟩) |>.find? (between low high den closed)
  ((List.range 17).findSome? fun k => hit (k + 1)).getD (toSignificant 17 num den)

end Decimal

namespace Binary64

/-- The number `m * 2 ^ q` as numerator and denominator. -/
def fraction (m : Nat) (q : Int) : Nat × Nat :=
  (m * Nat.pow 2 q.toNat, Nat.pow 2 (-q).toNat)

end Binary64
end SkyCamera
