import SkyCamera.Decimal.Rounding

/-!
Decimal texts of binary64 numbers. Messages use the fewest digits that read back, in positional
notation; progress lines use a fixed number of places, with or without an exponent; measured
values are rounded to significant digits.
-/
namespace SkyCamera.Decimal

/-- The digits of `d` with a point where it belongs, and no point in a whole number. -/
def positional (d : Decimal) : String :=
  let digits := toString d.coefficient
  if 0 ≤ d.exponent then digits.pushn '0' d.exponent.toNat
  else
    let places := (-d.exponent).toNat
    let padded := ("".pushn '0' (places + 1 - digits.length)) ++ digits
    let chars := padded.toList
    let whole := chars.length - places
    String.ofList (chars.take whole) ++ "." ++ String.ofList (chars.drop whole)

/-- The first digit of `d`, the others after a point if there are any, and the exponent in the
form given by `mark`. -/
def scientific (mark : Int → String) (d : Decimal) : String :=
  match (toString d.coefficient).toList with
  | [] => ""
  | first :: rest =>
    let fractional := if rest.isEmpty then "" else "." ++ String.ofList rest
    String.singleton first ++ fractional ++ mark d.leading

def signed (negative : Bool) (text : String) : String := if negative then "-" ++ text else text

/-- The text of a number that is not finite, or what `write` gives for the size of one that is. -/
def textOf (x : Float) (write : Nat → Int → String) : String :=
  match Binary64.ofFloat x with
  | .undefined => "NaN"
  | .infinite negative => signed negative "inf"
  | .finite negative m q => signed negative (write m q)

/-- The fewest digits that read back, never with an exponent. -/
def plain (x : Float) : String :=
  textOf x fun m q => if m = 0 then "0" else (shortest m q).trimmed.positional

/-- A fixed number of places; a half goes to the even digit. -/
def fixed (places : Nat) (x : Float) : String :=
  textOf x fun m q =>
    let (num, den) := Binary64.fraction m q
    (toPlaces places num den).positional

/-- One digit before the point and a fixed number after it, then the exponent. -/
def withExponent (places : Nat) (x : Float) : String :=
  textOf x fun m q =>
    let (num, den) := Binary64.fraction m q
    if m = 0 then "0." ++ "".pushn '0' places ++ "e0"
    else
      let d := toSignificant (places + 1) num den
      let d := if digitCount d.coefficient = places + 1 then d
        else ⟨d.coefficient / 10, d.exponent + 1⟩
      scientific (fun e => "e" ++ toString e) d

/-- The exponent of the first digit of a number that is finite and not zero. -/
def magnitudeOf (x : Float) : Option Int :=
  match Binary64.ofFloat x with
  | .finite _ m q =>
    let (num, den) := Binary64.fraction m q
    if m = 0 then none else some (magnitude num den)
  | _ => none

/-- The number of significant digits with which every binary64 number is written exactly. -/
def enoughDigits : Nat := 767

/-- The exponent of the first digit after rounding to so many significant digits. -/
def magnitudeRounded (digits : Nat) (x : Float) : Option Int :=
  match Binary64.ofFloat x with
  | .finite _ m q =>
    let (num, den) := Binary64.fraction m q
    if m = 0 then none else some (toSignificant (min digits enoughDigits) num den).leading
  | _ => none

/-- The number of significant digits with which no more than `places` places are written, and no
more than `digits` digits. -/
def digitsWithin (digits places : Nat) (x : Float) : Int :=
  min (digits : Int) (places + (magnitudeOf x).getD 0 + 1)

/-- The number of significant digits for each of the numbers, where the largest has so many and the
others end at the same place. -/
def sharedDigits (digits : Nat) (xs : List Float) : List Int :=
  match xs.filterMap (magnitudeRounded digits) with
  | [] => xs.map fun _ => digits
  | e :: es =>
    let top := es.foldl max e
    xs.map fun x => digits - top + (magnitudeOf x).getD 0

/-- A measured value: so many significant digits without zeros at the end, positional with at
least one place from `10 ^ -5` to below `10 ^ 16`, else with a signed exponent. Without a digit
left it is zero, which has no sign. -/
def measured (digits : Int) (x : Float) : String :=
  textOf (if digits ≤ 0 then 0 else if x == 0 then 0 else x) fun m q =>
    if m = 0 then "0.0"
    else
      let (num, den) := Binary64.fraction m q
      let d := (toSignificant (min digits.toNat enoughDigits) num den).trimmed
      if -5 ≤ d.leading ∧ d.leading ≤ 15 then
        if 0 ≤ d.exponent then d.positional ++ ".0" else d.positional
      else scientific (fun e => if 0 ≤ e then "e+" ++ toString e else "e" ++ toString e) d

end SkyCamera.Decimal
