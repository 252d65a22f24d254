import SkyCamera.Binary64

/-!
Numbers as they are written in a star list: identifiers of 64 bits, and decimal numbers with an
optional point and exponent, which are read as the nearest binary64 number.
-/
namespace SkyCamera.Text

inductive IdFault
  | invalidDigit
  | tooLarge
  deriving DecidableEq

/-- The value of decimal digits that follow the digits of `value`. -/
def readDigits : (value : Nat) → List Char → Except IdFault Nat
  | value, [] => .ok value
  | value, c :: rest =>
    if c.isDigit then
      let value := 10 * value + (c.toNat - '0'.toNat)
      if value < Nat.pow 2 64 then readDigits value rest else .error .tooLarge
    else .error .invalidDigit

/-- Digits after an optional plus sign. What is wrong first is reported. -/
def readId (text : List Char) : Except IdFault UInt64 :=
  let digits :=
    match text with
    | '+' :: rest => rest
    | text => text
  if digits.isEmpty then .error .invalidDigit else (readDigits 0 digits).map UInt64.ofNat

/-- The value of a run of digits. -/
def digitsValue (digits : List Char) : Nat :=
  digits.foldl (fun value c => 10 * value + (c.toNat - '0'.toNat)) 0

/-- A sign that may be missing: whether it is a minus, and what follows. -/
def readSign : List Char → Bool × List Char
  | '+' :: rest => (false, rest)
  | '-' :: rest => (true, rest)
  | text => (false, text)

/-- The exponent after a mantissa: none, or a mark with an integer. -/
def readExponent : List Char → Option Int
  | [] => some 0
  | c :: rest =>
    let (negative, digits) := readSign rest
    if (c = 'e' ∨ c = 'E') ∧ ¬ digits.isEmpty ∧ digits.all Char.isDigit then
      let value : Int := digitsValue digits
      some (if negative then -value else value)
    else none

/-- The binary64 number nearest to `digits * 10 ^ exponent`. Beyond `10 ^ 400` there is only
infinity, and below `10 ^ -400` only zero. -/
def nearest (digits : List Char) (exponent : Int) : Float :=
  let value := digitsValue digits
  let size := exponent + (digits.dropWhile (· = '0')).length
  if value = 0 ∨ size < -400 then 0.0
  else if 400 < size then 1.0 / 0.0
  else if 0 ≤ exponent then Float.ofScientific (value * Nat.pow 10 exponent.toNat) false 0
  else Float.ofScientific value true (-exponent).toNat

/-- A number without its sign. -/
def readUnsigned (text : List Char) : Option Float :=
  let name := String.ofList (text.map Char.toLower)
  if name = "inf" ∨ name = "infinity" then some (1.0 / 0.0)
  else if name = "nan" then some (0.0 / 0.0)
  else
    let whole := text.takeWhile Char.isDigit
    let (places, rest) :=
      match text.dropWhile Char.isDigit with
      | '.' :: rest => (rest.takeWhile Char.isDigit, rest.dropWhile Char.isDigit)
      | rest => ([], rest)
    if whole.isEmpty ∧ places.isEmpty then none
    else (readExponent rest).map fun e => nearest (whole ++ places) (e - places.length)

def readNumber (text : List Char) : Option Float :=
  let (negative, rest) := readSign text
  (readUnsigned rest).map fun x => if negative then -x else x

end SkyCamera.Text
