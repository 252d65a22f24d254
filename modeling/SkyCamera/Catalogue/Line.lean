import SkyCamera.Decimal.Text
import SkyCamera.Sky.Star
import SkyCamera.Text.Number
import SkyCamera.Text.Quoted
import SkyCamera.Text.Split

/-!
Lines of a star list: right ascension, declination and magnitude, with an identifier before them
or without one, between commas and white space. Everything from a `#` on is a comment.
-/
namespace SkyCamera.Catalogue

inductive LineFault
  | fieldCount (found : Nat)
  | badId (field : List Char) (fault : Text.IdFault)
  | badNumber (field : List Char)
  | badDeclination (degrees : Float)

def isSeparator (c : Char) : Bool := c = ',' ∨ Text.isBlank c

/-- The part of a line before its comment. -/
def content (line : List Char) : List Char := line.takeWhile (· ≠ '#')

def readField (field : List Char) : Except LineFault Float :=
  match Text.readNumber field with
  | some x => .ok x
  | none => .error (.badNumber field)

/-- A star from its identifier and three fields; the right ascension is brought into one turn. -/
def readStar (id : UInt64) (ra dec magnitude : List Char) : Except LineFault (Sky.Star Float) := do
  let ra ← readField ra
  let dec ← readField dec
  let magnitude ← readField magnitude
  if -90.0 ≤ dec ∧ dec ≤ 90.0 then
    return .ofDegrees id (Scalar.modulo ra 360.0) dec magnitude
  else throw (.badDeclination dec)

/-- The star of line `number`, which is also its identifier if it has no other, or nothing for a
line without content. -/
def readLine (number : Nat) (line : List Char) : Except LineFault (Option (Sky.Star Float)) :=
  if (content line).all Text.isBlank then .ok none
  else
    match Text.pieces isSeparator (content line) with
    | [ra, dec, magnitude] => some <$> readStar (UInt64.ofNat number) ra dec magnitude
    | [id, ra, dec, magnitude] => do
      let id ← (Text.readId id).mapError (.badId id)
      some <$> readStar id ra dec magnitude
    | fields => .error (.fieldCount fields.length)

def LineFault.message : LineFault → String
  | fieldCount found => s!"expected 3 or 4 fields, found {found}"
  | badId field .invalidDigit =>
    "invalid id " ++ Text.quoted field ++ ": invalid digit found in string"
  | badId field .tooLarge =>
    "invalid id " ++ Text.quoted field ++ ": number too large to fit in target type"
  | badNumber field => "invalid number " ++ Text.quoted field ++ ": invalid float literal"
  | badDeclination x => "declination " ++ Decimal.plain x ++ " outside [-90, 90]"

end SkyCamera.Catalogue
