import SkyCamera.Catalogue.Line
import SkyCamera.Log

/-!
Star lists. Lines are counted from one, and a malformed line is skipped with a warning.
-/
namespace SkyCamera.Catalogue

structure Warning where
  line : Nat
  fault : LineFault

structure Contents where
  stars : List (Sky.Star Float)
  warnings : List Warning

/-- The stars and warnings of lines that are counted from `number`. -/
def readLines (number : Nat) : List (List Char) → Contents
  | [] => ⟨[], []⟩
  | line :: rest =>
    let after := readLines (number + 1) rest
    match readLine number line with
    | .ok none => after
    | .ok (some star) => { after with stars := star :: after.stars }
    | .error fault => { after with warnings := ⟨number, fault⟩ :: after.warnings }

def read (text : String) : Contents := readLines 1 (Text.lines text.toList)

def Contents.log (c : Contents) : List LogLine :=
  c.warnings.map fun w =>
    ⟨.warn, s!"Skipping reference star line {w.line}: " ++ w.fault.message⟩

/-- The list in a file, if its bytes are a text, with a line on how many stars it has. -/
def readBytes (name : String) (bytes : ByteArray) : Option (Contents × List LogLine) :=
  (String.fromUTF8? bytes).map fun text =>
    let contents := read text
    (contents, contents.log ++
      [⟨.info, s!"Loaded {contents.stars.length} reference stars from " ++ name⟩])

end SkyCamera.Catalogue
