/-!
Texts cut into lines and lines into fields.
-/
namespace SkyCamera.Text

/-- White space of any script. -/
def isBlank (c : Char) : Bool :=
  let n := c.toNat
  (9 ≤ n ∧ n ≤ 13) ∨ n = 32 ∨ n = 0x85 ∨ n = 0xa0 ∨ n = 0x1680 ∨ (0x2000 ≤ n ∧ n ≤ 0x200a) ∨
    n = 0x2028 ∨ n = 0x2029 ∨ n = 0x202f ∨ n = 0x205f ∨ n = 0x3000

/-- The lines of a text; `begun` is the line before the text, in reverse. Nothing after the last
line feed is no line. A carriage return stays at the end of its line, where it is white space. -/
def linesFrom (begun : List Char) : List Char → List (List Char)
  | [] => if begun.isEmpty then [] else [begun.reverse]
  | c :: rest =>
    if c = '\n' then begun.reverse :: linesFrom [] rest else linesFrom (c :: begun) rest

def lines (text : List Char) : List (List Char) := linesFrom [] text

theorem linesFrom_append_newline (begun x y : List Char) :
    linesFrom begun (x ++ '\n' :: y) = linesFrom begun (x ++ ['\n']) ++ lines y := by
  induction x generalizing begun with
  | nil => simp [linesFrom, lines]
  | cons c x ih => by_cases h : c = '\n' <;> simp [linesFrom, h, ih]

/-- A text can be cut behind any line feed. -/
theorem lines_append_newline (x y : List Char) :
    lines (x ++ '\n' :: y) = lines (x ++ ['\n']) ++ lines y :=
  linesFrom_append_newline [] x y

/-- The pieces between separators that are not empty; `begun` is the piece before, in reverse. -/
def piecesFrom (isSeparator : Char → Bool) (begun : List Char) : List Char → List (List Char)
  | [] => if begun.isEmpty then [] else [begun.reverse]
  | c :: rest =>
    if isSeparator c then
      if begun.isEmpty then piecesFrom isSeparator [] rest
      else begun.reverse :: piecesFrom isSeparator [] rest
    else piecesFrom isSeparator (c :: begun) rest

def pieces (isSeparator : Char → Bool) (text : List Char) : List (List Char) :=
  piecesFrom isSeparator [] text

theorem piecesFrom_append_separator {isSeparator : Char → Bool} {c : Char} (h : isSeparator c)
    (begun x y : List Char) :
    piecesFrom isSeparator begun (x ++ c :: y) =
      piecesFrom isSeparator begun x ++ pieces isSeparator y := by
  induction x generalizing begun with
  | nil => by_cases hb : begun = [] <;> simp [piecesFrom, pieces, h, hb]
  | cons d x ih =>
    by_cases hd : isSeparator d = true
    · by_cases hb : begun = [] <;> simp [piecesFrom, hd, hb, ih]
    · simp [piecesFrom, hd, ih]

/-- A text can be cut at any separator. -/
theorem pieces_append_separator {isSeparator : Char → Bool} {c : Char} (h : isSeparator c)
    (x y : List Char) :
    pieces isSeparator (x ++ c :: y) = pieces isSeparator x ++ pieces isSeparator y :=
  piecesFrom_append_separator h [] x y

end SkyCamera.Text
