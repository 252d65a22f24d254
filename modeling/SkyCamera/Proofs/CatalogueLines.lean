import SkyCamera.Catalogue.Reader
import SkyCamera.Proofs.LinesAndFields

/-!
A star list is read line by line: what a line gives depends on the fields before its comment and,
for a star without an identifier, on its number. So lists can be put together, and comments, the
choice of separators and carriage returns make no difference.
-/
namespace SkyCamera.Catalogue

open Text

def fields (line : List Char) : List (List Char) :=
  ((content line).splitOnP isSeparator).filter (· ≠ [])

def IsBlankLine (line : List Char) : Prop := ∀ c ∈ content line, isBlank c

def star? (number : Nat) (line : List Char) : Option (Sky.Star Float) :=
  match readLine number line with
  | .ok star => star
  | .error _ => none

def warning? (number : Nat) (line : List Char) : Option Warning :=
  match readLine number line with
  | .ok _ => none
  | .error fault => some ⟨number, fault⟩

/-- The star that fields describe in line `number`: three numbers after an identifier or without
one, the second of them a declination. -/
inductive Describes (number : Nat) : List (List Char) → Sky.Star Float → Prop
  | unnamed {ra dec magnitude : List Char} {x y z : Float} (hra : readNumber ra = some x)
      (hdec : readNumber dec = some y) (hmagnitude : readNumber magnitude = some z)
      (hrange : -90.0 ≤ y ∧ y ≤ 90.0) :
      Describes number [ra, dec, magnitude]
        (.ofDegrees (UInt64.ofNat number) (Scalar.modulo x 360.0) y z)
  | named {id ra dec magnitude : List Char} {i : UInt64} {x y z : Float} (hid : IsUnsigned id i)
      (hra : readNumber ra = some x) (hdec : readNumber dec = some y)
      (hmagnitude : readNumber magnitude = some z) (hrange : -90.0 ≤ y ∧ y ≤ 90.0) :
      Describes number [id, ra, dec, magnitude] (.ofDegrees i (Scalar.modulo x 360.0) y z)

/-- A star is read from three numbers with the declination between the poles; only that one is
checked. -/
theorem readStar_eq_ok_iff {id : UInt64} {ra dec magnitude : List Char} {star : Sky.Star Float} :
    readStar id ra dec magnitude = .ok star ↔
      ∃ x y z, readNumber ra = some x ∧ readNumber dec = some y ∧ readNumber magnitude = some z ∧
        (-90.0 ≤ y ∧ y ≤ 90.0) ∧ star = .ofDegrees id (Scalar.modulo x 360.0) y z := by
  unfold readStar readField
  cases readNumber ra with
  | none => simp [bind, Except.bind]
  | some x =>
    cases readNumber dec with
    | none => simp [bind, Except.bind]
    | some y =>
      cases readNumber magnitude with
      | none => simp [bind, Except.bind]
      | some z =>
        by_cases hrange : -90.0 ≤ y ∧ y ≤ 90.0
        · simp [bind, Except.bind, pure, Except.pure, hrange, eq_comm]
        · simp [bind, Except.bind, hrange]

theorem fields_eq (line : List Char) : fields line = pieces isSeparator (content line) :=
  (pieces_eq isSeparator (content line)).symm

theorem content_comment (comment : List Char) : content ('#' :: comment) = [] := rfl

theorem content_cons {c : Char} (h : c ≠ '#') (line : List Char) :
    content (c :: line) = c :: content line :=
  List.takeWhile_cons_of_pos (decide_eq_true h)

/-- Behind a comment nothing counts. -/
theorem content_append_of_mem {x : List Char} (h : '#' ∈ x) (y : List Char) :
    content (x ++ y) = content x := by
  induction x with
  | nil => exact absurd h List.not_mem_nil
  | cons c x ih =>
    by_cases hc : c = '#'
    · rw [hc, List.cons_append, content_comment, content_comment]
    · have hmem : '#' ∈ x := (List.mem_cons.mp h).resolve_left fun heq => hc heq.symm
      rw [List.cons_append, content_cons hc, content_cons hc, ih hmem]

theorem content_append_of_not_mem {x : List Char} (h : '#' ∉ x) (y : List Char) :
    content (x ++ y) = x ++ content y := by
  induction x with
  | nil => rfl
  | cons c x ih =>
    obtain ⟨hc, hx⟩ := not_or.mp fun hor => h (List.mem_cons.mpr hor)
    rw [List.cons_append, List.cons_append, content_cons fun heq => hc heq.symm, ih hx]

theorem content_append_comment (line comment : List Char) :
    content (line ++ '#' :: comment) = content line := by
  by_cases h : '#' ∈ line
  · exact content_append_of_mem h _
  · have hline := content_append_of_not_mem h []
    rw [content_append_of_not_mem h, content_comment]
    rw [List.append_nil] at hline
    exact hline.symm

theorem readLine_congr {number : Nat} {x y : List Char} (hblank : IsBlankLine x ↔ IsBlankLine y)
    (hfields : fields x = fields y) : readLine number x = readLine number y := by
  have hall : (content x).all isBlank = (content y).all isBlank :=
    Bool.eq_iff_iff.mpr (by rw [List.all_eq_true, List.all_eq_true]; exact hblank)
  rw [fields_eq, fields_eq] at hfields
  rw [readLine, readLine, hall, hfields]

/-- A comment does not count. -/
theorem readLine_append_comment (number : Nat) (line comment : List Char) :
    readLine number (line ++ '#' :: comment) = readLine number line := by
  rw [readLine, readLine, content_append_comment]

theorem isSeparator_of_isBlank {c : Char} (h : isBlank c) : isSeparator c :=
  decide_eq_true (Or.inr h)

theorem fields_eq_nil_of_isBlankLine {line : List Char} (h : IsBlankLine line) :
    fields line = [] := by
  rw [fields_eq]
  exact pieces_eq_nil fun c hc => isSeparator_of_isBlank (h c hc)

/-- The characters that divide fields do not open a comment. -/
theorem comment_not_mem_of_isSeparator {run : List Char} (h : ∀ c ∈ run, isSeparator c) :
    '#' ∉ run :=
  fun hmem => absurd (h '#' hmem) (by decide)

/-- Which run of separators divides fields does not matter. -/
theorem fields_append_run {run other : List Char} (hrun : run ≠ [] ∧ ∀ c ∈ run, isSeparator c)
    (hother : other ≠ [] ∧ ∀ c ∈ other, isSeparator c) (x y : List Char) :
    fields (x ++ run ++ y) = fields (x ++ other ++ y) := by
  rw [fields_eq, fields_eq]
  by_cases hx : '#' ∈ x
  · rw [List.append_assoc, List.append_assoc, content_append_of_mem hx, content_append_of_mem hx]
  · have hcut {run : List Char} (h : run ≠ [] ∧ ∀ c ∈ run, isSeparator c) :
        pieces isSeparator (content (x ++ run ++ y)) =
          pieces isSeparator x ++ pieces isSeparator (content y) := by
      have hmem : '#' ∉ x ++ run := fun hor =>
        (List.mem_append.mp hor).elim hx (comment_not_mem_of_isSeparator h.2)
      rw [content_append_of_not_mem hmem, pieces_append_run h.1 h.2]
    rw [hcut hrun, hcut hother]

/-- A line with a field is read alike with one run of separators or another. -/
theorem readLine_append_run (number : Nat) {run other : List Char}
    (hrun : run ≠ [] ∧ ∀ c ∈ run, isSeparator c) (hother : other ≠ [] ∧ ∀ c ∈ other, isSeparator c)
    (x y : List Char) (h : fields (x ++ run ++ y) ≠ []) :
    readLine number (x ++ other ++ y) = readLine number (x ++ run ++ y) := by
  have heq := fields_append_run hrun hother x y
  refine readLine_congr (iff_of_false (fun hblank => h ?_) fun hblank => h ?_) heq.symm
  · rw [heq]
    exact fields_eq_nil_of_isBlankLine hblank
  · exact fields_eq_nil_of_isBlankLine hblank

/-- A carriage return at the end of a line does not count. -/
theorem readLine_append_carriage (number : Nat) (line : List Char) :
    readLine number (line ++ ['\r']) = readLine number line := by
  by_cases h : '#' ∈ line
  · rw [readLine, readLine, content_append_of_mem h]
  · have hline : content line = line := by
      simpa [content] using content_append_of_not_mem h []
    have hreturn : content (line ++ ['\r']) = line ++ ['\r'] := content_append_of_not_mem h ['\r']
    refine readLine_congr ?_ ?_
    · rw [IsBlankLine, IsBlankLine, hline, hreturn, List.forall_mem_append]
      exact and_iff_left (List.all_eq_true.mp rfl)
    · have hrun : ∀ c ∈ ['\r'], isSeparator c := List.all_eq_true.mp rfl
      have hpieces := pieces_append_run (List.cons_ne_nil _ _) hrun line []
      rw [List.append_nil] at hpieces
      rw [fields_eq, fields_eq, hline, hreturn, hpieces]
      exact List.append_nil _

def numbered (text : String) : List (List Char × Nat) := (lines text.toList).zipIdx 1

/-- A catalogue is read line by line: each line gives a star, a warning or nothing, whatever the
others are. -/
theorem readLines_eq (number : Nat) (ls : List (List Char)) :
    readLines number ls =
      ⟨(ls.zipIdx number).filterMap fun p => star? p.2 p.1,
        (ls.zipIdx number).filterMap fun p => warning? p.2 p.1⟩ := by
  induction ls generalizing number with
  | nil => rfl
  | cons line rest ih =>
    rw [readLines, ih, List.zipIdx_cons, List.filterMap_cons, List.filterMap_cons]
    cases h : readLine number line with
    | error fault => simp [star?, warning?, h]
    | ok result => cases result <;> simp [star?, warning?, h]

/-- A list is read line by line. -/
theorem read_eq (text : String) :
    read text = ⟨(numbered text).filterMap fun p => star? p.2 p.1,
      (numbered text).filterMap fun p => warning? p.2 p.1⟩ :=
  readLines_eq 1 (lines text.toList)

theorem readLine_of_isBlankLine (number : Nat) {line : List Char} (h : IsBlankLine line) :
    readLine number line = .ok none :=
  if_pos (List.all_eq_true.mpr h)

/-- A line of three fields is numbered by its place, one of four names its star, and any other count
is refused. -/
theorem readLine_of_not_isBlankLine (number : Nat) {line : List Char} (h : ¬ IsBlankLine line) :
    readLine number line =
      match fields line with
      | [ra, dec, magnitude] => some <$> readStar (UInt64.ofNat number) ra dec magnitude
      | [id, ra, dec, magnitude] => do
        let id ← (readId id).mapError (.badId id)
        some <$> readStar id ra dec magnitude
      | fields => .error (.fieldCount fields.length) := by
  rw [fields_eq]
  exact if_neg fun hall => h (List.all_eq_true.mp hall)

theorem map_some_eq_ok_iff {result : Except LineFault (Sky.Star Float)}
    {star? : Option (Sky.Star Float)} :
    some <$> result = .ok star? ↔ ∃ star, result = .ok star ∧ star? = some star := by
  cases result <;> simp [Functor.map, Except.map, eq_comm]

theorem describes_unnamed_iff {number : Nat} {ra dec magnitude : List Char}
    {star : Sky.Star Float} :
    Describes number [ra, dec, magnitude] star ↔
      readStar (UInt64.ofNat number) ra dec magnitude = .ok star := by
  rw [readStar_eq_ok_iff]
  constructor
  · rintro ⟨hra, hdec, hmagnitude, hrange⟩
    exact ⟨_, _, _, hra, hdec, hmagnitude, hrange, rfl⟩
  · rintro ⟨x, y, z, hra, hdec, hmagnitude, hrange, rfl⟩
    exact .unnamed hra hdec hmagnitude hrange

theorem describes_named_iff {number : Nat} {id ra dec magnitude : List Char}
    {star : Sky.Star Float} :
    Describes number [id, ra, dec, magnitude] star ↔
      ∃ i, readId id = .ok i ∧ readStar i ra dec magnitude = .ok star := by
  simp only [readStar_eq_ok_iff, readId_eq_ok_iff]
  constructor
  · intro h
    cases h with
    | named hid hra hdec hmagnitude hrange =>
      exact ⟨_, hid, _, _, _, hra, hdec, hmagnitude, hrange, rfl⟩
  · rintro ⟨i, hid, x, y, z, hra, hdec, hmagnitude, hrange, rfl⟩
    exact .named hid hra hdec hmagnitude hrange

/-- What a line with content gives is a star or an error. -/
theorem readLine_eq_ok_iff {number : Nat} {line : List Char} (h : ¬ IsBlankLine line)
    {result : Option (Sky.Star Float)} :
    readLine number line = .ok result ↔
      ∃ star, Describes number (fields line) star ∧ result = some star := by
  rw [readLine_of_not_isBlankLine number h]
  split
  next ra dec magnitude heq =>
    simp only [heq, map_some_eq_ok_iff, describes_unnamed_iff]
  next id ra dec magnitude heq =>
    simp only [heq, describes_named_iff]
    cases hid : readId id with
    | error fault =>
      refine iff_of_false (fun h => nomatch h) ?_
      rintro ⟨star, ⟨i, hi, -⟩, -⟩
      exact nomatch hi
    | ok i =>
      refine map_some_eq_ok_iff.trans (exists_congr fun star => and_congr_left' ?_)
      exact ⟨fun h => ⟨i, rfl, h⟩, fun ⟨j, hj, h⟩ => Except.ok.inj hj ▸ h⟩
  next hthree hfour =>
    refine iff_of_false (fun h => nomatch h) ?_
    rintro ⟨star, hstar, -⟩
    generalize fields line = fs at *
    cases hstar with
    | unnamed => exact hthree _ _ _ rfl
    | named => exact hfour _ _ _ _ rfl

theorem star?_eq_some_iff_readLine {number : Nat} {line : List Char} {star : Sky.Star Float} :
    star? number line = some star ↔ readLine number line = .ok (some star) := by
  unfold star?
  cases readLine number line <;> simp

/-- A line gives a star where its fields describe one. -/
theorem star?_eq_some_iff {number : Nat} {line : List Char} {star : Sky.Star Float} :
    star? number line = some star ↔ Describes number (fields line) star := by
  rw [star?_eq_some_iff_readLine]
  by_cases h : IsBlankLine line
  · rw [readLine_of_isBlankLine number h, fields_eq_nil_of_isBlankLine h]
    exact iff_of_false (fun h => nomatch h) fun h => nomatch h
  · rw [readLine_eq_ok_iff h]
    simp

/-- A line is blank and gives nothing, or it gives one star, or one warning with its number. -/
inductive Outcome (number : Nat) (line : List Char) : Prop
  | blank (hline : IsBlankLine line) (hstar : star? number line = none)
      (hwarning : warning? number line = none)
  | star (hline : ¬ IsBlankLine line) (star : Sky.Star Float)
      (hstar : star? number line = some star) (hwarning : warning? number line = none)
  | warning (hline : ¬ IsBlankLine line) (fault : LineFault) (hstar : star? number line = none)
      (hwarning : warning? number line = some ⟨number, fault⟩)

/-- A line is blank, or it gives a star or a warning, and never both. -/
theorem outcome (number : Nat) (line : List Char) : Outcome number line := by
  by_cases h : IsBlankLine line
  · have hread := readLine_of_isBlankLine number h
    exact .blank h (by rw [star?, hread]) (by rw [warning?, hread])
  · cases hread : readLine number line with
    | error fault => exact .warning h fault (by rw [star?, hread]) (by rw [warning?, hread])
    | ok result =>
      obtain ⟨star, -, rfl⟩ := (readLine_eq_ok_iff h).mp hread
      exact .star h star (by rw [star?, hread]) (by rw [warning?, hread])

/-- A star with its identifier raised where that is the number of its line. -/
def raised (k : Nat) (line : List Char) (star : Sky.Star Float) : Sky.Star Float :=
  if (fields line).length = 3 then { star with id := star.id + UInt64.ofNat k } else star

def Warning.raised (k : Nat) (w : Warning) : Warning := { w with line := w.line + k }

theorem readStar_add (id : UInt64) (k : Nat) (ra dec magnitude : List Char) :
    readStar (id + UInt64.ofNat k) ra dec magnitude =
      (readStar id ra dec magnitude).map fun star =>
        { star with id := star.id + UInt64.ofNat k } := by
  unfold readStar
  cases readField ra with
  | error => rfl
  | ok x =>
    cases readField dec with
    | error => rfl
    | ok y =>
      cases readField magnitude with
      | error => rfl
      | ok z =>
        by_cases hrange : -90.0 ≤ y ∧ y ≤ 90.0
        · simp [bind, Except.bind, pure, Except.pure, Except.map, Sky.Star.ofDegrees, hrange]
        · simp [bind, Except.bind, throw, throwThe, MonadExceptOf.throw, Except.map, hrange]

/-- What a line gives does not depend on its number, but for the identifier. -/
theorem readLine_add (number k : Nat) (line : List Char) :
    readLine (number + k) line = (readLine number line).map (Option.map (raised k line)) := by
  by_cases h : IsBlankLine line
  · rw [readLine_of_isBlankLine _ h, readLine_of_isBlankLine _ h]
    rfl
  · rw [readLine_of_not_isBlankLine _ h, readLine_of_not_isBlankLine _ h]
    unfold raised
    split
    next ra dec magnitude heq =>
      rw [heq, UInt64.ofNat_add, readStar_add]
      cases readStar (UInt64.ofNat number) ra dec magnitude <;> rfl
    next id ra dec magnitude heq =>
      rw [heq]
      cases readId id with
      | error => rfl
      | ok i =>
        dsimp only [Except.mapError, bind, Except.bind]
        cases readStar i ra dec magnitude <;> rfl
    next => rfl

theorem star?_add (number k : Nat) (line : List Char) :
    star? (number + k) line = (star? number line).map (raised k line) := by
  rw [star?, star?, readLine_add]
  cases readLine number line <;> rfl

theorem warning?_add (number k : Nat) (line : List Char) :
    warning? (number + k) line = (warning? number line).map (Warning.raised k) := by
  rw [warning?, warning?, readLine_add]
  cases readLine number line <;> rfl

theorem star?_nil (number : Nat) : star? number [] = none := rfl

theorem warning?_nil (number : Nat) : warning? number [] = none := rfl

/-- A line feed at the end adds no star and no warning. -/
theorem readLines_newline (number : Nat) (x : List Char) :
    readLines number (lines (x ++ ['\n'])) = readLines number (lines x) := by
  rcases lines_newline x with h | h
  · rw [h]
  · rw [h, readLines_eq, readLines_eq]
    simp [List.zipIdx_append, star?_nil, warning?_nil]

theorem readLines_congr {x y : List Char} (h : ∀ number, readLine number x = readLine number y)
    (number : Nat) (before rest : List (List Char)) :
    readLines number (before ++ x :: rest) = readLines number (before ++ y :: rest) := by
  induction before generalizing number with
  | nil => rw [List.nil_append, List.nil_append, readLines, readLines, h]
  | cons line before ih => rw [List.cons_append, List.cons_append, readLines, readLines, ih]

/-- Carriage returns at the ends of lines do not count. -/
theorem read_carriage (a b : String) : read (a ++ "\r\n" ++ b) = read (a ++ "\n" ++ b) := by
  obtain ⟨before, line, hline, hreturn⟩ := lines_append_carriage a.toList b.toList
  have ha : (a ++ "\n" ++ b).toList = a.toList ++ '\n' :: b.toList := by simp
  have hb : (a ++ "\r\n" ++ b).toList = a.toList ++ '\r' :: '\n' :: b.toList := by simp
  rw [read, read, ha, hb, hline, hreturn]
  exact readLines_congr (fun number => readLine_append_carriage number line) 1 before _

def lineCount (text : String) : Nat := (lines text.toList).length

/-- The lines of two joined texts are those of the first, and those of the second moved on by the
count of the first. -/
theorem numbered_append (a b : String) :
    numbered (a ++ "\n" ++ b) =
      numbered (a ++ "\n") ++
        (numbered b).map fun p => (p.1, p.2 + lineCount (a ++ "\n")) := by
  have ha : (a ++ "\n" ++ b).toList = a.toList ++ '\n' :: b.toList := by simp
  have hb : (a ++ "\n").toList = a.toList ++ ['\n'] := by simp
  rw [numbered, ha, lines_append_newline, List.zipIdx_append, numbered, numbered, lineCount, hb]
  refine congrArg (_ ++ ·) ?_
  rw [Nat.add_comm, ← List.map_snd_add_zipIdx_eq_zipIdx]
  rfl

theorem read_newline (a : String) : read (a ++ "\n") = read a := by
  have ha : (a ++ "\n").toList = a.toList ++ ['\n'] := by simp
  rw [read, ha, readLines_newline]
  rfl

/-- One list after another. -/
theorem read_append (a b : String) :
    read (a ++ "\n" ++ b) =
      ⟨(read a).stars ++ (numbered b).filterMap fun p =>
          (star? p.2 p.1).map (raised (lineCount (a ++ "\n")) p.1),
        (read a).warnings ++ (read b).warnings.map (Warning.raised (lineCount (a ++ "\n")))⟩ := by
  rw [← read_newline a, read_eq (a ++ "\n" ++ b), read_eq (a ++ "\n"), read_eq b, numbered_append]
  simp only [List.filterMap_append, List.filterMap_map, Function.comp_def, star?_add, warning?_add,
    List.map_filterMap]

/-- Every list is read line by line. A line gives nothing, one star or one warning, and it gives a
star where its fields describe one. Of two lists with a line feed between them the second is read
as alone, with its lines counted on. Neither comments nor the choice of separators nor carriage
returns at the ends of lines make a difference. -/
theorem read_line_by_line :
    (∀ text, read text = ⟨(numbered text).filterMap fun p => star? p.2 p.1,
      (numbered text).filterMap fun p => warning? p.2 p.1⟩) ∧
    (∀ number line, Outcome number line) ∧
    (∀ number line star, star? number line = some star ↔ Describes number (fields line) star) ∧
    (∀ a b : String, read (a ++ "\n" ++ b) =
      ⟨(read a).stars ++ (numbered b).filterMap fun p =>
          (star? p.2 p.1).map (raised (lineCount (a ++ "\n")) p.1),
        (read a).warnings ++ (read b).warnings.map (Warning.raised (lineCount (a ++ "\n")))⟩) ∧
    (∀ number line comment, readLine number (line ++ '#' :: comment) = readLine number line) ∧
    (∀ number run other x y, (run ≠ [] ∧ ∀ c ∈ run, isSeparator c) →
      (other ≠ [] ∧ ∀ c ∈ other, isSeparator c) → fields (x ++ run ++ y) ≠ [] →
        readLine number (x ++ other ++ y) = readLine number (x ++ run ++ y)) ∧
    ∀ a b : String, read (a ++ "\r\n" ++ b) = read (a ++ "\n" ++ b) :=
  ⟨read_eq, outcome, fun _ _ _ => star?_eq_some_iff, read_append, readLine_append_comment,
    fun number _ _ x y hrun hother => readLine_append_run number hrun hother x y, read_carriage⟩

/-- Numbers between blanks, and the same between a comma, blanks and a tabulator. -/
theorem read_line_by_line_separators :
    fields ['1', ' ', '2', ' ', '3'] = [['1'], ['2'], ['3']] ∧
      readLine 1 ['1', ',', '\t', ' ', '2', ' ', '3'] = readLine 1 ['1', ' ', '2', ' ', '3'] := by
  have hfields : fields ['1', ' ', '2', ' ', '3'] = [['1'], ['2'], ['3']] := by decide
  obtain ⟨-, -, -, -, -, hseparators, -⟩ := read_line_by_line
  exact ⟨hfields, hseparators 1 [' '] [',', '\t', ' '] ['1'] ['2', ' ', '3']
    ⟨List.cons_ne_nil _ _, List.all_eq_true.mp rfl⟩ ⟨List.cons_ne_nil _ _, List.all_eq_true.mp rfl⟩
    (hfields ▸ List.cons_ne_nil _ _)⟩

end SkyCamera.Catalogue
