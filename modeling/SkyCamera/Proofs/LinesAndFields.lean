import SkyCamera.Text.Number
import SkyCamera.Text.Split

/-!
How a text falls into lines and a line into fields, and which fields are identifiers.
CatalogueLines reads star lists with these facts.
-/
namespace SkyCamera.Text

/-- The pieces are those of a split that are not empty, the begun one before the first. -/
theorem piecesFrom_eq (isSeparator : Char → Bool) (begun text : List Char) :
    piecesFrom isSeparator begun text =
      ((text.splitOnP isSeparator).modifyHead (begun.reverse ++ ·)).filter (· ≠ []) := by
  induction text generalizing begun with
  | nil => by_cases hbegun : begun = [] <;> simp [piecesFrom, List.splitOnP_nil, hbegun]
  | cons c rest ih =>
    rw [piecesFrom, List.splitOnP_cons_eq_if_modifyHead]
    by_cases hc : isSeparator c = true
    · have hrest : piecesFrom isSeparator [] rest =
          (rest.splitOnP isSeparator).filter (· ≠ []) := by
        rw [ih]
        cases rest.splitOnP isSeparator <;> rfl
      by_cases hbegun : begun = [] <;> simp [hc, hbegun, hrest]
    · rw [if_neg hc, if_neg hc, ih, List.modifyHead_modifyHead]
      refine congrArg (List.filter _) (congrArg (List.modifyHead · _) (funext fun piece => ?_))
      simp

/-- The pieces of a text are what stands between its separators, without the empty ones. -/
theorem pieces_eq (isSeparator : Char → Bool) (text : List Char) :
    pieces isSeparator text = (text.splitOnP isSeparator).filter (· ≠ []) := by
  rw [pieces, piecesFrom_eq]
  cases text.splitOnP isSeparator <;> rfl

theorem pieces_eq_nil {isSeparator : Char → Bool} {text : List Char}
    (h : ∀ c ∈ text, isSeparator c) : pieces isSeparator text = [] := by
  induction text with
  | nil => rfl
  | cons c rest ih =>
    obtain ⟨hc, hrest⟩ := List.forall_mem_cons.mp h
    exact (pieces_append_separator hc [] rest).trans (ih hrest)

/-- A run of separators divides a text as one separator does. -/
theorem pieces_append_run {isSeparator : Char → Bool} {run : List Char} (hrun : run ≠ [])
    (h : ∀ c ∈ run, isSeparator c) (x y : List Char) :
    pieces isSeparator (x ++ run ++ y) = pieces isSeparator x ++ pieces isSeparator y := by
  obtain ⟨c, rest, rfl⟩ := List.exists_cons_of_ne_nil hrun
  obtain ⟨hc, hrest⟩ := List.forall_mem_cons.mp h
  have hy : pieces isSeparator (rest ++ y) = pieces isSeparator y := by
    clear hrun h
    induction rest with
    | nil => rfl
    | cons d rest ih =>
      obtain ⟨hd, hrest'⟩ := List.forall_mem_cons.mp hrest
      exact (pieces_append_separator hd [] (rest ++ y)).trans (ih hrest')
  rw [List.append_assoc, List.cons_append, pieces_append_separator hc, hy]

/-- A carriage return before a line feed stays on the line that it ends, and moves no other. -/
theorem linesFrom_append_carriage (begun x y : List Char) :
    ∃ before line, linesFrom begun (x ++ '\n' :: y) = before ++ line :: lines y ∧
      linesFrom begun (x ++ '\r' :: '\n' :: y) = before ++ (line ++ ['\r']) :: lines y := by
  induction x generalizing begun with
  | nil => exact ⟨[], begun.reverse, by simp [linesFrom, lines]⟩
  | cons c x ih =>
    by_cases hc : c = '\n'
    · obtain ⟨before, line, hline, hreturn⟩ := ih []
      exact ⟨begun.reverse :: before, line, by simp [linesFrom, hc, hline],
        by simp [linesFrom, hc, hreturn]⟩
    · obtain ⟨before, line, hline, hreturn⟩ := ih (c :: begun)
      exact ⟨before, line, by simp [linesFrom, hc, hline], by simp [linesFrom, hc, hreturn]⟩

/-- A carriage return before a line feed stays at the end of its line. -/
theorem lines_append_carriage (x y : List Char) :
    ∃ before line, lines (x ++ '\n' :: y) = before ++ line :: lines y ∧
      lines (x ++ '\r' :: '\n' :: y) = before ++ (line ++ ['\r']) :: lines y :=
  linesFrom_append_carriage [] x y

/-- A last line feed adds no line, or an empty one. -/
theorem linesFrom_newline (begun x : List Char) :
    linesFrom begun (x ++ ['\n']) = linesFrom begun x ∨
      linesFrom begun (x ++ ['\n']) = linesFrom begun x ++ [[]] := by
  induction x generalizing begun with
  | nil => by_cases hbegun : begun = [] <;> simp [linesFrom, hbegun]
  | cons c x ih =>
    by_cases hc : c = '\n'
    · simpa [linesFrom, hc] using ih []
    · simpa [linesFrom, hc] using ih (c :: begun)

/-- A line feed at the end of a text ends the line before it, or an empty one. -/
theorem lines_newline (x : List Char) :
    lines (x ++ ['\n']) = lines x ∨ lines (x ++ ['\n']) = lines x ++ [[]] :=
  linesFrom_newline [] x

def digitsAfter (value : Nat) (digits : List Char) : Nat :=
  digits.foldl (fun value c => 10 * value + (c.toNat - '0'.toNat)) value

theorem le_digitsAfter (value : Nat) (digits : List Char) : value ≤ digitsAfter value digits := by
  induction digits generalizing value with
  | nil => exact Nat.le_refl value
  | cons c rest ih =>
    have hrest : 10 * value + (c.toNat - '0'.toNat) ≤ digitsAfter value (c :: rest) := ih _
    omega

/-- Digits are read where none is anything else and their value fits, also that of the first few. -/
theorem readDigits_eq_ok_iff {value n : Nat} {digits : List Char} (hvalue : value < Nat.pow 2 64) :
    readDigits value digits = .ok n ↔
      (∀ c ∈ digits, c.isDigit) ∧ digitsAfter value digits < Nat.pow 2 64 ∧
        n = digitsAfter value digits := by
  induction digits generalizing value with
  | nil =>
    constructor
    · intro h
      cases h
      exact ⟨fun c hc => absurd hc List.not_mem_nil, hvalue, rfl⟩
    · rintro ⟨-, -, rfl⟩
      rfl
  | cons c rest ih =>
    have hafter : digitsAfter value (c :: rest) =
        digitsAfter (10 * value + (c.toNat - '0'.toNat)) rest := rfl
    rw [readDigits, List.forall_mem_cons, hafter]
    by_cases hc : c.isDigit = true
    · rw [if_pos hc]
      by_cases hsize : 10 * value + (c.toNat - '0'.toNat) < Nat.pow 2 64
      · rw [if_pos hsize, ih hsize]
        simp only [hc, true_and]
      · have hle := le_digitsAfter (10 * value + (c.toNat - '0'.toNat)) rest
        rw [if_neg hsize]
        refine iff_of_false (fun h => nomatch h) fun ⟨_, hfits, _⟩ => hsize ?_
        omega
    · rw [if_neg hc]
      exact iff_of_false (fun h => nomatch h) fun ⟨⟨hdigit, _⟩, _⟩ => hc hdigit

/-- Digits after an optional plus sign, with a value that fits in 64 bits. -/
def IsUnsigned (field : List Char) (value : UInt64) : Prop :=
  ∃ digits, (field = digits ∨ field = '+' :: digits) ∧ digits ≠ [] ∧
    (∀ c ∈ digits, c.isDigit) ∧ digitsValue digits < Nat.pow 2 64 ∧
    value = UInt64.ofNat (digitsValue digits)

/-- Digits are read until the value leaves 64 bits. -/
theorem map_readDigits_eq_ok_iff {digits : List Char} {value : UInt64} :
    (readDigits 0 digits).map UInt64.ofNat = .ok value ↔
      (∀ c ∈ digits, c.isDigit) ∧ digitsValue digits < Nat.pow 2 64 ∧
        value = UInt64.ofNat (digitsValue digits) := by
  have hread (n : Nat) := @readDigits_eq_ok_iff 0 n digits (Nat.two_pow_pos 64)
  constructor
  · intro h
    cases hdigits : readDigits 0 digits with
    | error fault =>
      rw [hdigits] at h
      cases h
    | ok n =>
      rw [hdigits] at h
      cases h
      obtain ⟨hall, hfits, rfl⟩ := (hread n).mp hdigits
      exact ⟨hall, hfits, rfl⟩
  · rintro ⟨hall, hfits, rfl⟩
    rw [(hread _).mpr ⟨hall, hfits, rfl⟩]
    rfl

/-- An identifier is a number without a sign, or with a plus, that fits into 64 bits. -/
theorem readId_eq_ok_iff {field : List Char} {value : UInt64} :
    readId field = .ok value ↔ IsUnsigned field value := by
  have hplain (digits : List Char) :
      (if digits.isEmpty then .error .invalidDigit else (readDigits 0 digits).map UInt64.ofNat) =
          Except.ok value ↔
        digits ≠ [] ∧ (∀ c ∈ digits, c.isDigit) ∧ digitsValue digits < Nat.pow 2 64 ∧
          value = UInt64.ofNat (digitsValue digits) := by
    cases digits with
    | nil => exact iff_of_false (fun h => nomatch h) fun h => h.1 rfl
    | cons c rest => simpa using @map_readDigits_eq_ok_iff (c :: rest) value
  unfold readId
  dsimp only
  rw [hplain]
  constructor
  · intro h
    split at h
    next rest => exact ⟨rest, Or.inr rfl, h⟩
    next => exact ⟨field, Or.inl rfl, h⟩
  · rintro ⟨digits, rfl | rfl, hne, hdigits, hvalue⟩
    · split
      -- A plus sign is no digit.
      next rest => exact absurd (hdigits '+' List.mem_cons_self) (by decide)
      next => exact ⟨hne, hdigits, hvalue⟩
    · exact ⟨hne, hdigits, hvalue⟩

end SkyCamera.Text
