import Collapsing.Text.Basic

/-!
# Tokens of term texts

A term text is a sequence of tokens, with spaces, tabs, form feeds, carriage returns and line
feeds between them.  A token is one character, apart from numbers, which are runs of ASCII
digits as long as possible.

`scan` cuts a text into its lexemes: tokens together with their spelling and the column where
they start.  Columns count code points from 1 and start again after each line feed.  The scan
stops at the first character that begins no token.

## Main statements

- `scan_nil`, `scan_digit`, `scan_skipped`, `scan_token`, `scan_stray`: the five steps of a scan.
-/

namespace Collapsing.Reader

/-! ## §1 Tokens -/

/-- The tokens of a term text. -/
inductive Token where
  /-- The head `亞` of a principal term. -/
  | head
  /-- The constant `ω`. -/
  | omega
  /-- The constant `Ω`. -/
  | bigOmega
  /-- A decimal number. -/
  | number (value : Nat)
  | openParen
  | closeParen
  | openBrace
  | closeBrace
  | comma
  | underscore
  | plus
  deriving DecidableEq, Repr

/-- The token that a single character stands for.  The letters `A`, `w` and `W` may be typed
for `亞`, `ω` and `Ω`. -/
def Token.ofChar? : Char → Option Token
  | '亞' | 'A' => some .head
  | 'ω' | 'w' => some .omega
  | 'Ω' | 'W' => some .bigOmega
  | '(' => some .openParen
  | ')' => some .closeParen
  | '\x7b' => some .openBrace
  | '\x7d' => some .closeBrace
  | ',' => some .comma
  | '_' => some .underscore
  | '+' => some .plus
  | _ => none

/-- Whether a character may stand between tokens. -/
def isSkipped (c : Char) : Bool :=
  c = ' ' || c = '\t' || c = '\x0c' || c = '\r' || c = '\n'

/-- The number that a run of digits denotes. -/
def numberOf (digits : Text) : Nat := Nat.ofDigitChars 10 digits 0

/-! ## §2 Lexemes -/

/-- A token where it stands: what it is, how it is spelt, and the column of its first
character. -/
structure Lexeme where
  token : Token
  spelling : Text
  column : Nat
  deriving DecidableEq, Repr

/-- What a scan finds: the lexemes up to the first character that begins no token, and that
character with its column, if there is one. -/
structure Scan where
  lexemes : List Lexeme
  stray : Option (Char × Nat)
  deriving DecidableEq, Repr

/-- The scan of a text that has one more lexeme in front. -/
def Scan.push (lexeme : Lexeme) (scan : Scan) : Scan :=
  { scan with lexemes := lexeme :: scan.lexemes }

/-- The column after a skipped character. -/
def columnAfter (column : Nat) (c : Char) : Nat := if c = '\n' then 1 else column + 1

/-- The lexemes of a text whose first character stands at the given column. -/
def scan (column : Nat) : Text → Scan
  | [] => ⟨[], none⟩
  | c :: rest =>
    if c.isDigit then
      -- A number takes all the digits that follow.
      let digits := c :: rest.takeWhile Char.isDigit
      (scan (column + digits.length) (rest.dropWhile Char.isDigit)).push
        ⟨.number (numberOf digits), digits, column⟩
    else if isSkipped c then scan (columnAfter column c) rest
    else
      match Token.ofChar? c with
      | some token => (scan (column + 1) rest).push ⟨token, [c], column⟩
      | none => ⟨[], some (c, column)⟩
termination_by text => text.length
decreasing_by
  · have := (List.dropWhile_sublist (l := rest) Char.isDigit).length_le
    simp only [List.length_cons]
    omega
  · simp
  · simp

/-! ## §3 The steps of a scan -/

@[simp] theorem scan_nil (column : Nat) : scan column [] = ⟨[], none⟩ := by
  rw [scan]

theorem scan_digit (column : Nat) {c : Char} (rest : Text) (h : c.isDigit = true) :
    scan column (c :: rest) =
      (scan (column + (c :: rest.takeWhile Char.isDigit).length)
        (rest.dropWhile Char.isDigit)).push
        ⟨.number (numberOf (c :: rest.takeWhile Char.isDigit)),
          c :: rest.takeWhile Char.isDigit, column⟩ := by
  rw [scan, if_pos h]

theorem isDigit_of_isSkipped {c : Char} (h : isSkipped c = true) : c.isDigit = false := by
  simp only [isSkipped, Bool.or_eq_true, decide_eq_true_eq] at h
  rcases h with (((rfl | rfl) | rfl) | rfl) | rfl <;> rfl

theorem scan_skipped (column : Nat) {c : Char} (rest : Text) (h : isSkipped c = true) :
    scan column (c :: rest) = scan (columnAfter column c) rest := by
  rw [scan, if_neg (by simp [isDigit_of_isSkipped h]), if_pos h]

theorem scan_token (column : Nat) {c : Char} {token : Token} (rest : Text)
    (h : Token.ofChar? c = some token) (digit : c.isDigit = false)
    (skipped : isSkipped c = false) :
    scan column (c :: rest) = (scan (column + 1) rest).push ⟨token, [c], column⟩ := by
  rw [scan, if_neg (by simp [digit]), if_neg (by simp [skipped]), h]

theorem scan_stray (column : Nat) {c : Char} (rest : Text) (h : Token.ofChar? c = none)
    (digit : c.isDigit = false) (skipped : isSkipped c = false) :
    scan column (c :: rest) = ⟨[], some (c, column)⟩ := by
  rw [scan, if_neg (by simp [digit]), if_neg (by simp [skipped]), h]

end Collapsing.Reader
