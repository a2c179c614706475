import Collapsing.Reader.Token
import Collapsing.Text.Blank

/-!
# Splitting a text into tokens

`Splits text tokens` says how a text may be cut, without a scan: a character that stands for a
token is that token, a run of digits that no further digit follows is a number, and the five
skipped characters may stand between tokens.  The scan finds exactly this cut.

## Main statements

- `ofChar?_eq_some_iff`: the characters that stand for each token;
- `splits_iff`: a scan that meets no stray character finds the tokens of the text, and only then
  has the text tokens;
- `Splits.eq_nil_of_blank`: a blank text has no tokens.
-/

namespace Collapsing.Reader

/-! ## §1 Letters -/

/-- The characters that stand for a token; a number has a spelling of its own. -/
def Token.letters : Token → Text
  | .head => ['亞', 'A']
  | .omega => ['ω', 'w']
  | .bigOmega => ['Ω', 'W']
  | .number _ => []
  | .openParen => ['(']
  | .closeParen => [')']
  | .openBrace => ['\x7b']
  | .closeBrace => ['\x7d']
  | .comma => [',']
  | .underscore => ['_']
  | .plus => ['+']

/-- All the characters that stand for a token. -/
def letters : Text :=
  ['亞', 'A', 'ω', 'w', 'Ω', 'W', '(', ')', '\x7b', '\x7d', ',', '_', '+']

theorem mem_letters {c : Char} {token : Token} (h : c ∈ token.letters) : c ∈ letters := by
  have sublist : token.letters ⊆ letters := by
    cases token <;> simp [Token.letters, letters]
  exact sublist h

theorem ofChar?_eq_some_iff (c : Char) (token : Token) :
    Token.ofChar? c = some token ↔ c ∈ token.letters := by
  constructor
  · intro h
    unfold Token.ofChar? at h
    split at h <;> cases h <;> decide
  · intro h
    cases token <;> simp only [Token.letters, List.mem_cons, List.not_mem_nil, or_false] at h
    case head | omega | bigOmega => rcases h with rfl | rfl <;> rfl
    all_goals
      cases h
      rfl

theorem eq_false_of_letter {p : Char → Bool} (none : letters.any p = false) {c : Char}
    {token : Token} (h : c ∈ token.letters) : p c = false := by
  apply eq_false_of_ne_true
  exact List.any_eq_false.1 none c (mem_letters h)

theorem letter_isDigit {c : Char} {token : Token} (h : c ∈ token.letters) : c.isDigit = false :=
  eq_false_of_letter (by decide) h

theorem letter_isSkipped {c : Char} {token : Token} (h : c ∈ token.letters) :
    isSkipped c = false :=
  eq_false_of_letter (by decide) h

/-! ## §2 The cut of a text -/

/-- How a text is cut into tokens. -/
inductive Splits : Text → List Token → Prop where
  | nil : Splits [] []
  | skipped {c rest tokens} (h : isSkipped c = true) (split : Splits rest tokens) :
      Splits (c :: rest) tokens
  | letter {c token rest tokens} (h : c ∈ token.letters) (split : Splits rest tokens) :
      Splits (c :: rest) (token :: tokens)
  | number {digits rest tokens} (nonempty : digits ≠ []) (digit : ∀ c ∈ digits, c.isDigit = true)
      (longest : ∀ c ∈ rest.head?, c.isDigit = false) (split : Splits rest tokens) :
      Splits (digits ++ rest) (.number (numberOf digits) :: tokens)

/-! ## §3 Runs of digits -/

theorem takeWhile_of_longest {digits rest : Text} (digit : ∀ c ∈ digits, c.isDigit = true)
    (longest : ∀ c ∈ rest.head?, c.isDigit = false) :
    (digits ++ rest).takeWhile Char.isDigit = digits := by
  rw [List.takeWhile_append_of_pos digit]
  cases rest with
  | nil => simp
  | cons c rest => simp [longest c rfl]

theorem dropWhile_of_longest {digits rest : Text} (digit : ∀ c ∈ digits, c.isDigit = true)
    (longest : ∀ c ∈ rest.head?, c.isDigit = false) :
    (digits ++ rest).dropWhile Char.isDigit = rest := by
  rw [List.dropWhile_append_of_pos digit]
  cases rest with
  | nil => simp
  | cons c rest => simp [longest c rfl]

theorem isDigit_head?_dropWhile (text : Text) :
    ∀ c ∈ (text.dropWhile Char.isDigit).head?, c.isDigit = false := by
  intro c h
  have dropped := List.head?_dropWhile_not Char.isDigit text
  rw [Option.mem_def.1 h] at dropped
  simpa using dropped

/-- The cut of a text that begins with a digit. -/
theorem Splits.number_takeWhile {c : Char} {rest : Text} {tokens : List Token}
    (h : c.isDigit = true) (split : Splits (rest.dropWhile Char.isDigit) tokens) :
    Splits (c :: rest) (.number (numberOf (c :: rest.takeWhile Char.isDigit)) :: tokens) := by
  have digit : ∀ d ∈ c :: rest.takeWhile Char.isDigit, d.isDigit = true := by
    intro d mem
    rcases List.mem_cons.1 mem with rfl | mem
    · exact h
    · exact List.all_eq_true.1 List.all_takeWhile d mem
  have cut := Splits.number (by simp) digit (isDigit_head?_dropWhile rest) split
  rwa [List.cons_append, List.takeWhile_append_dropWhile] at cut

/-! ## §4 The scan -/

@[simp] theorem lexemes_push (lexeme : Lexeme) (scan : Scan) :
    (scan.push lexeme).lexemes = lexeme :: scan.lexemes := rfl

theorem splits_of_scan (column : Nat) (text : Text) (h : (scan column text).stray = none) :
    Splits text ((scan column text).lexemes.map Lexeme.token) := by
  fun_induction scan column text with
  | case1 => exact .nil
  | case2 column c rest digit digits ih => exact .number_takeWhile digit (ih h)
  | case3 column c rest _ skipped ih => exact .skipped skipped (ih h)
  | case4 column c rest _ _ token letter ih =>
    exact .letter ((ofChar?_eq_some_iff c token).1 letter) (ih h)
  | case5 => cases h

theorem scan_of_splits {text : Text} {tokens : List Token} (split : Splits text tokens)
    (column : Nat) :
    (scan column text).stray = none ∧ (scan column text).lexemes.map Lexeme.token = tokens := by
  induction split generalizing column with
  | nil => simp
  | skipped h _ ih =>
    rw [scan_skipped column _ h]
    exact ih _
  | letter h _ ih =>
    rw [scan_token column _ ((ofChar?_eq_some_iff _ _).2 h) (letter_isDigit h)
      (letter_isSkipped h)]
    exact ⟨(ih _).1, by rw [lexemes_push, List.map_cons, (ih _).2]⟩
  | @number digits rest tokens nonempty digit longest _ ih =>
    obtain ⟨d, digits, rfl⟩ := List.exists_cons_of_ne_nil nonempty
    obtain ⟨first, others⟩ := List.forall_mem_cons.1 digit
    rw [List.cons_append, scan_digit column _ first, takeWhile_of_longest others longest,
      dropWhile_of_longest others longest]
    exact ⟨(ih _).1, by rw [lexemes_push, List.map_cons, (ih _).2]⟩

/-- **The scan finds the cut**: it meets no stray character exactly on the texts that can be cut
into tokens, and its lexemes are these tokens. -/
theorem splits_iff (column : Nat) (text : Text) (tokens : List Token) :
    Splits text tokens ↔
      (scan column text).stray = none ∧ (scan column text).lexemes.map Lexeme.token = tokens := by
  constructor
  · intro split
    exact scan_of_splits split column
  · rintro ⟨stray, rfl⟩
    exact splits_of_scan column text stray

/-! ## §5 Blank texts -/

theorem letter_isBlank {c : Char} {token : Token} (h : c ∈ token.letters) :
    Text.isBlank c = false :=
  eq_false_of_letter (by decide) h

theorem isBlank_of_isDigit {c : Char} (h : c.isDigit = true) : Text.isBlank c = false := by
  have range : 0x30 ≤ c.toNat ∧ c.toNat ≤ 0x39 := by
    simpa [Char.isDigit, UInt32.le_iff_toNat_le] using h
  simp [Text.isBlank, Text.blankRanges]
  omega

theorem Splits.eq_nil_of_blank {text : Text} {tokens : List Token} (split : Splits text tokens)
    (blank : text.all Text.isBlank = true) : tokens = [] := by
  induction split with
  | nil => rfl
  | skipped _ _ ih =>
    rw [List.all_cons, Bool.and_eq_true] at blank
    exact ih blank.2
  | letter h _ _ =>
    rw [List.all_cons, letter_isBlank h] at blank
    cases blank
  | number nonempty digit _ _ _ =>
    obtain ⟨d, digits, rfl⟩ := List.exists_cons_of_ne_nil nonempty
    have first : d.isDigit = true := digit d List.mem_cons_self
    rw [List.cons_append, List.all_cons, isBlank_of_isDigit first] at blank
    cases blank

end Collapsing.Reader
