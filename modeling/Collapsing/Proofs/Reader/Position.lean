import Collapsing.Proofs.Reader.Tokens
import Mathlib.Data.List.Basic
import Mathlib.Data.List.Induction

/-!
# Positions between tokens

A position in a text is a cut into what stands before it and the rest.  It lies *between tokens* if
the text before it is cut into tokens and no number goes on behind it.  The lexemes of a scan stand
at such positions, each in the column that is found by counting back to the last line feed, and so
does a character that begins no token.

## Main statements

- `Splits.append`: cuts of two texts are put together where no number goes on;
- `columnFrom_one`: a column counts the characters behind the last line feed;
- `leadsTo_of_scan`: where a scan stands after any number of its lexemes;
- `LeadsTo.lexeme`, `LeadsTo.stray`: what stands there;
- `exists_splits`: every list of tokens has a text.
-/

namespace Collapsing.Reader

/-! ## §1 Texts put together -/

/-- No number goes on from one text to the next. -/
def Separate (before rest : Text) : Prop :=
  ∀ c ∈ before.getLast?, ∀ d ∈ rest.head?, c.isDigit = false ∨ d.isDigit = false

theorem separate_nil (rest : Text) : Separate [] rest := by
  rintro c ⟨⟩

theorem separate_of_head {rest : Text} (h : ∀ d ∈ rest.head?, d.isDigit = false) (before : Text) :
    Separate before rest :=
  fun _ _ d mem => .inr (h d mem)

theorem separate_singleton {c : Char} (h : c.isDigit = false) (rest : Text) :
    Separate [c] rest := by
  rintro d ⟨⟩ e _
  exact .inl h

theorem separate_append_iff {u before rest : Text} (nonempty : before ≠ []) :
    Separate (u ++ before) rest ↔ Separate before rest := by
  rw [Separate, List.getLast?_append_of_ne_nil u nonempty, Separate]

theorem Separate.of_append {u before rest : Text} (h : Separate (u ++ before) rest) :
    Separate before rest := by
  by_cases empty : before = []
  · subst empty
    exact separate_nil rest
  · exact (separate_append_iff empty).1 h

theorem Separate.front {u before rest : Text} (h : Separate u (before ++ rest)) :
    Separate u before := by
  cases before with
  | nil => rintro c _ d ⟨⟩
  | cons d before => exact h

/-- A front part that is separate from all that follows may be put before the text. -/
theorem Separate.append {u before rest : Text} (h : Separate u (before ++ rest))
    (separate : Separate before rest) : Separate (u ++ before) rest := by
  by_cases empty : before = []
  · subst empty
    rwa [List.append_nil]
  · exact (separate_append_iff empty).2 separate

/-- Behind a number that does not go on stands no digit. -/
theorem Separate.head {digits rest : Text} (h : Separate digits rest) (nonempty : digits ≠ [])
    (digit : ∀ c ∈ digits, c.isDigit = true) : ∀ d ∈ rest.head?, d.isDigit = false := by
  intro d first
  have last := List.getLast?_eq_some_getLast nonempty
  rcases h _ last d first with no_digit | no_digit
  · rw [digit _ (List.getLast_mem nonempty)] at no_digit
    cases no_digit
  · exact no_digit

theorem Splits.append {u v : Text} {s t : List Token} (hu : Splits u s) (hv : Splits v t)
    (separate : Separate u v) : Splits (u ++ v) (s ++ t) := by
  induction hu with
  | nil => exact hv
  | @skipped c rest _ h _ ih =>
    exact .skipped h (ih (Separate.of_append (u := [c]) separate))
  | @letter c _ rest _ h _ ih =>
    exact .letter h (ih (Separate.of_append (u := [c]) separate))
  | @number digits rest _ nonempty digit longest _ ih =>
    -- The digits remain the longest run: it ends inside the first text, or at the seam.
    have behind : ∀ d ∈ (rest ++ v).head?, d.isDigit = false := by
      cases rest with
      | nil =>
        rw [List.append_nil] at separate
        exact separate.head nonempty digit
      | cons d rest => exact longest
    rw [List.append_assoc]
    exact .number nonempty digit behind (ih separate.of_append)

/-! ## §2 Columns -/

/-- The column behind a text that begins in the given column. -/
def columnFrom (column : Nat) (before : Text) : Nat := before.foldl columnAfter column

/-- The column behind a text that begins a line: one more than the number of characters behind its
last line feed. -/
def columnBehind (before : Text) : Nat := (before.reverse.takeWhile (· ≠ '\n')).length + 1

theorem columnFrom_one (before : Text) : columnFrom 1 before = columnBehind before := by
  induction before using List.reverseRecOn with
  | nil => rfl
  | append_singleton before c ih =>
    have behind : columnFrom 1 (before ++ [c]) = columnAfter (columnFrom 1 before) c := by
      simp only [columnFrom, List.foldl_append, List.foldl_cons, List.foldl_nil]
    rw [behind, ih, columnBehind, columnBehind, List.reverse_append, List.reverse_singleton,
      List.singleton_append, columnAfter]
    -- A line feed ends what is counted from the end; any other character makes it longer.
    by_cases feed : c = '\n'
    · simp [feed]
    · simp [feed]

theorem columnFrom_digits {digits : Text} (digit : ∀ c ∈ digits, c.isDigit = true) (column : Nat) :
    columnFrom column digits = column + digits.length := by
  induction digits generalizing column with
  | nil => rfl
  | cons c digits ih =>
    obtain ⟨first, others⟩ := List.forall_mem_cons.1 digit
    have no_feed : c ≠ '\n' := by
      rintro rfl
      cases first
    rw [columnFrom, List.foldl_cons, ← columnFrom, ih others, columnAfter, if_neg no_feed,
      List.length_cons]
    omega

/-! ## §3 Positions -/

/-- A position in a text that lies between tokens: what stands before it is cut into tokens, and no
number goes on behind it. -/
structure Position (text before : Text) (tokens : List Token) (rest : Text) : Prop where
  text_eq : text = before ++ rest
  split : Splits before tokens
  separate : Separate before rest

theorem isSkipped_of_isDigit {c : Char} (h : c.isDigit = true) : isSkipped c = false := by
  apply eq_false_of_ne_true
  intro skipped
  rw [isDigit_of_isSkipped skipped] at h
  cases h

theorem position_here (text : Text) : Position text [] [] text :=
  ⟨rfl, .nil, separate_nil text⟩

/-- A position behind a first part that is cut into tokens itself. -/
theorem Position.behind {text before rest u : Text} {tokens s : List Token}
    (position : Position text before tokens rest) (split : Splits u s)
    (separate : Separate u text) :
    Position (u ++ text) (u ++ before) (s ++ tokens) rest := by
  obtain ⟨rfl, split_before, separate_before⟩ := position
  exact ⟨(List.append_assoc u before rest).symm, split.append split_before separate.front,
    separate.append separate_before⟩

/-- The text leads from the given column to a position behind the tokens, and in front of what the
scan still finds there. -/
def LeadsTo (column : Nat) (text : Text) (tokens : List Token) (left : Scan) : Prop :=
  ∃ before rest, Position text before tokens rest ∧ (∀ c ∈ rest.head?, isSkipped c = false) ∧
    scan (columnFrom column before) rest = left

theorem leadsTo_here {text : Text} (not_skipped : ∀ c ∈ text.head?, isSkipped c = false)
    {column : Nat} {left : Scan} (h : scan column text = left) : LeadsTo column text [] left :=
  ⟨[], text, position_here text, not_skipped, h⟩

theorem LeadsTo.behind {column column' : Nat} {text u : Text} {tokens s : List Token} {left : Scan}
    (h : LeadsTo column' text tokens left) (split : Splits u s) (separate : Separate u text)
    (columns : columnFrom column u = column') : LeadsTo column (u ++ text) (s ++ tokens) left := by
  subst columns
  obtain ⟨before, rest, position, not_skipped, found⟩ := h
  refine ⟨u ++ before, rest, position.behind split separate, not_skipped, ?_⟩
  rwa [columnFrom, List.foldl_append]

/-- **Positions of a scan**: after any number of its lexemes a scan stands between tokens, in the
column that belongs to the place, and in front of the next lexeme or the character that stops it. -/
theorem leadsTo_of_scan (column : Nat) (text : Text) {done later : List Lexeme}
    (h : (scan column text).lexemes = done ++ later) :
    LeadsTo column text (done.map Lexeme.token) ⟨later, (scan column text).stray⟩ := by
  fun_induction scan column text generalizing done with
  | case1 column =>
    obtain ⟨rfl, rfl⟩ := List.nil_eq_append_iff.1 h
    exact leadsTo_here (by simp) (scan_nil column)
  | case2 column c rest digit digits =>
    rename_i ih
    cases done with
    | nil =>
      cases h
      apply leadsTo_here
      · rintro d ⟨⟩
        exact isSkipped_of_isDigit digit
      · exact scan_digit column rest digit
    | cons lexeme done =>
      obtain ⟨rfl, found⟩ := List.cons.inj h
      -- All the digits are passed, and the text goes on without one.
      have all_digits : ∀ d ∈ digits, d.isDigit = true :=
        List.forall_mem_cons.2 ⟨digit, List.all_eq_true.1 List.all_takeWhile⟩
      have no_digit := isDigit_head?_dropWhile rest
      have number : Splits digits [.number (numberOf digits)] := by
        have cut := Splits.number (by simp [digits]) all_digits (by simp) Splits.nil
        rwa [List.append_nil] at cut
      have whole : digits ++ rest.dropWhile Char.isDigit = c :: rest := by
        rw [List.cons_append, List.takeWhile_append_dropWhile]
      rw [← whole]
      exact (ih found).behind number (separate_of_head no_digit digits)
        (columnFrom_digits all_digits column)
  | case3 column c rest _ skipped ih =>
    have no_digit := isDigit_of_isSkipped skipped
    exact (ih h).behind (.skipped skipped .nil) (separate_singleton no_digit rest) rfl
  | case4 column c rest no_digit not_skipped token letter ih =>
    have mem := (ofChar?_eq_some_iff c token).1 letter
    cases done with
    | nil =>
      cases h
      apply leadsTo_here
      · rintro d ⟨⟩
        exact letter_isSkipped mem
      · exact scan_token column rest letter (letter_isDigit mem) (letter_isSkipped mem)
    | cons lexeme done =>
      obtain ⟨rfl, found⟩ := List.cons.inj h
      have no_feed : c ≠ '\n' := by
        rintro rfl
        exact not_skipped rfl
      exact (ih found).behind (.letter mem .nil) (separate_singleton (letter_isDigit mem) rest)
        (if_neg no_feed)
  | case5 column c rest no_digit not_skipped none =>
    obtain ⟨rfl, rfl⟩ := List.nil_eq_append_iff.1 h
    apply leadsTo_here
    · rintro d ⟨⟩
      exact eq_false_of_ne_true not_skipped
    · exact scan_stray column rest none (eq_false_of_ne_true no_digit)
        (eq_false_of_ne_true not_skipped)

/-! ## §4 What stands at a position -/

/-- The spellings of a token. -/
inductive Spells : Text → Token → Prop where
  | letter {c token} (h : c ∈ token.letters) : Spells [c] token
  | number {digits} (nonempty : digits ≠ []) (digit : ∀ c ∈ digits, c.isDigit = true) :
      Spells digits (.number (numberOf digits))

/-- The characters that begin no token and may not stand between tokens. -/
structure IsStray (c : Char) : Prop where
  not_letter : ∀ token : Token, c ∉ token.letters
  not_digit : c.isDigit = false
  not_skipped : isSkipped c = false

/-- A scan goes on with the token that stands in front of it, or it meets a stray character. -/
theorem scan_front (column : Nat) {c : Char} (rest : Text) (not_skipped : isSkipped c = false) :
    (∃ spelling token after, c :: rest = spelling ++ after ∧ Spells spelling token ∧
      Separate spelling after ∧ ∃ later stray,
        scan column (c :: rest) = ⟨⟨token, spelling, column⟩ :: later, stray⟩) ∨
    (IsStray c ∧ scan column (c :: rest) = ⟨[], some (c, column)⟩) := by
  by_cases digit : c.isDigit = true
  · left
    have all_digits : ∀ d ∈ c :: rest.takeWhile Char.isDigit, d.isDigit = true :=
      List.forall_mem_cons.2 ⟨digit, List.all_eq_true.1 List.all_takeWhile⟩
    refine ⟨c :: rest.takeWhile Char.isDigit, _, rest.dropWhile Char.isDigit, ?_,
      .number (by simp) all_digits, separate_of_head (isDigit_head?_dropWhile rest) _, _, _,
      scan_digit column rest digit⟩
    rw [List.cons_append, List.takeWhile_append_dropWhile]
  · have no_digit := eq_false_of_ne_true digit
    cases letter : Token.ofChar? c with
    | some token =>
      left
      have mem := (ofChar?_eq_some_iff c token).1 letter
      exact ⟨[c], token, rest, rfl, .letter mem, separate_singleton no_digit rest, _, _,
        scan_token column rest letter no_digit not_skipped⟩
    | none =>
      right
      refine ⟨⟨?_, no_digit, not_skipped⟩, scan_stray column rest letter no_digit not_skipped⟩
      intro token mem
      rw [(ofChar?_eq_some_iff c token).2 mem] at letter
      cases letter

/-- Where a lexeme is found next, it stands in front and in its column. -/
theorem LeadsTo.lexeme {column : Nat} {text : Text} {tokens : List Token} {lexeme : Lexeme}
    {later : List Lexeme} {stray : Option (Char × Nat)}
    (h : LeadsTo column text tokens ⟨lexeme :: later, stray⟩) :
    ∃ before after, Position text before tokens (lexeme.spelling ++ after) ∧
      Spells lexeme.spelling lexeme.token ∧ Separate lexeme.spelling after ∧
      lexeme.column = columnFrom column before := by
  obtain ⟨before, rest, position, not_skipped, found⟩ := h
  cases rest with
  | nil =>
    -- Nothing is left of the text, but a lexeme is still to come.
    rw [scan_nil] at found
    cases found
  | cons c rest =>
    rcases scan_front (columnFrom column before) rest (not_skipped c rfl) with
      ⟨spelling, token, after, eq, spells, whole, _, _, front⟩ | ⟨_, front⟩
    · rw [found] at front
      cases front
      rw [eq] at position
      exact ⟨before, after, position, spells, whole, rfl⟩
    · rw [found] at front
      cases front

/-- Where a stray character stops the scan next, it stands in front and in its column. -/
theorem LeadsTo.stray {column column' : Nat} {text : Text} {tokens : List Token} {c : Char}
    (h : LeadsTo column text tokens ⟨[], some (c, column')⟩) :
    ∃ before after, Position text before tokens (c :: after) ∧ IsStray c ∧
      column' = columnFrom column before := by
  obtain ⟨before, rest, position, not_skipped, found⟩ := h
  cases rest with
  | nil =>
    rw [scan_nil] at found
    cases found
  | cons d rest =>
    rcases scan_front (columnFrom column before) rest (not_skipped d rfl) with
      ⟨_, _, _, _, _, _, _, _, front⟩ | ⟨is_stray, front⟩
    · -- A token in front would be one more lexeme.
      rw [found] at front
      cases front
    · rw [found] at front
      cases front
      exact ⟨before, rest, position, is_stray, rfl⟩

/-! ## §5 Every list of tokens has a text -/

theorem exists_splits (tokens : List Token) :
    ∃ text, Splits text tokens ∧ ∀ c ∈ text.head?, c.isDigit = false := by
  induction tokens with
  | nil => exact ⟨[], .nil, by simp⟩
  | cons token tokens ih =>
    obtain ⟨text, split, no_digit⟩ := ih
    by_cases letters : token.letters = []
    · -- A number is written behind a space, so that it does not go on from what is before it.
      obtain ⟨n, rfl⟩ : ∃ n, token = .number n := by
        cases token with
        | number n => exact ⟨n, rfl⟩
        | _ => cases letters
      have digit : ∀ c ∈ Text.decimal n, c.isDigit = true :=
        fun _ mem => Nat.isDigit_of_mem_toDigits (by decide) (by decide) mem
      have value : numberOf (Text.decimal n) = n := Nat.ofDigitChars_ten_toDigits
      have number : Splits (Text.decimal n ++ text) (.number n :: tokens) := by
        have spelled := Splits.number Nat.toDigits_ne_nil digit no_digit split
        rwa [← Text.decimal, value] at spelled
      refine ⟨' ' :: (Text.decimal n ++ text), .skipped rfl number, ?_⟩
      rintro c ⟨⟩
      rfl
    · obtain ⟨c, mem⟩ := List.exists_mem_of_ne_nil _ letters
      refine ⟨c :: text, .letter mem split, ?_⟩
      rintro d ⟨⟩
      exact letter_isDigit mem

end Collapsing.Reader
