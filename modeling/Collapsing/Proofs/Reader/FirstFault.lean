import Collapsing.Proofs.Reader.Position
import Collapsing.Proofs.Reader.Reading
import Collapsing.Proofs.Reader.ViablePrefix

/-!
# The first fault of a text

A text that is refused is reported at the first place where it goes wrong, and the report says what
stands there.

- Behind tokens that some continuation completes stands a token that no derivable list has at this
  place; or
- behind such tokens stands a character that begins no token; or
- the whole text has tokens that some continuation completes, but they are not complete.

So no fault is noticed late, after a token that could not be right, and none early.  Faults of the
two kinds come in reading order: a token is tried before the scan looks at what follows it.

## Main statements

- `exists_of_run_eq_error`: the refused lexeme, and the run before it;
- `read_firstFault`: what is reported for a text is its first fault.
-/

namespace Collapsing.Reader

/-! ## §1 Faults -/

/-- What is wrong with a text, in words and with its column: the first fault, behind a part of the
text that can be continued. -/
inductive FirstFault (text : Text) : (message : String) → (column : Nat) → Prop where
  /-- A whole token that cannot stand behind the tokens before it. -/
  | token {before tokens spelling token after}
      (position : Position text before tokens (spelling ++ after)) (spells : Spells spelling token)
      (whole : Separate spelling after) (viable : Viable tokens)
      (refused : ¬ Viable (tokens ++ [token])) :
      FirstFault text ("Unexpected " ++ String.ofList (Text.quote spelling) ++ " at column " ++
        toString (columnBehind before)) (columnBehind before)
  /-- A character that begins no token. -/
  | character {before tokens c after} (position : Position text before tokens (c :: after))
      (stray : IsStray c) (viable : Viable tokens) :
      FirstFault text ("Unexpected character " ++ String.ofList (Text.quote [c]) ++ " at column " ++
        toString (columnBehind before)) (columnBehind before)
  /-- The end of a text that is not complete.  Some other text has to be put behind it. -/
  | ending {tokens} (split : Splits text tokens) (viable : Viable tokens)
      (incomplete : ¬ ∃ sum : SumTree, sum.tokens = tokens)
      (continued : ∃ more t, read (text ++ more) = .ok t) :
      FirstFault text "Unexpected end of input" text.length

/-! ## §2 Where a reading stops -/

/-- A run that fails has read some lexemes and refuses the next one. -/
theorem exists_of_run_eq_error {state : State} {lexemes : List Lexeme} {e : ReadError}
    (h : run state lexemes = .error e) :
    ∃ done lexeme later reached, lexemes = done ++ lexeme :: later ∧
      state.advance (done.map Lexeme.token) = some reached ∧ reached.step lexeme.token = none ∧
      e = .unexpectedToken lexeme.spelling lexeme.column := by
  induction lexemes generalizing state with
  | nil => cases h
  | cons lexeme later ih =>
    rw [run] at h
    cases step : state.step lexeme.token with
    | none =>
      rw [step] at h
      cases h
      exact ⟨[], lexeme, later, state, rfl, rfl, step, rfl⟩
    | some next =>
      rw [step] at h
      obtain ⟨done, refused, later', reached, rfl, advanced, refusal, eq⟩ := ih h
      refine ⟨lexeme :: done, refused, later', reached, rfl, ?_, refusal, eq⟩
      rw [List.map_cons, State.advance_cons, step, Option.bind_some, advanced]

/-- The three ways in which the reading of a text that is not blank can fail. -/
theorem cases_of_read_eq_error {text : Text} {e : ReadError}
    (not_blank : text.all Text.isBlank = false) (h : read text = .error e) :
    run .start (scan 1 text).lexemes = .error e ∨
    ∃ state, run .start (scan 1 text).lexemes = .ok state ∧
      ((∃ c column, (scan 1 text).stray = some (c, column) ∧ e = .strayCharacter c column) ∨
        (scan 1 text).stray = none ∧ state.value? = none ∧ e = .unexpectedEnd text.length) := by
  simp only [read, not_blank, Bool.false_eq_true, if_false] at h
  cases ran : run .start (scan 1 text).lexemes with
  | error e' =>
    rw [ran] at h
    cases h
    exact .inl rfl
  | ok state =>
    refine .inr ⟨state, rfl, ?_⟩
    rw [ran] at h
    cases stopped : (scan 1 text).stray with
    | some found =>
      rw [stopped] at h
      cases h
      exact .inl ⟨found.1, found.2, rfl, rfl⟩
    | none =>
      rw [stopped] at h
      cases value : state.value? with
      | some t => simp [value] at h
      | none =>
        simp only [value] at h
        cases h
        exact .inr ⟨rfl, rfl, rfl⟩

/-! ## §3 The three faults -/

theorem firstFault_of_refusal {text : Text} {e : ReadError}
    (h : run .start (scan 1 text).lexemes = .error e) : FirstFault text e.message e.column := by
  obtain ⟨done, lexeme, later, reached, cut, advanced, refusal, rfl⟩ := exists_of_run_eq_error h
  have viable := (viable_iff_advance _).2 ⟨reached, advanced⟩
  have refused := (step_eq_none_iff advanced lexeme.token).1 refusal
  obtain ⟨before, after, position, spells, whole, column⟩ := (leadsTo_of_scan 1 text cut).lexeme
  rw [columnFrom_one] at column
  -- The report takes the column from the lexeme.
  rw [ReadError.column, column]
  exact .token position spells whole viable refused

theorem firstFault_of_stray {text : Text} {state : State} {c : Char} {column : Nat}
    (h : run .start (scan 1 text).lexemes = .ok state)
    (stray : (scan 1 text).stray = some (c, column)) :
    FirstFault text (ReadError.strayCharacter c column).message column := by
  have viable := (viable_iff_advance _).2 ⟨state, (run_eq_ok_iff _ _ _).1 h⟩
  have reached := leadsTo_of_scan 1 text (List.append_nil _).symm
  rw [stray] at reached
  obtain ⟨before, after, position, is_stray, rfl⟩ := reached.stray
  rw [columnFrom_one]
  exact .character position is_stray viable

/-- What completes the tokens of a text can be written behind the text. -/
theorem exists_continuation {text : Text} {tokens : List Token} (split : Splits text tokens)
    (viable : Viable tokens) : ∃ more t, read (text ++ more) = .ok t := by
  obtain ⟨sum, rest, eq⟩ := viable
  obtain ⟨more, split_more, no_digit⟩ := exists_splits rest
  have whole : Splits (text ++ more) sum.tokens := by
    -- No digit stands first in `more`, so the last number of `text` ends where `text` does.
    rw [← eq]
    exact split.append split_more (separate_of_head no_digit text)
  exact ⟨more, sum.value, (read_eq_ok_iff_derivation _ _).2 ⟨sum, whole, rfl⟩⟩

theorem firstFault_of_end {text : Text} {state : State}
    (h : run .start (scan 1 text).lexemes = .ok state) (stray : (scan 1 text).stray = none)
    (value : state.value? = none) : FirstFault text "Unexpected end of input" text.length := by
  have advanced := (run_eq_ok_iff _ _ _).1 h
  have split := splits_of_scan 1 text stray
  have viable := (viable_iff_advance _).2 ⟨state, advanced⟩
  exact .ending split viable ((value?_eq_none_iff advanced).1 value)
    (exists_continuation split viable)

/-! ## §4 The report -/

/-- **The first fault is reported**: if a text that is not blank is refused, the message and the
column are those of its first fault. -/
theorem read_firstFault {text : Text} {e : ReadError} (not_blank : text.all Text.isBlank = false)
    (h : read text = .error e) : FirstFault text e.message e.column := by
  rcases cases_of_read_eq_error not_blank h with refusal | ⟨state, accepted, other⟩
  · exact firstFault_of_refusal refusal
  · rcases other with ⟨c, column, stray, rfl⟩ | ⟨stray, value, rfl⟩
    · exact firstFault_of_stray accepted stray
    · exact firstFault_of_end accepted stray value

/-- A parenthesis instead of the closing brace, in the second line. -/
theorem read_firstFault_brace :
    "A_\x7b1+w\n (0)".toList.all Text.isBlank = false ∧
    read "A_\x7b1+w\n (0)".toList = .error (.unexpectedToken ['('] 2) ∧
    FirstFault "A_\x7b1+w\n (0)".toList "Unexpected '(' at column 2" 2 := by
  have not_blank : "A_\x7b1+w\n (0)".toList.all Text.isBlank = false := by decide +kernel
  have refused : read "A_\x7b1+w\n (0)".toList = .error (.unexpectedToken ['('] 2) := by
    decide +kernel
  have quoted : Text.quote ['('] = "'('".toList := by decide +kernel
  have words : "Unexpected " ++ String.ofList "'('".toList ++ " at column " ++ toString 2 =
      "Unexpected '(' at column 2" := by decide +kernel
  refine ⟨not_blank, refused, ?_⟩
  rw [← words, ← quoted]
  exact read_firstFault not_blank refused

end Collapsing.Reader
