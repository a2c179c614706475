import Collapsing.Reader.Error
import Collapsing.Reader.Machine
import Collapsing.Text.Blank

/-!
# Reading terms

A text is cut into lexemes, and the machine runs over them.  The first lexeme that it refuses is
reported; then the character that stopped the scan; then a text that breaks off.

## Main statements

- `read_of_blank`: a blank text is refused as such;
- `read_eq_ok_iff`: a term is returned exactly when the whole text has been scanned, no lexeme
  is refused and the text may end there.
-/

namespace Collapsing.Reader

/-- The machine's run over a list of lexemes, up to the first one that it refuses. -/
def run (state : State) : List Lexeme → Except ReadError State
  | [] => .ok state
  | lexeme :: rest =>
    match state.step lexeme.token with
    | some next => run next rest
    | none => .error (.unexpectedToken lexeme.spelling lexeme.column)

/-- The term that a text denotes. -/
def read (text : Text) : Except ReadError Term :=
  if text.all Text.isBlank then .error .blank
  else
    let found := scan 1 text
    -- A refused lexeme stands before the character that stopped the scan.
    match run .start found.lexemes, found.stray with
    | .error e, _ => .error e
    | .ok _, some (c, column) => .error (.strayCharacter c column)
    | .ok state, none =>
      match state.value? with
      | some t => .ok t
      | none => .error (.unexpectedEnd text.length)

theorem read_of_blank {text : Text} (h : text.all Text.isBlank = true) :
    read text = .error .blank := if_pos h

theorem read_eq_ok_iff (text : Text) (t : Term) :
    read text = .ok t ↔
      text.all Text.isBlank = false ∧ (scan 1 text).stray = none ∧
        ∃ state, run .start (scan 1 text).lexemes = .ok state ∧ state.value? = some t := by
  cases blank : text.all Text.isBlank with
  | true => simp [read_of_blank blank]
  | false =>
    simp only [read, blank]
    cases run .start (scan 1 text).lexemes with
    | error e => simp
    | ok state =>
      cases (scan 1 text).stray with
      | some found => simp
      | none => cases h : state.value? <;> simp [h]

end Collapsing.Reader

namespace Collapsing.Term

/-- The term that a string denotes. -/
def parse (s : String) : Except ReadError Term := Reader.read s.toList

end Collapsing.Term
