import Collapsing.Text.Quoted

/-!
# Reading errors

A text that is no term is refused with the place where it goes wrong: the first character that
begins no token, the first token that cannot stand where it stands, or the end.
-/

namespace Collapsing

/-- Why a text denotes no term. -/
inductive ReadError where
  /-- The text is blank. -/
  | blank
  /-- A character that begins no token. -/
  | strayCharacter (c : Char) (column : Nat)
  /-- A token, given by its spelling, that cannot stand where it stands. -/
  | unexpectedToken (spelling : Text) (column : Nat)
  /-- The text breaks off.  Its length stands for the place. -/
  | unexpectedEnd (length : Nat)
  deriving DecidableEq, Repr

namespace ReadError

/-- The column of the fault: 0 for a blank text, and the length of a text that breaks off. -/
def column : ReadError → Nat
  | blank => 0
  | strayCharacter _ column => column
  | unexpectedToken _ column => column
  | unexpectedEnd length => length

/-- The wording of a reading error. -/
def message : ReadError → String
  | blank => "Empty input: a term is required"
  | strayCharacter c column =>
    "Unexpected character " ++ String.ofList (Text.quote [c]) ++ " at column " ++ toString column
  | unexpectedToken spelling column =>
    "Unexpected " ++ String.ofList (Text.quote spelling) ++ " at column " ++ toString column
  | unexpectedEnd _ => "Unexpected end of input"

end ReadError

end Collapsing
