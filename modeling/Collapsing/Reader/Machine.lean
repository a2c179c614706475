import Collapsing.Reader.Token
import Collapsing.Term.Numeral

/-!
# A pushdown machine for terms

The grammar of terms, over tokens:

- a *sum* is one or more addends with `+` between them;
- an *addend* is a number, `ω`, `Ω`, or a head `亞` with what it is applied to;
- `亞(b)` is `亞(0, b)`;
- `亞(a, b)` and `亞 s (b)` are `亞(a, b)`, where `s` is the subscript `a`;
- a *subscript* is a sum, with or without braces, with or without `_` in front.

An unbraced subscript is a whole sum, and only the `(` after it shows that it is over.  The
machine reads one token at a time.  `Mode` is the place in the innermost open sum, and the
frames say what each sum around it belongs to.  Both carry the values of what has been read,
so the term is complete when the last token is.

A step is refused exactly when the token cannot continue the text, so the first refused token
is the first fault of a text.
-/

namespace Collapsing.Reader

/-! ## §1 States -/

/-- What an open sum belongs to.  `before` is the value of the addends before the `亞`. -/
inductive Frame where
  /-- The first operand of `亞(`, which is the argument unless a comma follows. -/
  | operand (before : Term)
  /-- The argument of `亞`, its subscript being known. -/
  | argument (before sub : Term)
  /-- An unbraced subscript. -/
  | bareSub (before : Term)
  /-- A subscript in braces. -/
  | bracedSub (before : Term)
  deriving DecidableEq, Repr

/-- The place within the innermost open sum.  `sum` is the value of its addends so far. -/
inductive Mode where
  /-- An addend has to follow. -/
  | addend (sum : Term)
  /-- An addend is complete. -/
  | after (sum : Term)
  /-- A head has been read. -/
  | head (sum : Term)
  /-- A head and `_` have been read. -/
  | underscore (sum : Term)
  /-- A head and a subscript in braces have been read. -/
  | closedSub (sum sub : Term)
  deriving DecidableEq, Repr

/-- A state of the machine: the innermost open sum, and the sums around it. -/
structure State where
  mode : Mode
  frames : List Frame
  deriving DecidableEq, Repr

/-- The state before the first token. -/
def State.start : State := ⟨.addend .zero, []⟩

/-! ## §2 Steps -/

/-- A step where an addend has to begin. -/
def beginAddend (sum : Term) (frames : List Frame) : Token → Option State
  | .number n => some ⟨.after (sum + Term.numeral n), frames⟩
  | .omega => some ⟨.after (sum + Term.omega), frames⟩
  | .bigOmega => some ⟨.after (sum + Term.bigOmega), frames⟩
  | .head => some ⟨.head sum, frames⟩
  | _ => none

/-- A step after a complete addend: one more addend, or the end of the innermost sum. -/
def continueSum (sum : Term) : List Frame → Token → Option State
  | frames, .plus => some ⟨.addend sum, frames⟩
  -- `亞(b)` is complete, or its operand turns out to be the subscript.
  | .operand before :: frames, .closeParen => some ⟨.after (before + Term.psi .zero sum), frames⟩
  | .operand before :: frames, .comma => some ⟨.addend .zero, .argument before sum :: frames⟩
  -- `亞(a,b)` or `亞 s (b)` is complete.
  | .argument before sub :: frames, .closeParen =>
    some ⟨.after (before + Term.psi sub sum), frames⟩
  -- The subscript is over, and the argument begins.
  | .bareSub before :: frames, .openParen => some ⟨.addend .zero, .argument before sum :: frames⟩
  | .bracedSub before :: frames, .closeBrace => some ⟨.closedSub before sum, frames⟩
  | _, _ => none

/-- A step where a subscript has to begin. -/
def beginSub (sum : Term) (frames : List Frame) : Token → Option State
  | .openBrace => some ⟨.addend .zero, .bracedSub sum :: frames⟩
  | token => beginAddend .zero (.bareSub sum :: frames) token

/-- A step after a head: its operands, or its subscript with or without `_`. -/
def afterHead (sum : Term) (frames : List Frame) : Token → Option State
  | .openParen => some ⟨.addend .zero, .operand sum :: frames⟩
  | .underscore => some ⟨.underscore sum, frames⟩
  | token => beginSub sum frames token

/-- One step of the machine; `none` means that the token cannot stand here. -/
def State.step (state : State) (token : Token) : Option State :=
  match state.mode with
  | .addend sum => beginAddend sum state.frames token
  | .after sum => continueSum sum state.frames token
  | .head sum => afterHead sum state.frames token
  | .underscore sum => beginSub sum state.frames token
  | .closedSub sum sub =>
    match token with
    | .openParen => some ⟨.addend .zero, .argument sum sub :: state.frames⟩
    | _ => none

/-- The value of a state in which the text may end. -/
def State.value? : State → Option Term
  | ⟨.after sum, []⟩ => some sum
  | _ => none

end Collapsing.Reader
