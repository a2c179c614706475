import Collapsing.Display.Abbreviation
import Collapsing.Reader.Read
import Collapsing.Term.Expansion

/-!
# Worksheets

A worksheet is a growing list of terms, the *registers*, which starts with `0`, `1`, `ω` and
`Ω`.  A step names registers by number, counted round the list, and either calculates a term,
which becomes a new register, or asks something about terms, which changes nothing.  A step that
fails changes nothing either.

## Main statements

- `registers_isPrefix`: registers are never lost or altered.
-/

namespace Collapsing

namespace Worksheet

/-! ## §1 Steps -/

/-- The number of a register, counted round the list of registers. -/
abbrev Register := Nat

/-- A step that calculates a term. -/
inductive Construction where
  /-- The term that a text denotes. -/
  | parse (text : Text)
  /-- The principal term with the given parts. -/
  | psi (sub arg : Register)
  /-- The sum of two terms. -/
  | plus (left right : Register)
  /-- The numeral of an integer. -/
  | numeral (n : Int)
  /-- The term with the given addends; a single one is taken as it is. -/
  | ofAddends (addends : List Register)
  /-- The sum of at least two principal terms. -/
  | sum (addends : List Register)
  /-- The element of a fundamental sequence. -/
  | expand (x y : Register)
  /-- The element with a number as its index. -/
  | element (x : Register) (n : Int)
  /-- The degree of a term. -/
  | degree (x : Register)
  /-- The largest of some terms. -/
  | largest (terms : List Register)
  deriving DecidableEq, Repr

/-- A step that asks something about terms. -/
inductive Question where
  | lessThan (left right : Register)
  | compare (left right : Register)
  | equal (left right : Register)
  | numeralValue (t : Register)
  | isNumeral (t : Register)
  | isSuccessor (t : Register)
  | isLimit (t : Register)
  | addends (t : Register)
  | sort (terms : List Register)
  /-- The number of different terms. -/
  | distinct (terms : List Register)
  | render (t : Register) (options : Options)
  deriving DecidableEq, Repr

/-- A step of a worksheet. -/
inductive Step where
  | construct (construction : Construction)
  | ask (question : Question)
  deriving DecidableEq, Repr

/-- Why a step fails. -/
inductive StepError where
  | unreadable (e : ReadError)
  | refused (e : TermError)
  deriving DecidableEq, Repr

/-- What a question is answered with. -/
inductive Reply where
  | truth (holds : Bool)
  | ordering (o : Ordering)
  | number (n : Option Nat)
  | terms (ts : List Term)
  | text (text : Text)
  deriving DecidableEq, Repr

/-- What a step is answered with. -/
inductive Answer where
  | term (t : Term)
  | reply (reply : Reply)
  | failure (e : StepError)
  deriving DecidableEq, Repr

end Worksheet

/-! ## §2 Worksheets -/

/-- A list of registers. -/
structure Worksheet where
  registers : List Term
  deriving DecidableEq, Repr

namespace Worksheet

/-- The worksheet before the first step. -/
def start : Worksheet := ⟨[.zero, .one, .omega, .bigOmega]⟩

/-- The term in a register. -/
def term (sheet : Worksheet) (register : Register) : Term :=
  sheet.registers.getD (register % sheet.registers.length) .zero

/-- The term that a step calculates. -/
def construct (sheet : Worksheet) : Construction → Except StepError Term
  | .parse text => (Reader.read text).mapError .unreadable
  | .psi sub arg => return .psi (sheet.term sub) (sheet.term arg)
  | .plus left right => return sheet.term left + sheet.term right
  | .numeral n => (Term.numeral? n).mapError .refused
  | .ofAddends addends => (Term.ofAddends? (addends.map sheet.term)).mapError .refused
  | .sum addends => (Term.sum? (addends.map sheet.term)).mapError .refused
  | .expand x y => return (sheet.term x).expand (sheet.term y)
  | .element x n => do
    let index ← (Term.numeral? n).mapError .refused
    return (sheet.term x).expand index
  | .degree x => return (sheet.term x).degree
  | .largest terms => (Term.largest? (terms.map sheet.term)).mapError .refused

/-- The reply to a question. -/
def ask (sheet : Worksheet) : Question → Reply
  | .lessThan left right => .truth ((sheet.term left).lessThan (sheet.term right))
  | .compare left right => .ordering (compare (sheet.term left) (sheet.term right))
  | .equal left right => .truth (sheet.term left = sheet.term right)
  | .numeralValue t => .number (sheet.term t).numeralValue?
  | .isNumeral t => .truth (sheet.term t).isNumeral
  | .isSuccessor t => .truth (sheet.term t).isSuccessor
  | .isLimit t => .truth (sheet.term t).isLimit
  | .addends t => .terms (sheet.term t).addends
  | .sort terms => .terms (Term.sort (terms.map sheet.term))
  | .distinct terms => .number (some (terms.map sheet.term).eraseDups.length)
  | .render t options => .text (Display.render options (sheet.term t))

/-- The answer to a step, and the worksheet afterwards. -/
def step (sheet : Worksheet) : Step → Answer × Worksheet
  | .construct construction =>
    match sheet.construct construction with
    | .ok t => (.term t, ⟨sheet.registers ++ [t]⟩)
    | .error e => (.failure e, sheet)
  | .ask question => (.reply (sheet.ask question), sheet)

/-- The answers to some steps, and the worksheet after them. -/
def run (sheet : Worksheet) : List Step → List Answer × Worksheet
  | [] => ([], sheet)
  | step :: steps =>
    let (answer, next) := sheet.step step
    let (answers, last) := next.run steps
    (answer :: answers, last)

/-- The answers to some steps on a fresh worksheet. -/
def answers (steps : List Step) : List Answer := (start.run steps).1

/-- A step keeps the registers that there are. -/
theorem registers_isPrefix (sheet : Worksheet) (step : Step) :
    sheet.registers <+: (sheet.step step).2.registers := by
  cases step with
  | construct construction =>
    simp only [Worksheet.step]
    split
    · exact List.prefix_append ..
    · exact List.prefix_refl _
  | ask question => exact List.prefix_refl _

end Worksheet

end Collapsing
