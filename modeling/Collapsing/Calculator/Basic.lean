import Collapsing.Hydra.Outline
import Collapsing.Limited.Output
import Collapsing.Limited.Term
import Collapsing.Reader.Read

/-!
# The calculator

The calculator answers requests that are given as texts: the element `A[B]` of a fundamental
sequence, the degree of `A`, or whether `A < B`.

1. A request is read: `A` first, then `B` if there is one, even where it is not needed; only
   then is a missing `B` reported.
2. The calculation is carried out within the limit of nesting.
3. The value is written with the current display options, within the same limit.

A failure at any point is a `Failure`, and nothing stands in for the missing result.
-/

namespace Collapsing

/-! ## §1 Requests -/

/-- The calculations on offer. -/
inductive Operation where
  /-- The element `A[B]` of a fundamental sequence. -/
  | fund
  /-- The degree of `A`. -/
  | dom
  /-- Whether `A < B`. -/
  | lessThan
  deriving DecidableEq, Repr

/-- The name of an operation. -/
def Operation.name : Operation → String
  | fund => "fund"
  | dom => "dom"
  | lessThan => "less_than"

/-- An operation on two texts.  Either text may be missing: a missing `A` reads as an empty
one, and an empty `B` counts as missing. -/
structure Request where
  operation : Operation
  a : Option Text
  b : Option Text
  deriving DecidableEq, Repr

/-- Why a request has no result. -/
inductive Failure where
  /-- One of the texts denotes no term. -/
  | unreadable (e : ReadError)
  /-- The operation needs `B`. -/
  | missingOperand (operation : Operation)
  /-- The calculation stopped. -/
  | stopped (stop : Stop)
  deriving DecidableEq, Repr

/-- The wording of a failure. -/
def Failure.message : Failure → String
  | unreadable e => e.message
  | missingOperand operation => operation.name ++ " needs a second term B"
  | stopped stop => stop.message

/-! ## §2 Calculations -/

/-- A request whose operands have been read. -/
inductive Calculation where
  | expand (x y : Term)
  | degree (x : Term)
  | lessThan (x y : Term)
  deriving DecidableEq, Repr

/-- The result of a calculation. -/
inductive Value where
  | term (t : Term)
  | truth (holds : Bool)
  deriving DecidableEq, Repr

/-- The operand `B` of a request, if it has one. -/
def Request.readB (request : Request) : Except ReadError (Option Term) :=
  match request.b with
  | none | some [] => .ok none
  | some text => (Reader.read text).map some

/-- The calculation that a request asks for. -/
def Request.calculation (request : Request) : Except Failure Calculation := do
  -- Both texts are read before the operation is looked at.
  let x ← (Reader.read (request.a.getD [])).mapError .unreadable
  let y? ← request.readB.mapError .unreadable
  match request.operation, y? with
  | .dom, _ => return .degree x
  | .fund, some y => return .expand x y
  | .lessThan, some y => return .lessThan x y
  | operation, none => throw (.missingOperand operation)

/-- The value of a calculation, without a limit. -/
def Calculation.value : Calculation → Value
  | expand x y => .term (x.expand y)
  | degree x => .term x.degree
  | lessThan x y => .truth (x.lessThan y)

/-- The value of a calculation within a limit. -/
def Calculation.limitedValue (limit : Nat) : Calculation → Limited Value
  | expand x y => .term <$> Limited.expand limit x y
  | degree x => .term <$> Limited.degree limit x
  | lessThan x y => .truth <$> Limited.lessThan limit x y

/-- The value of a request, without a limit. -/
def Request.evaluate (request : Request) : Except Failure Value :=
  request.calculation.map Calculation.value

/-! ## §3 Results -/

/-- The result of a request: its value, and how the value is printed. -/
structure Success where
  value : Value
  output : Text
  deriving DecidableEq, Repr

/-- What becomes of a request. -/
abbrev Outcome := Except Failure Success

/-- The fields of an outcome, as a caller finds them.  A field that does not apply is left empty. -/
structure Report where
  output : Text := []
  term : Option Term := none
  truth : Option Bool := none
  error : Option String := none
  deriving DecidableEq, Repr

/-- The fields of an outcome. -/
def Outcome.report : Outcome → Report
  | .ok ⟨.term t, output⟩ => { output, term := some t }
  | .ok ⟨.truth holds, output⟩ => { output, truth := some holds }
  | .error failure => { error := some failure.message }

/-- The printed form of a truth value. -/
def truthText (holds : Bool) : Text := if holds then "true".toList else "false".toList

/-- The line that reports a failure. -/
def errorLine (message : String) : Text := "Error: ".toList ++ message.toList

/-- The line that reports an outcome. -/
def Outcome.line : Outcome → Text
  | .ok success => "Output: ".toList ++ success.output
  | .error failure => errorLine failure.message

/-- The printed form of a value, without a limit. -/
def Value.output (options : Options) : Value → Text
  | term t => Display.formatOutput options t
  | truth holds => truthText holds

/-- The printed form of a value, within a limit. -/
def Value.limitedOutput (options : Options) (limit : Nat) : Value → Limited Text
  | term t => Limited.formatOutput options limit t
  | truth holds => return truthText holds

/-- What would become of a request if there were no limit of nesting. -/
def Request.outcome (options : Options) (request : Request) : Outcome :=
  request.evaluate.map fun value => ⟨value, value.output options⟩

/-! ## §4 The calculator -/

/-- A calculator: its display options, and the limit of nesting that it keeps to. -/
structure Calculator where
  options : Options := {}
  limit : Nat := 1000
  deriving DecidableEq, Repr

namespace Calculator

/-- What is said of a term that cannot be drawn. -/
def noHydra : String := "This term cannot be drawn as a hydra"

/-- The outcome of a request. -/
def compute (calculator : Calculator) (request : Request) : Outcome := do
  let calculation ← request.calculation
  let value ← (calculation.limitedValue calculator.limit).mapError .stopped
  let output ← (value.limitedOutput calculator.options calculator.limit).mapError .stopped
  return ⟨value, output⟩

/-- The outline of the hydra of a term, or why there is none. -/
def hydra (calculator : Calculator) (text : Text) : Except ReadError Text := do
  let t ← Reader.read text
  match Limited.rows? calculator.limit t with
  | .error stop => return stop.message.toList
  | .ok none => return noHydra.toList
  | .ok (some rows) => return Row.outline rows

/-- The calculator with one flag the other way round. -/
def toggle (calculator : Calculator) (name : String) : Except UnknownFlag Calculator := do
  return { calculator with options := ← calculator.options.toggle name }

end Calculator

end Collapsing
