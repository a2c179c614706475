import Collapsing.Calculator.Basic
import Collapsing.Text.Blank

/-!
# Interactive sessions

A session is a conversation with a calculator, line by line.  A line is trimmed; its command
is what stands before the first space, and what follows is cut at the first `;` into two
operands, which are trimmed as well.  Blank lines are passed over.

The display options are all that a session remembers.

## Main statements

- `converse_leave`: a line that leaves the session is the last one that is answered;
- `converse_of_respond`: any other line is answered, and the rest goes on from there.
-/

namespace Collapsing

/-! ## §1 Commands -/

/-- The operation that a user asks for by the given word. -/
def Operation.ofWord? (word : String) : Option Operation :=
  match word with
  | "fund" => some .fund
  | "dom" => some .dom
  | "lt" | "less_than" => some .lessThan
  | _ => none

/-- A line of a session. -/
inductive Command where
  /-- A line without a word. -/
  | blank
  /-- The end of the session. -/
  | leave
  /-- The list of commands is asked for. -/
  | help
  /-- An operation on two operands. -/
  | compute (operation : Operation) (a b : Text)
  /-- The outline of the hydra of a term. -/
  | hydra (a : Text)
  /-- The flag of the given name is put the other way round. -/
  | set (name : Text)
  /-- The list of flags is asked for. -/
  | options
  /-- Any other word. -/
  | unknown (word : Text)
  deriving DecidableEq, Repr

/-- The command that a line gives. -/
def Command.ofLine (line : Text) : Command :=
  match Text.trim line with
  | [] => .blank
  | trimmed =>
    let (word, rest) := Text.cut ' ' trimmed
    let (left, right) := Text.cut ';' rest
    let a := Text.trim left
    let b := Text.trim right
    match String.ofList word with
    | "quit" | "exit" => .leave
    | "help" => .help
    | "hydra" => .hydra a
    | "set" => .set a
    | "options" => .options
    | name =>
      match Operation.ofWord? name with
      | some operation => .compute operation a b
      | none => .unknown word

/-! ## §2 Replies -/

/-- What a session prints before its first line. -/
def banner : List String := ["亞 function calculator", "Type 'help' for commands"]

/-- The list of commands. -/
def helpLines : List String :=
  ["  fund A ; B      compute A[B]",
   "  dom A           compute dom(A)",
   "  lt A ; B        decide A < B",
   "  hydra A         show A as a hydra",
   "  set NAME        toggle a render option (see 'options')",
   "  options         list render options",
   "  quit            leave",
   "",
   "  Terms: 亞(a,b), 亞_\x7ba\x7d(b), 亞(b) = 亞(0,b), sums a+b, numerals,",
   "  ω = 亞(0,1), Ω = 亞(1,0). Type A for 亞, w for ω, W for Ω."]

/-- The state of a flag in words. -/
def stateText (isOn : Bool) : Text := if isOn then "True".toList else "False".toList

/-- The line that lists a flag. -/
def flagLine (options : Options) (flag : Flag) : Text :=
  ' ' :: ' ' :: Text.padRight 25 flag.name.toList ++ ' ' :: stateText (options.isOn flag)

namespace Calculator

/-- The lines that answer a command, and the calculator afterwards; `none` ends the
session. -/
def respond (calculator : Calculator) : Command → Option (List Text × Calculator)
  | .blank => some ([], calculator)
  | .leave => none
  | .help => some (helpLines.map String.toList, calculator)
  | .compute operation a b =>
    some ([(calculator.compute ⟨operation, some a, some b⟩).line], calculator)
  | .hydra a =>
    match calculator.hydra a with
    | .ok text => some ([text], calculator)
    | .error e => some ([errorLine e.message], calculator)
  | .set name =>
    let name := String.ofList name
    match calculator.toggle name with
    | .ok next =>
      let state := stateText ((Flag.ofName? name).any next.options.isOn)
      some ([name.toList ++ " = ".toList ++ state], next)
    | .error unknown => some ([errorLine unknown.message], calculator)
  | .options => some (Flag.all.map (flagLine calculator.options), calculator)
  | .unknown word => some (["Unknown command: ".toList ++ word], calculator)

/-- The replies to the lines of a session, up to the line that leaves it, and the calculator
at the end.  The line that leaves has an empty reply, and later lines have none. -/
def converse (calculator : Calculator) : List Text → List Text × Calculator
  | [] => ([], calculator)
  | line :: lines =>
    match calculator.respond (Command.ofLine line) with
    | none => ([[]], calculator)
    | some (reply, next) =>
      let (replies, last) := next.converse lines
      (Text.unlines reply :: replies, last)

theorem converse_leave {calculator : Calculator} {line : Text} (lines : List Text)
    (h : calculator.respond (Command.ofLine line) = none) :
    calculator.converse (line :: lines) = ([[]], calculator) := by
  rw [converse, h]

theorem converse_of_respond {calculator next : Calculator} {line : Text} {reply : List Text}
    (lines : List Text) (h : calculator.respond (Command.ofLine line) = some (reply, next)) :
    calculator.converse (line :: lines) =
      (Text.unlines reply :: (next.converse lines).1, (next.converse lines).2) := by
  rw [converse, h]

/-- Everything that a session prints, from the banner on. -/
def transcript (calculator : Calculator) (lines : List Text) : Text :=
  Text.unlines (banner.map String.toList) ++ (calculator.converse lines).1.flatten

end Calculator

end Collapsing
