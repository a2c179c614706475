import Collapsing.Calculator.Argument
import Collapsing.Calculator.Session

/-!
# The command line

The command line asks for one calculation, or for a session if it has no operand.  Its operands
are an operation, `A` and `B`; any of them may be missing, from the right.

Operands are distributed once, to the first run of arguments that are no options.  All later
ones are too many.  Arguments are looked at from left to right, and the first of them that asks
for help or is in the wrong decides; an argument that is unknown or too many is reported only
when the end has been reached.

A result goes to the standard output with exit code 0, a failure to the standard error with
exit code 1.
-/

namespace Collapsing.CommandLine

/-! ## §1 Invocations -/

/-- What the first operand may ask for. -/
inductive Verb where
  | compute (operation : Operation)
  | hydra
  deriving DecidableEq, Repr

/-- The verb that a word stands for. -/
def Verb.ofWord? (word : String) : Option Verb :=
  if word = "hydra" then some .hydra else (Operation.ofWord? word).map .compute

/-- A command line that has been understood. -/
structure Invocation where
  verb : Option Verb := none
  a : Option Text := none
  b : Option Text := none
  options : Options := {}
  deriving DecidableEq, Repr

/-- A command line that has been read up to some argument. -/
structure Progress where
  invocation : Invocation := {}
  /-- Whether operands have been distributed. -/
  distributed : Bool := false
  /-- Whether some argument is unknown or too many. -/
  surplus : Bool := false
  deriving DecidableEq, Repr

/-- Why a command line ends without an invocation. -/
inductive Ending where
  /-- Help was asked for. -/
  | help
  /-- The command line is wrong. -/
  | misuse
  deriving DecidableEq, Repr

/-! ## §2 Operands -/

/-- The operand for the next place, and the remaining arguments.  Separators before and after
the operand belong to the place.  Without one of them, the operand `--` counts as missing. -/
def takePlace (run : List Argument) : Option Text × List Argument :=
  let lead := run.takeWhile (· = .separator)
  match run.dropWhile (· = .separator) with
  | .operand text :: rest =>
    let separated := !lead.isEmpty || rest.head? = some .separator
    (if text = ['-', '-'] && !separated then none else some text,
      rest.dropWhile (· = .separator))
  | rest => (none, rest)

/-- The progress after a run of operands.  `none` means that the first operand is no verb. -/
def Progress.distribute (progress : Progress) (run : List Argument) : Option Progress :=
  if progress.distributed then some { progress with surplus := true }
  else
    let (word, run) := takePlace run
    let (a, run) := takePlace run
    let (b, run) := takePlace run
    let surplus := progress.surplus || !run.isEmpty
    match word with
    -- Without an operation a session is asked for.
    | none => some ⟨{ progress.invocation with a, b }, true, surplus⟩
    | some word =>
      (Verb.ofWord? (String.ofList word)).map fun verb =>
        ⟨{ progress.invocation with verb, a, b }, true, surplus⟩

/-- The progress after an option. -/
def Progress.apply (progress : Progress) : LongOption → Progress
  | .flag flag =>
    let options := progress.invocation.options.set flag true
    { progress with invocation := { progress.invocation with options } }
  | _ => progress

/-- The invocation that the remaining arguments lead to. -/
def interpret (progress : Progress) : List Argument → Except Ending Invocation
  | [] => if progress.surplus then .error .misuse else .ok progress.invocation
  -- Help ends the command line, whatever comes after it.
  | .option .help :: _ => .error .help
  | .option option :: rest => interpret (progress.apply option) rest
  | .refusedValue :: _ => .error .misuse
  | .unknown :: rest => interpret { progress with surplus := true } rest
  | argument :: rest =>
    -- A run of operands is distributed as a whole.
    match progress.distribute (argument :: rest.takeWhile Argument.isPositional) with
    | none => .error .misuse
    | some next => interpret next (rest.dropWhile Argument.isPositional)
termination_by arguments => arguments.length
decreasing_by
  · simp
  · simp
  · have := (List.dropWhile_sublist (l := rest) Argument.isPositional).length_le
    simp only [List.length_cons]
    omega

/-- The invocation that a command line stands for. -/
def parse (texts : List Text) : Except Ending Invocation :=
  match arguments texts with
  | none => .error .misuse
  | some arguments => interpret {} arguments

/-! ## §3 Running -/

/-- What a program leaves behind: its exit code, and what it has printed. -/
structure Report where
  exitCode : Nat
  output : Text
  errors : Text
  deriving DecidableEq, Repr

/-- The report of a result. -/
def Report.ofResult (text : Text) : Report := ⟨0, Text.unlines [text], []⟩

/-- The report of a failure. -/
def Report.ofFailure (message : String) : Report := ⟨1, [], Text.unlines [errorLine message]⟩

/-- The calculator that an invocation asks for. -/
def Invocation.calculator (invocation : Invocation) : Calculator :=
  { options := invocation.options }

/-- The report on an invocation with an operation or on a hydra; `none` if a session is asked
for. -/
def Invocation.report? (invocation : Invocation) : Option Report :=
  match invocation.verb, invocation.a with
  | none, _ => none
  | some _, none => some (.ofFailure "term A is required")
  | some .hydra, some a =>
    match invocation.calculator.hydra a with
    | .ok text => some (.ofResult text)
    | .error e => some (.ofFailure e.message)
  | some (.compute operation), some a =>
    match invocation.calculator.compute ⟨operation, some a, invocation.b⟩ with
    | .ok success => some (.ofResult success.output)
    | .error failure => some (.ofFailure failure.message)

/-- The report on a command line, where the given lines are the input of a session. -/
def run (texts lines : List Text) : Except Ending Report := do
  let invocation ← parse texts
  match invocation.report? with
  | some report => return report
  | none => return ⟨0, invocation.calculator.transcript lines, []⟩

end Collapsing.CommandLine
