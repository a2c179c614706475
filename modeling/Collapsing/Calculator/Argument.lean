import Collapsing.Display.Options
import Collapsing.Text.Digit

/-!
# Command-line arguments

An argument is an operand, an option, or the separator `--` after which everything is an
operand.

- Options begin with two hyphens and may be shortened as long as they stay unambiguous; `-h`
  asks for help, and so does a cluster such as `-hh` or `-h=h`.
- No option takes a value, so `--tex=1` and `-hx` are refused.
- The empty text, a single hyphen, a negative number and anything with a space in it that is no
  option are operands, although they may begin with a hyphen.

## Main statements

- `classify_operand`: an argument that does not begin with a hyphen is an operand.
-/

namespace Collapsing.CommandLine

/-! ## §1 Options -/

/-- The options with a long name. -/
inductive LongOption where
  /-- Help is asked for. -/
  | help
  /-- A display flag is put on. -/
  | flag (flag : Flag)
  /-- The calculation is to be logged. -/
  | verbose
  deriving DecidableEq, Repr

namespace LongOption

/-- How a long option is spelt. -/
def spelling : LongOption → String
  | help => "--help"
  | flag .omega => "--omega"
  | flag .bigOmega => "--big-omega"
  | flag .subscripts => "--subscript"
  | flag .braces => "--braces"
  | flag .dropZero => "--drop-zero"
  | flag .tex => "--tex"
  | verbose => "--verbose"

/-- All long options. -/
def all : List LongOption := help :: Flag.all.map flag ++ [verbose]

/-- The long options that a text is the beginning of. -/
def candidates (text : Text) : List LongOption :=
  all.filter fun option => text.isPrefixOf option.spelling.toList

end LongOption

/-! ## §2 Arguments -/

/-- An argument of the command line. -/
inductive Argument where
  /-- A text that the command line is about. -/
  | operand (text : Text)
  /-- The first `--`. -/
  | separator
  /-- An option, written out or shortened. -/
  | option (option : LongOption)
  /-- An option with a value that it does not take. -/
  | refusedValue
  /-- Something that looks like an option and is none. -/
  | unknown
  deriving DecidableEq, Repr

/-- Whether an argument takes part in the distribution of operands. -/
def Argument.isPositional : Argument → Bool
  | .operand _ | .separator => true
  | _ => false

/-- Whether a text is a negative number, given what follows the hyphen.  One line feed at the
end does not matter. -/
def isNegativeNumber (rest : Text) : Bool :=
  Text.isNumber (if rest.getLast? = some '\n' then rest.dropLast else rest)

/-- An argument with a hyphen in front that is no known option. -/
def classifyOther (rest : Text) : Argument :=
  if isNegativeNumber rest || rest.contains ' ' then .operand ('-' :: rest) else .unknown

/-- An argument with two hyphens in front, the first of which is left out.  `none` stands for an
ambiguous option. -/
def classifyLong (rest : Text) : Option Argument :=
  let (name, _) := Text.cut '=' rest
  match LongOption.candidates ('-' :: name) with
  | [] => some (classifyOther rest)
  | [option] => some (if rest.contains '=' then .refusedValue else .option option)
  | _ => none

/-- An argument that begins with `-h`, given what follows.  More letters `h` may follow, also
behind a sign `=`; anything else would be a value, and is refused. -/
def classifyCluster : Text → Argument
  | ['='] => .refusedValue
  | '=' :: letters | letters =>
    if letters.all (· = 'h') then .option .help else .refusedValue

/-- What kind of argument a text is, apart from a separator.  `none` stands for an ambiguous
option. -/
def classify : Text → Option Argument
  -- One hyphen and a letter: only `-h` is known.
  | '-' :: 'h' :: rest => some (classifyCluster rest)
  | '-' :: '-' :: rest => classifyLong ('-' :: rest)
  | ['-'] => some (.operand ['-'])
  | '-' :: rest => some (classifyOther rest)
  | text => some (.operand text)

/-- The arguments of a command line; `none` if one of them is ambiguous. -/
def arguments : List Text → Option (List Argument)
  | [] => some []
  -- After the separator nothing is classified any more.
  | ['-', '-'] :: rest => some (.separator :: rest.map .operand)
  | text :: rest => do
    let argument ← classify text
    let others ← arguments rest
    return argument :: others

theorem classify_operand {c : Char} (rest : Text) (h : c ≠ '-') :
    classify (c :: rest) = some (.operand (c :: rest)) := by
  unfold classify
  split <;> simp_all

end Collapsing.CommandLine
