import Collapsing.Display.Options
import Collapsing.Term.Numeral
import Collapsing.Text.Basic

/-!
# Writing terms in full

A term is written without abbreviations: `0`, the addends of a sum with `+` between them, and a
principal term in one of three forms, `亞(b)`, `亞_a(b)` or `亞(a,b)`.  The flags choose the
form, and whether a subscript is put in braces.

## Main statements

- `write_cons_cons`: a sum is its first addend, `+`, and the rest.
-/

namespace Collapsing.Display

/-! ## §1 Forms of a principal term -/

/-- The form `亞(b)`. -/
def oneOperand (arg : Text) : Text := '亞' :: '(' :: (arg ++ [')'])

/-- The form `亞(a,b)`. -/
def twoOperands (sub arg : Text) : Text := '亞' :: '(' :: (sub ++ ',' :: (arg ++ [')']))

/-- The form `亞_a(b)`. -/
def withSubscript (sub arg : Text) : Text := '亞' :: '_' :: (sub ++ '(' :: (arg ++ [')']))

/-- A text in braces. -/
def braced (text : Text) : Text := '\x7b' :: (text ++ ['\x7d'])

/-! ## §2 Subscripts -/

/-- Whether a subscript may stand without braces: a numeral, or a constant that is going to
be abbreviated to one letter. -/
def isShort (options : Options) (sub : Term) : Bool :=
  sub.isNumeral || (options.omega && sub = .omega) || (options.bigOmega && sub = .bigOmega)

/-- The subscript `sub`, which is written `text`, with braces unless it is short. -/
def subscript (options : Options) (sub : Term) (text : Text) : Text :=
  if !options.braces && !options.tex && isShort options sub then text else braced text

/-- A principal term, given the texts of its two parts. -/
def principal (options : Options) (sub : Term) (subText argText : Text) : Text :=
  if options.dropZero && sub = .zero then oneOperand argText
  else if options.subscripts then withSubscript (subscript options sub subText) argText
  else twoOperands subText argText

/-! ## §3 Terms -/

/-- The full text of a term. -/
def write (options : Options) : Term → Text
  | .zero => ['0']
  | .cons sub arg .zero => principal options sub (write options sub) (write options arg)
  | .cons sub arg (.cons sub' arg' rest) =>
    principal options sub (write options sub) (write options arg) ++
      '+' :: write options (.cons sub' arg' rest)

@[simp] theorem write_zero (options : Options) : write options .zero = ['0'] := rfl

theorem write_psi (options : Options) (sub arg : Term) :
    write options (.psi sub arg) =
      principal options sub (write options sub) (write options arg) := rfl

theorem write_cons_cons (options : Options) (sub arg sub' arg' rest : Term) :
    write options (.cons sub arg (.cons sub' arg' rest)) =
      write options (.psi sub arg) ++ '+' :: write options (.cons sub' arg' rest) := rfl

end Collapsing.Display

namespace Collapsing.Term

/-- The unabbreviated text of a term, with two operands throughout. -/
def text (t : Term) : Text := Display.write Options.plain t

end Collapsing.Term
