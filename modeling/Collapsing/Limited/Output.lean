import Collapsing.Display.Abbreviation
import Collapsing.Hydra.Row
import Collapsing.Limited.Stop

/-!
# Limited evaluation: output

Writing a term and collecting the rows of its hydra, with a budget of nested steps.  Writing
spends one level on each step into an addend or an operand.  The rows of a sum are those of
its first addend and, one level deeper, those of the rest.  Shortening a text is no step into a
term and costs nothing.
-/

namespace Collapsing.Limited

/-- The full text of a term.  The argument is written first, and a subscript that is dropped
is not written at all. -/
def write (options : Options) : (budget : Nat) → Term → Limited Text
  | 0, _ => throw .tooDeep
  | _ + 1, .zero => return ['0']
  | budget + 1, .psi sub arg => do
    let argText ← write options budget arg
    let subText ← if options.dropZero && sub = .zero then pure [] else write options budget sub
    return Display.principal options sub subText argText
  | budget + 1, .cons sub arg (.cons sub' arg' rest) =>
    addendwise (write options budget) sub arg (.cons sub' arg' rest)
where
  /-- The texts of the addends, from the given first one on, with `+` between them. -/
  addendwise (text : Term → Limited Text) (sub arg : Term) : Term → Limited Text
    | .zero => text (.psi sub arg)
    | .cons sub' arg' rest => do
      let first ← text (.psi sub arg)
      return first ++ '+' :: (← addendwise text sub' arg' rest)

/-- A term as it is printed. -/
def formatOutput (options : Options) (budget : Nat) (t : Term) : Limited Text := do
  let text ← write options budget t
  return Display.present options (Display.abbreviate options text)

/-- The rows of the hydra of a term, if it can be drawn.  What comes after a part that cannot
be drawn is not looked at. -/
def rows? : (budget : Nat) → Term → Limited (Option (List Row))
  | 0, _ => throw .tooDeep
  | _ + 1, .zero => return some []
  | budget + 1, .psi sub arg =>
    match sub.numeralValue? with
    | none => return none
    | some label => do
      match ← rows? budget arg with
      | none => return none
      | some below => return some (⟨0, label⟩ :: below.map Row.deeper)
  | budget + 1, .cons sub arg (.cons sub' arg' rest) => do
    match ← rows? budget (.psi sub arg) with
    | none => return none
    | some first =>
      match ← rows? budget (.cons sub' arg' rest) with
      | none => return none
      | some others => return some (first ++ others)

end Collapsing.Limited
