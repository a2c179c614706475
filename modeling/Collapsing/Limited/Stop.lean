import Collapsing.Display.Writer

/-!
# Limited evaluation: why it stops

A calculation on terms is carried out with a limit on the nesting of its steps: comparing,
taking degrees, expanding, writing and drawing each spend one level on every step into a
part of a term, and stop when no level is left.

Expansion also checks the two facts that it relies on, that certain degrees and certain
elements are principal terms, and stops if one of them fails.
-/

namespace Collapsing

/-- Why a limited evaluation stops without a result. -/
inductive Stop where
  /-- The steps are nested too deeply. -/
  | tooDeep
  /-- The degree of an argument is neither `0`, `1`, `ω` nor a principal term. -/
  | irregularDegree (arg degree : Term)
  /-- An element of a fundamental sequence, which is needed for the next one, is not a
  principal term. -/
  | irregularElement (x index element : Term)
  deriving DecidableEq, Repr

/-- A calculation that may stop. -/
abbrev Limited (α : Type) := Except Stop α

namespace Stop

/-- The wording of a calculation that is nested too deeply. -/
def tooDeepMessage : String := "The term is too deeply nested to evaluate"

/-- The wording of a stop. -/
def message : Stop → String
  | tooDeep => tooDeepMessage
  | irregularDegree arg degree =>
    String.ofList ("dom(".toList ++ arg.text ++ ") = ".toList ++ degree.text) ++
      " is not a principal term"
  | irregularElement x index element =>
    String.ofList (x.text ++ '[' :: index.text ++ "] = ".toList ++ element.text) ++
      " is not a principal term"

end Stop

end Collapsing
