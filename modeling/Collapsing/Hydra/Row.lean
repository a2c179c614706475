import Collapsing.Term.Numeral

/-!
# Hydras

A term whose subscripts are numerals can be drawn as a *hydra*: a rooted tree whose nodes are
labelled with numbers.  The tree is stored row by row in pre-order, each row holding the depth
and the label of a node:

- `0` has no rows;
- a sum has the rows of its addends, one addend after another;
- `亞(n, b)` has a row of depth 0 with the label `n`, and the rows of `b` one level deeper.

Only the subscripts that are met on the way through addends and arguments count.

## Main statements

- `rows?_plus`: the rows of a sum are those of its parts, one after the other.
-/

namespace Collapsing

/-- A node of a hydra: how deep it stands, and its label. -/
structure Row where
  depth : Int
  label : Int
  deriving DecidableEq, Repr

namespace Row

/-- The same node one level deeper. -/
def deeper (row : Row) : Row := { row with depth := row.depth + 1 }

/-- The root, which stands above the rows of a term. -/
def root : Row := ⟨-1, 0⟩

end Row

namespace Term

/-- The rows of the hydra of a term, if it can be drawn. -/
def rows? : Term → Option (List Row)
  | zero => some []
  | cons sub arg rest => do
    let label ← sub.numeralValue?
    let below ← rows? arg
    let others ← rows? rest
    return ⟨0, label⟩ :: (below.map Row.deeper ++ others)

@[simp] theorem rows?_zero : rows? zero = some [] := rfl

/-- Adding terms puts their hydras side by side. -/
theorem rows?_plus (s t : Term) :
    rows? (s + t) = (do
      let left ← rows? s
      let right ← rows? t
      return left ++ right) := by
  induction s with
  | zero => cases h : rows? t <;> simp [h]
  | cons sub arg rest _ _ ih =>
    simp only [cons_plus, rows?, ih]
    cases sub.numeralValue? <;> cases rows? arg <;> cases rows? rest <;> cases rows? t <;> simp

end Term

end Collapsing
