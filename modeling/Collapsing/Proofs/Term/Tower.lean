import Collapsing.Proofs.Term.Successor
import Mathlib.Logic.Function.Iterate

/-!
# Towers

The last row of the table of fundamental sequences nests terms.  Let the argument of `亞(sub, arg)`
have a degree other than `0`, `1` and `ω`; it is `亞(c, 0)` with a successor `c`.  One storey takes
`γ` to `arg[亞(c', γ)]`, where `c'` is the predecessor of `c`.  An element of the sequence is a tower
of such storeys under the subscript `sub`: it begins at `0`, and its height is one more than the
number of ones at the end of the index.

In this row the argument of the element before is needed, so that element has to be a principal
term.  The tower shows that it always is, and with which subscript.

## Main statements

- `expand_eq_storey`: the last row of the table, one storey at a time;
- `expand_eq_tower`: an element as an iterate of one storey.
-/

namespace Collapsing.Term

/-- One storey of a tower in `arg`, whose degree is `亞(c, 0)`. -/
def storey (arg c γ : Term) : Term := arg.expand (psi (c.expand zero) γ)

/-- The last row of the table with the storeys named. -/
theorem expand_eq_storey {arg c : Term} (h : arg.degree = psi c zero) (hc : c.degree = one)
    (sub y : Term) : (psi sub arg).expand y = psi sub (storey arg c (seed sub arg y)) := by
  rw [expand_of_arg_higher h hc, storey, expand_of_successor hc]

/-- **Towers**: where the argument has a higher degree, an element is a tower over `0`, with one
storey more than the index has ones at its end. -/
theorem expand_eq_tower {arg c : Term} (h : arg.degree = psi c zero) (hc : c.degree = one)
    (sub y : Term) :
    (psi sub arg).expand y = psi sub ((storey arg c)^[y.trailingOnes + 1] zero) := by
  induction y using successor_induction with
  | base y hy =>
    have ground : seed sub arg y = zero := if_neg hy
    rw [expand_eq_storey h hc, ground, trailingOnes_of_not_successor hy]
    rfl
  | step y hy ih =>
    -- What is nested is the whole tower of the element before.
    have below : seed sub arg y = (storey arg c)^[y.dropLast.trailingOnes + 1] zero := by
      rw [seed, if_pos hy, ih]
      rfl
    rw [expand_eq_storey h hc, below, trailingOnes_eq_succ hy,
      Function.iterate_succ_apply' (storey arg c) (y.dropLast.trailingOnes + 1)]

end Collapsing.Term
