import Collapsing.Proofs.Term.LinearOrder
import Collapsing.Proofs.Term.Successor
import Mathlib.Order.Lattice

/-!
# Copies

Where the argument of a principal term is a successor `a + 1`, the elements of its fundamental
sequence are the multiples of `亞(sub, a)`.  The index is followed down to its first predecessor that
is no successor, and each step adds one copy; so there are as many copies as the index has ones at
its end.  The numerals themselves are the multiples of `1`.

## Main statements

- `copies_plus`: multiples of the same term are added by adding the numbers of copies;
- `copies_succ_eq_plus`: the last copy may be split off like the first one;
- `addends_copies`: the addends of a multiple;
- `copies_strictMono`: more copies make a larger term;
- `expand_eq_copies`: an element as a multiple.
-/

namespace Collapsing.Term

/-! ## §1 Multiples of a principal term -/

/-- The sum of `n` copies of `亞(sub, arg)`. -/
def copies (sub arg : Term) (n : Nat) : Term := n.repeat (cons sub arg) zero

section Copies

variable (sub arg : Term)

@[simp] theorem copies_zero : copies sub arg 0 = zero := rfl

@[simp] theorem copies_succ (n : Nat) :
    copies sub arg (n + 1) = cons sub arg (copies sub arg n) := rfl

theorem copies_plus (m n : Nat) :
    copies sub arg m + copies sub arg n = copies sub arg (m + n) := by
  induction m with
  | zero => rw [copies_zero, zero_plus, Nat.zero_add]
  | succ m ih => rw [copies_succ, cons_plus, ih, Nat.succ_add, copies_succ]

theorem copies_succ_eq_plus (n : Nat) :
    copies sub arg (n + 1) = copies sub arg n + psi sub arg :=
  (copies_plus sub arg n 1).symm

theorem addends_copies (n : Nat) :
    (copies sub arg n).addends = List.replicate n (psi sub arg) := by
  induction n with
  | zero => rfl
  | succ n ih => rw [copies_succ, addends_cons, ih, List.replicate_succ]

theorem copies_strictMono : StrictMono (copies sub arg) := by
  apply strictMono_nat_of_lt_succ
  intro n
  rw [copies_succ_eq_plus]
  exact lt_plus_cons _ sub arg zero

end Copies

theorem copies_lt_psi {arg arg' : Term} (h : arg < arg') (sub : Term) (n : Nat) :
    copies sub arg n < psi sub arg' := by
  cases n with
  | zero => exact zero_lt_cons sub arg' zero
  | succ n => exact cons_lt_cons_of_arg sub h

/-! ## §2 Numerals -/

theorem numeral_eq_copies (n : Nat) : numeral n = copies zero zero n := rfl

theorem numeral_succ_eq_plus_one (n : Nat) : numeral (n + 1) = numeral n + one :=
  copies_succ_eq_plus zero zero n

theorem numeral_plus (m n : Nat) : numeral m + numeral n = numeral (m + n) :=
  copies_plus zero zero m n

theorem numeral_strictMono : StrictMono numeral := copies_strictMono zero zero

@[simp] theorem trailingOnes_numeral (n : Nat) : (numeral n).trailingOnes = n := by
  induction n with
  | zero => rfl
  | succ n ih => rw [numeral_succ_eq_plus_one, trailingOnes_plus_one, ih]

/-! ## §3 The row that copies -/

/-- **Multiples**: where the argument is a successor `a + 1`, an element is a sum of copies of
`亞(sub, a)`, one for each of the ones at the end of the index. -/
theorem expand_eq_copies {arg : Term} (h : arg.degree = one) (sub y : Term) :
    (psi sub arg).expand y = copies sub arg.dropLast y.trailingOnes := by
  induction y using successor_induction with
  | base y hy =>
    rw [expand_psi_of_arg_successor_of_not h hy, trailingOnes_of_not_successor hy, copies_zero]
  | step y hy ih =>
    rw [expand_psi_of_arg_successor h hy, ih, trailingOnes_eq_succ hy, copies_succ_eq_plus]

end Collapsing.Term
