import Collapsing.Term.Basic

/-!
# Numerals

The numeral `n` is the sum of `n` copies of `1 = 亞(0, 0)`.

## Main statements

- `numeralValue?_numeral`: the value of the numeral `n` is `n`;
- `eq_numeral_of_numeralValue?`: a term with the value `n` is the numeral `n`.
-/

namespace Collapsing.Term

/-- The numeral `n`: the sum of `n` ones. -/
def numeral (n : Nat) : Term := n.repeat (cons zero zero) zero

/-- The natural number that a numeral stands for; other terms have none. -/
def numeralValue? : Term → Option Nat
  | zero => some 0
  | cons zero zero rest => (numeralValue? rest).map (· + 1)
  | cons _ _ _ => none

/-- Whether all addends of the term are `1`. -/
def isNumeral (t : Term) : Bool := t.numeralValue?.isSome

@[simp] theorem numeral_zero : numeral 0 = zero := rfl

@[simp] theorem numeral_succ (n : Nat) : numeral (n + 1) = cons zero zero (numeral n) := rfl

@[simp] theorem numeralValue?_numeral (n : Nat) : (numeral n).numeralValue? = some n := by
  induction n with
  | zero => rfl
  | succ n ih => rw [numeral_succ, numeralValue?, ih]; rfl

theorem eq_numeral_of_numeralValue? {t : Term} {n : Nat} (h : t.numeralValue? = some n) :
    t = numeral n := by
  fun_induction numeralValue? t generalizing n with
  | case1 => simp_all [← Option.some.inj h]
  | case2 rest ih =>
    obtain ⟨m, hm, rfl⟩ := Option.map_eq_some_iff.1 h
    rw [ih hm, numeral_succ]
  | case3 => simp at h

end Collapsing.Term
