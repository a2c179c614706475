import Collapsing.Term.Order

/-!
# Degrees

The degree of a term says how its fundamental sequence is indexed:

- degree `0`: the term is `0` and has no sequence;
- degree `1`: the term is a successor `t + 1`;
- degree `ω`: the sequence is indexed by the natural numbers;
- any other degree is a principal term `亞(c, 0)`, and the sequence is indexed by the terms
  below it.

The last addend of a sum decides.  A principal term `亞(a, b)` with `b ≠ 0` has degree `ω`;
`亞(a, 0)` is its own degree when `a` is `0` or a successor, and has the degree of `a`
otherwise.

## Main statements

- `degree_eq_zero_iff`: only `0` has degree `0`;
- `degree_lastAddend`: the last addend of a sum decides on its degree.
-/

namespace Collapsing.Term

/-- The degree of a term. -/
def degree : Term → Term
  | zero => zero
  | cons _ _ (cons sub arg rest) => degree (cons sub arg rest)
  | cons sub arg zero =>
    if degree arg = zero then
      if degree sub = zero ∨ degree sub = one then psi sub arg else degree sub
    else omega

/-- A successor is a term of degree `1`. -/
def isSuccessor (t : Term) : Bool := t.degree = one

/-- A limit is a term that is neither `0` nor a successor. -/
def isLimit (t : Term) : Bool := t.degree ≠ zero ∧ t.degree ≠ one

theorem isLimit_iff {t : Term} : t.isLimit = true ↔ t.degree ≠ zero ∧ t.degree ≠ one := by
  rw [isLimit, decide_eq_true_eq]

@[simp] theorem degree_zero : zero.degree = zero := rfl

@[simp] theorem degree_cons_cons (s a sub arg rest : Term) :
    (cons s a (cons sub arg rest)).degree = (cons sub arg rest).degree := rfl

theorem degree_psi (sub arg : Term) :
    (psi sub arg).degree =
      if arg.degree = zero then
        if sub.degree = zero ∨ sub.degree = one then psi sub arg else sub.degree
      else omega := rfl

/-- Only `0` has degree `0`. -/
theorem degree_eq_zero_iff {t : Term} : t.degree = zero ↔ t = zero := by
  refine ⟨fun h => ?_, fun h => by rw [h, degree_zero]⟩
  fun_induction degree t with
  | case1 => rfl
  | case2 _ _ _ _ _ ih => exact absurd (ih h) (by simp)
  | case3 => cases h
  | case4 _ _ _ hs => exact absurd (Or.inl h) hs
  | case5 => cases h

/-- A successor is not `0`. -/
theorem ne_zero_of_degree_eq_one {t : Term} (h : t.degree = one) : t ≠ zero := by
  rintro rfl
  cases h

/-- The last addend of a sum decides on its degree. -/
theorem degree_lastAddend (sub arg rest : Term) :
    (lastAddend sub arg rest).degree = (cons sub arg rest).degree := by
  induction rest generalizing sub arg with
  | zero => rfl
  | cons sub' arg' rest _ _ ih => rw [lastAddend, ih, degree_cons_cons]

end Collapsing.Term
