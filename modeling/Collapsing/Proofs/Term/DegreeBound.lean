import Collapsing.Proofs.Term.NormalForm

/-!
# Degrees of normal terms

The degree of a term is a constant or a term that stands somewhere inside it: the last addend decides,
then the last addend of its subscript, and so on.  On the way into a subscript terms become smaller.
On the way to the last addend of a sum they may become larger, as from `1 + Ω` to `Ω`, which is its
degree; but not if no addend lies below the next one.  So a normal term is never exceeded by its
degree.

## Main statements

- `IsNormal.rest_lt`: what stands behind the first addend of a normal sum lies below the sum;
- `IsNormal.degree_le`: the degree of a normal term is at most the term.
-/

namespace Collapsing.Term

/-- A normal sum lies above what stands behind its first addend. -/
theorem IsNormal.rest_lt {sub arg rest : Term} (h : IsNormal (cons sub arg rest)) :
    rest < cons sub arg rest := by
  induction rest generalizing sub arg with
  | zero => exact zero_lt_cons sub arg zero
  | cons sub' arg' rest' _ _ ih_rest =>
    obtain ⟨_, _, order, h_rest⟩ := h
    rcases lt_or_eq_of_le (not_lt.1 order) with below | same
    · exact cons_lt_cons_of_psi rest' _ below
    · -- Two equal addends stand at the front, so the remainders behind them decide.
      cases same
      exact cons_lt_cons_of_rest sub' arg' (ih_rest h_rest)

/-- Among the principal terms with an argument other than `0`, the least one is `ω`. -/
theorem omega_le_psi {arg : Term} (h : arg ≠ zero) (sub : Term) : omega ≤ psi sub arg := by
  apply not_lt.1
  intro lt
  rcases cons_lt_cons_iff.1 lt with lt_sub | ⟨_, lt_arg | ⟨_, lt_rest⟩⟩
  · exact not_lt_zero sub lt_sub
  · exact h (lt_one_iff.1 lt_arg)
  · exact not_lt_zero zero lt_rest

/-- **Degrees of normal terms**: the degree of a normal term is at most the term. -/
theorem IsNormal.degree_le {t : Term} (h : IsNormal t) : t.degree ≤ t := by
  fun_induction Term.degree t with
  | case1 => exact le_refl zero
  | case2 s a sub arg rest ih =>
    have h_rest : IsNormal (cons sub arg rest) := h.2.2.2
    calc (cons sub arg rest).degree ≤ cons sub arg rest := ih h_rest
      _ ≤ cons s a (cons sub arg rest) := le_of_lt h.rest_lt
  | case3 sub arg => exact le_refl (psi sub arg)
  | case4 sub arg _ _ _ ih_sub =>
    calc sub.degree ≤ sub := ih_sub h.1
      _ ≤ psi sub arg := le_of_lt (sub_lt_cons sub arg zero)
  | case5 sub arg limit =>
    have arg_ne : arg ≠ zero := mt degree_eq_zero_iff.2 limit
    exact omega_le_psi arg_ne sub

-- The addends of `1 + Ω` ascend.
example : ¬ (one + bigOmega).degree ≤ one + bigOmega := by decide

end Collapsing.Term
