import Collapsing.Proofs.Term.Copies

/-!
# Fundamental sequences descend

`x[y] < x` for every index `y` at which the sequence of `x` may be taken: any term if the degree
of `x` is `1` or `ω`, and the terms below the degree otherwise.  Nothing is assumed about the
order of the addends in `x`.

The induction is on `x`.  Where an argument of higher degree `亞(c + 1, 0)` is expanded, its index
`亞(c, γ)` lies below that degree whatever `γ` is, because the subscript decides first.  So the
size of the nested index never matters.

## Main statements

- `isIndex_numeral`: a natural number is a permitted index of every term;
- `expand_lt`: descent for every permitted index.
-/

namespace Collapsing.Term

/-! ## §1 Dropping the last addend -/

theorem dropLast_lt {t : Term} (h : t ≠ zero) : t.dropLast < t := by
  match t with
  | zero => exact absurd rfl h
  | cons sub arg zero => exact zero_lt_cons sub arg zero
  | cons sub arg (cons sub' arg' rest) =>
    rw [dropLast_cons_cons]
    exact cons_lt_cons_of_rest sub arg (dropLast_lt (by simp))

theorem dropLast_lt_of_successor {t : Term} (h : t.degree = one) : t.dropLast < t :=
  dropLast_lt (ne_zero_of_degree_eq_one h)

/-- Where the argument is a successor `a + 1`, the elements are sums of copies of `亞(sub, a)`. -/
theorem expand_lt_of_arg_successor {arg : Term} (h : arg.degree = one) (sub y : Term) :
    (psi sub arg).expand y < psi sub arg := by
  rw [expand_eq_copies h]
  exact copies_lt_psi (dropLast_lt_of_successor h) sub _

/-! ## §2 Descent -/

/-- The indices at which the fundamental sequence of `x` may be taken: all of them if the degree of
`x` is `1` or `ω`, and otherwise those below the degree. -/
def IsIndex (x y : Term) : Prop := x.degree = one ∨ x.degree = omega ∨ y < x.degree

/-- The subscript decides, whatever the argument of the index is. -/
theorem psi_dropLast_lt_degree {x c : Term} (h : x.degree = psi c zero) (hc : c.degree = one)
    (γ : Term) : psi c.dropLast γ < x.degree := by
  rw [h]
  exact cons_lt_cons_of_sub (dropLast_lt_of_successor hc)

theorem isIndex_of_higher {x c : Term} (h : x.degree = psi c zero) (hc : c.degree = one)
    (γ : Term) : IsIndex x (psi c.dropLast γ) :=
  .inr (.inr (psi_dropLast_lt_degree h hc γ))

theorem isIndex_numeral {x : Term} (h : x ≠ zero) (n : Nat) : IsIndex x (numeral n) := by
  rcases degree_range x with h₀ | h₁ | hω | ⟨c, hx, hc⟩
  · exact absurd (degree_eq_zero_iff.1 h₀) h
  · exact .inl h₁
  · exact .inr (.inl hω)
  · refine .inr (.inr ?_)
    rw [hx]
    obtain ⟨sub, arg, rest, rfl⟩ : ∃ sub arg rest, c = cons sub arg rest := by
      cases c with
      | zero => cases hc
      | cons sub arg rest => exact ⟨sub, arg, rest, rfl⟩
    cases n with
    | zero => exact zero_lt_cons _ _ _
    | succ n => exact cons_lt_cons_of_sub (zero_lt_cons sub arg rest)

/-- **Descent**: at an index of its sequence, every element lies below the term. -/
theorem expand_lt {x y : Term} (h : x ≠ zero) (hy : IsIndex x y) : x.expand y < x := by
  induction x generalizing y with
  | zero => exact absurd rfl h
  | cons sub arg rest ih_sub ih_arg ih_rest =>
    cases rest with
    | cons sub' arg' rest' =>
      rw [expand_cons_cons]
      exact cons_lt_cons_of_rest sub arg (ih_rest (by simp) hy)
    | zero =>
      cases shape sub arg with
      | unit =>
        rw [expand_psi_zero degree_zero]
        exact zero_lt_cons _ _ _
      | regular h_sub =>
        rw [expand_psi_zero_of_successor h_sub]
        -- The term is its own degree and neither `1` nor `ω`.
        rw [IsIndex, degree_of_regular h_sub] at hy
        rcases hy with eq | eq | lt
        · cases eq
          cases h_sub
        · cases eq
        · exact lt
      | limitSub h₀ h₁ =>
        -- The index goes to the subscript, which has the same degree.
        rw [expand_psi_zero_of_limit h₀ h₁]
        rw [IsIndex, degree_of_limitSub h₀ h₁] at hy
        have sub_ne : sub ≠ zero := fun eq => h₀ (degree_eq_zero_iff.2 eq)
        exact cons_lt_cons_of_sub (ih_sub sub_ne hy)
      | successorArg h_arg => exact expand_lt_of_arg_successor h_arg sub y
      | omegaArg h_arg =>
        rw [expand_psi_of_arg_omega h_arg]
        have arg_ne : arg ≠ zero := by
          rintro rfl
          cases h_arg
        exact cons_lt_cons_of_arg sub (ih_arg arg_ne (.inr (.inl h_arg)))
      | higherArg h_arg hc =>
        -- Whatever the seed is, the nested index is permitted.
        rw [expand_of_arg_higher h_arg hc]
        have arg_ne : arg ≠ zero := by
          rintro rfl
          cases h_arg
        exact cons_lt_cons_of_arg sub (ih_arg arg_ne (isIndex_of_higher h_arg hc _))

/-- **Fundamental sequences descend**: an element lies below its term at every permitted index, and
so at every natural number, in whatever order the addends stand. -/
theorem fundamentalSequence_descends :
    (∀ x y : Term, x ≠ zero → (x.degree = one ∨ x.degree = omega ∨ lessThan y x.degree = true) →
      lessThan (x.expand y) x = true) ∧
    ∀ (x : Term) (n : Nat), x ≠ zero → lessThan (x.expand (numeral n)) x = true :=
  ⟨fun _ _ h hy => expand_lt h hy, fun _ n h => expand_lt h (isIndex_numeral h n)⟩

/-- A collapse of a higher argument below an index of higher degree, and an ascending sum. -/
theorem fundamentalSequence_descends_nested :
    lessThan ((psi zero (psi one bigOmega)).expand bigOmega) (psi zero (psi one bigOmega)) = true ∧
    lessThan ((one + bigOmega).expand omega) (one + bigOmega) = true ∧
    lessThan ((omega + psi zero bigOmega).expand (numeral 2)) (omega + psi zero bigOmega) = true :=
  ⟨fundamentalSequence_descends.1 _ bigOmega (by simp) (.inr (.inl (by decide))),
    fundamentalSequence_descends.1 _ omega (by simp) (.inr (.inr (by decide))),
    fundamentalSequence_descends.2 _ 2 (by simp)⟩

end Collapsing.Term
