import Collapsing.Proofs.Limited.Settling
import Collapsing.Proofs.Term.Tower

/-!
# Limited expansion settles

Limited expansion does more than the unlimited one: it takes predecessors of indices by expanding
them at `0`, works out all degrees that it needs, and checks that a degree and an element are
principal terms before it takes them apart.  It settles on the unlimited element all the same, so
neither check ever fails.

The two rows of the table that go along the index are followed by recursion on the index; in the row
that nests, the element that is taken apart is a tower under the subscript, hence a principal term.
For the other rows the recursion is on the term.

## Main statements

- `settles_expand`: limited expansion settles on the element;
- `expansion_regular`: towers, and no irregular stop.
-/

namespace Collapsing.Limited

open Term (zero one omega psi)

/-! ## §1 Predecessors -/

theorem lastAddend_eq_psi (sub arg rest : Term) :
    ∃ s a, Term.lastAddend sub arg rest = psi s a := by
  induction rest generalizing sub arg with
  | zero => exact ⟨sub, arg, rfl⟩
  | cons sub' arg' _ _ _ ih => exact ih sub' arg'

theorem lastAddend_of_successor {sub arg rest : Term} (h : (Term.cons sub arg rest).degree = one) :
    Term.lastAddend sub arg rest = one := by
  obtain ⟨s, a, eq⟩ := lastAddend_eq_psi sub arg rest
  rw [← Term.degree_lastAddend, eq, Term.degree_psi_eq_one_iff] at h
  rw [eq, h]

theorem settles_expand_one (y : Term) : Settles (fun budget => expand budget one y) zero := by
  refine .spend rfl ?_
  simp only [expand]
  -- The degrees of both operands of `1` are worked out first.
  exact (settles_degree zero).bind ((settles_degree zero).bind (.pure zero))

/-- Expanding a successor gives its predecessor, at every index. -/
theorem settles_expand_of_successor {t : Term} (h : t.degree = one) (y : Term) :
    Settles (fun budget => expand budget t y) t.dropLast := by
  match t with
  | .zero => cases h
  | .psi sub arg =>
    rw [Term.degree_psi_eq_one_iff.1 h]
    exact settles_expand_one y
  | .cons s a (.cons sub arg rest) =>
    have last : Term.lastAddend sub arg rest = one := lastAddend_of_successor h
    refine .spend rfl ?_
    simp only [expand, last]
    refine (settles_expand_one y).bind ?_
    rw [Term.plus_zero]
    exact .pure _

/-! ## §2 The rows that go along the index -/

theorem settles_expand_of_arg_successor {arg : Term} (h : arg.degree = one) (sub y : Term) :
    Settles (fun budget => expand budget (psi sub arg) y) ((psi sub arg).expand y) := by
  refine .spend rfl ?_
  simp only [expand]
  refine (settles_degree sub).bind ((settles_degree arg).bind ?_)
  simp only [h]
  refine (settles_degree y).bind ?_
  by_cases hy : y.degree = one
  · have before := settles_expand_of_arg_successor h sub y.dropLast
    simp only [if_pos hy, Term.expand_psi_of_arg_successor h hy]
    -- The predecessor of the index, the element before, and the predecessor of the argument.
    refine (settles_expand_of_successor hy zero).bind (before.bind ?_)
    exact (settles_expand_of_successor h zero).bind (.pure _)
  · simp only [if_neg hy, Term.expand_psi_of_arg_successor_of_not h hy]
    exact .pure _
termination_by sizeOf y
decreasing_by exact Term.sizeOf_dropLast_lt (Term.ne_zero_of_degree_eq_one hy)

theorem settles_expand_of_arg_higher {arg c : Term} (h : arg.degree = psi c zero)
    (hc : c.degree = one) (ih_arg : ∀ y, Settles (fun budget => expand budget arg y) (arg.expand y))
    (sub y : Term) :
    Settles (fun budget => expand budget (psi sub arg) y) ((psi sub arg).expand y) := by
  refine .spend rfl ?_
  simp only [expand]
  refine (settles_degree sub).bind ((settles_degree arg).bind ?_)
  have inner := settles_expand_of_successor hc zero
  rw [Term.expand_of_arg_higher h hc, Term.seed, h]
  -- The rows above are passed over because `c` is not `0`.
  cases c with
  | zero => cases hc
  | cons cs ca cr =>
    simp only
    refine (settles_degree y).bind ?_
    by_cases hy : y.degree = one
    · have before := settles_expand_of_arg_higher h hc ih_arg sub y.dropLast
      -- The element before is a tower under `sub`, so it can be taken apart.
      rw [Term.expand_eq_tower h hc] at before ⊢
      simp only [if_pos hy]
      refine (settles_expand_of_successor hy zero).bind (before.bind ?_)
      exact inner.bind ((ih_arg _).bind (.pure _))
    · simp only [if_neg hy]
      exact inner.bind ((ih_arg _).bind (.pure _))
termination_by sizeOf y
decreasing_by exact Term.sizeOf_dropLast_lt (Term.ne_zero_of_degree_eq_one hy)

/-! ## §3 All rows -/

theorem settles_expand_psi {sub arg : Term}
    (ih_sub : ∀ y, Settles (fun budget => expand budget sub y) (sub.expand y))
    (ih_arg : ∀ y, Settles (fun budget => expand budget arg y) (arg.expand y)) (y : Term) :
    Settles (fun budget => expand budget (psi sub arg) y) ((psi sub arg).expand y) := by
  cases Term.shape sub arg with
  | unit =>
    rw [Term.expand_psi_zero Term.degree_zero]
    exact settles_expand_one y
  | regular h_sub =>
    refine .spend rfl ?_
    simp only [expand]
    refine (settles_degree sub).bind ((settles_degree zero).bind ?_)
    simp only [Term.degree_zero, h_sub, Term.expand_psi_zero_of_successor h_sub]
    exact .pure y
  | limitSub h₀ h₁ =>
    refine .spend rfl ?_
    simp only [expand]
    refine (settles_degree sub).bind ((settles_degree zero).bind ?_)
    simp only [Term.degree_zero, Term.expand_psi_zero_of_limit h₀ h₁]
    exact (ih_sub y).bind (.pure _)
  | successorArg h_arg => exact settles_expand_of_arg_successor h_arg sub y
  | omegaArg h_arg =>
    refine .spend rfl ?_
    simp only [expand]
    refine (settles_degree sub).bind ((settles_degree arg).bind ?_)
    simp only [h_arg, Term.expand_psi_of_arg_omega h_arg]
    exact (ih_arg y).bind (.pure _)
  | higherArg h_arg hc => exact settles_expand_of_arg_higher h_arg hc ih_arg sub y

theorem expand_cons_eq_plus (sub arg rest y : Term) :
    (Term.cons sub arg rest).expand y =
      (Term.cons sub arg rest).dropLast + (Term.lastAddend sub arg rest).expand y := by
  induction rest generalizing sub arg with
  | zero => rfl
  | cons sub' arg' rest _ _ ih =>
    rw [Term.expand_cons_cons, ih, Term.dropLast_cons_cons, Term.cons_plus, Term.lastAddend]

/-- **Limited expansion settles** on the element of the fundamental sequence. -/
theorem settles_expand (x y : Term) : Settles (fun budget => expand budget x y) (x.expand y) := by
  match x with
  | .zero =>
    refine .spend rfl ?_
    rw [Term.expand_zero]
    exact .pure zero
  | .psi sub arg => exact settles_expand_psi (settles_expand sub) (settles_expand arg) y
  | .cons s a (.cons sub arg rest) =>
    -- Of a sum only the last addend is expanded, and it is put back behind the others.
    have last := settles_expand (Term.lastAddend sub arg rest) y
    refine .spend rfl ?_
    rw [expand_cons_eq_plus]
    simp only [expand]
    exact last.bind (.pure _)
termination_by sizeOf x
decreasing_by
  · exact Term.sizeOf_sub_lt ..
  · exact Term.sizeOf_arg_lt ..
  · have smaller := sizeOf_lastAddend_le sub arg rest
    have rest_lt := Term.sizeOf_rest_lt s a (.cons sub arg rest)
    omega

/-! ## §4 Regularity -/

/-- **Expansion is regular**: a degree other than `0`, `1` and `ω` is `亞(c, 0)` with a successor
`c`, and the elements of `亞(sub, arg)` with an argument of such a degree are towers under `sub`;
limited expansion gives no other answer than the element, and stops for no other reason than that
its steps are nested too deeply, which they are not from some budget on. -/
theorem expansion_regular :
    (∀ sub arg : Term, arg.degree ≠ zero → arg.degree ≠ one → arg.degree ≠ omega →
      ∃ c, arg.degree = psi c zero ∧ c.degree = one ∧
        (∀ y : Term, (psi sub arg).expand y =
          psi sub ((fun γ => arg.expand (psi (c.expand zero) γ))^[y.trailingOnes + 1] zero)) ∧
        ∀ y : Term, ∃ γ, (psi sub arg).expand (y.expand zero) = psi sub γ) ∧
    (∀ (budget : Nat) (x y : Term),
      expand budget x y = .ok (x.expand y) ∨ expand budget x y = .error .tooDeep) ∧
    ∀ x y : Term, ∃ least, ∀ budget, least ≤ budget → expand budget x y = .ok (x.expand y) := by
  refine ⟨?_, fun budget x y => (settles_expand x y).agrees budget,
    fun x y => (settles_expand x y).eventually⟩
  intro sub arg h₀ h₁ hω
  obtain ⟨c, h, hc⟩ := Term.degree_higher h₀ h₁ hω
  refine ⟨c, h, hc, Term.expand_eq_tower h hc sub, ?_⟩
  intro y
  exact ⟨_, Term.expand_eq_tower h hc sub (y.expand zero)⟩

/-- An index that ends in one `1` builds two storeys. -/
theorem expansion_regular_two_storeys :
    (psi (.numeral 2) zero).degree ≠ zero ∧ (psi (.numeral 2) zero).degree ≠ one ∧
      (psi (.numeral 2) zero).degree ≠ omega ∧
      (psi zero (psi (.numeral 2) zero)).expand (omega + one) =
        psi zero ((psi (.numeral 2) zero).expand (psi ((Term.numeral 2).expand zero)
          ((psi (.numeral 2) zero).expand (psi ((Term.numeral 2).expand zero) zero)))) := by
  obtain ⟨c, degree_eq, _, tower, _⟩ :=
    expansion_regular.1 zero (psi (.numeral 2) zero) (by decide) (by decide) (by decide)
  have known : psi (.numeral 2) zero = psi c zero := degree_eq
  cases known
  exact ⟨by decide, by decide, by decide, tower (omega + one)⟩

end Collapsing.Limited
