import Collapsing.Proofs.Limited.Settling
import Collapsing.Proofs.Term.LinearOrder

/-!
# Limited comparison settles

Limited comparison tells principal terms from sums: a principal term is compared with a sum through
the first addend of the sum, and two sums first through their first addends and then, if these are
equal, through what remains.  The unlimited comparison treats all terms alike, as lists of addends,
and one equation about their first addends covers all the cases.

Both recursions follow the first of the two terms.  For equality the addends of a sum are gone
through in one step, so of each term there are two things to prove: that its comparison settles, and
that the comparison addend by addend does, which is needed when the term is the rest of a sum.

## Main statements

- `settles_equal`: equality;
- `settles_lessThan`: the order.
-/

namespace Collapsing.Limited

open Term (zero cons psi)

/-! ## §1 Equality -/

theorem decide_cons_eq_cons (sub arg rest sub' arg' rest' : Term) :
    decide (cons sub arg rest = cons sub' arg' rest') =
      (decide (psi sub arg = psi sub' arg') && decide (rest = rest')) := by
  simp only [Term.cons.injEq, and_true, Bool.decide_and, Bool.and_assoc]

theorem settles_equal_psi {sub arg sub' arg' : Term}
    (ih_sub : Settles (fun budget => equal budget sub sub') (decide (sub = sub')))
    (ih_arg : Settles (fun budget => equal budget arg arg') (decide (arg = arg'))) :
    Settles (fun budget => equal budget (psi sub arg) (psi sub' arg'))
      (decide (psi sub arg = psi sub' arg')) := by
  refine .spend rfl ?_
  simp only [Term.cons.injEq, and_true, Bool.decide_and]
  exact ih_sub.and ih_arg

theorem settles_equal_and_addendwise (s t : Term) :
    Settles (fun budget => equal budget s t) (decide (s = t)) ∧
      Settles (fun budget => equal.addendwise (equal budget) s t) (decide (s = t)) := by
  induction s generalizing t with
  | zero =>
    cases t with
    | zero => exact ⟨.spend rfl (.pure true), .pure true⟩
    | cons => exact ⟨.spend rfl (.pure false), .pure false⟩
  | cons sub arg rest ih_sub ih_arg ih_rest =>
    cases t with
    | zero =>
      refine ⟨.spend rfl ?_, .pure false⟩
      cases rest <;> exact .pure false
    | cons sub' arg' rest' =>
      have first := settles_equal_psi (ih_sub sub').1 (ih_arg arg').1
      have all_addends := first.and (ih_rest rest').2
      rw [← decide_cons_eq_cons] at all_addends
      refine ⟨?_, all_addends⟩
      -- The addends are gone through where both terms are sums, and only there.
      cases rest with
      | zero =>
        cases rest' with
        | zero => exact first
        | cons =>
          rw [decide_eq_false (by simp)]
          exact .spend rfl (.pure false)
      | cons =>
        cases rest' with
        | zero =>
          rw [decide_eq_false (by simp)]
          exact .spend rfl (.pure false)
        | cons => exact .spend rfl all_addends

/-- Limited equality settles on whether the two terms are equal. -/
theorem settles_equal (s t : Term) : Settles (fun budget => equal budget s t) (decide (s = t)) :=
  (settles_equal_and_addendwise s t).1

/-! ## §2 Order -/

theorem isEq_compare (s t : Term) : (compare s t).isEq = decide (s = t) := by
  rw [Bool.eq_iff_iff, decide_eq_true_iff, ← Term.compare_eq_iff]
  cases compare s t <;> decide

theorem lessThan_psi_psi (sub arg sub' arg' : Term) :
    Term.lessThan (psi sub arg) (psi sub' arg') =
      (Term.lessThan sub sub' || (decide (sub = sub') && Term.lessThan arg arg')) := by
  have addends : compare (psi sub arg) (psi sub' arg') =
      (compare sub sub').then (compare arg arg') := by
    rw [Term.compare_cons_cons, Term.compare_self, Ordering.then_eq]
  simp only [Term.lessThan, addends, Ordering.isLT_then, isEq_compare]

/-- Two terms other than `0` are compared through their first addends and then the others. -/
theorem lessThan_cons_cons (sub arg rest sub' arg' rest' : Term) :
    Term.lessThan (cons sub arg rest) (cons sub' arg' rest') =
      (Term.lessThan (psi sub arg) (psi sub' arg') ||
        (decide (psi sub arg = psi sub' arg') && Term.lessThan rest rest')) := by
  have addends : compare (cons sub arg rest) (cons sub' arg' rest') =
      (compare (psi sub arg) (psi sub' arg')).then (compare rest rest') := by
    simp only [Term.compare_cons_cons, Term.compare_self, Ordering.then_eq, Ordering.then_assoc]
  simp only [Term.lessThan, addends, Ordering.isLT_then, isEq_compare]

theorem settles_lessThan_psi {sub arg sub' arg' : Term}
    (ih_sub : Settles (fun budget => lessThan budget sub sub') (sub.lessThan sub'))
    (ih_arg : Settles (fun budget => lessThan budget arg arg') (arg.lessThan arg')) :
    Settles (fun budget => lessThan budget (psi sub arg) (psi sub' arg'))
      (Term.lessThan (psi sub arg) (psi sub' arg')) := by
  refine .spend rfl ?_
  rw [lessThan_psi_psi]
  exact ih_sub.or ((settles_equal sub sub').and ih_arg)

/-- Limited comparison settles on whether the first term lies below the second. -/
theorem settles_lessThan (s t : Term) :
    Settles (fun budget => lessThan budget s t) (s.lessThan t) := by
  induction s generalizing t with
  | zero =>
    refine .spend rfl ?_
    cases t with
    | zero => exact .pure false
    | cons => exact .pure true
  | cons sub arg rest ih_sub ih_arg ih_rest =>
    cases t with
    | zero =>
      refine .spend rfl ?_
      cases rest <;> exact .pure false
    | cons sub' arg' rest' =>
      have less := settles_lessThan_psi (ih_sub sub') (ih_arg arg')
      have same := settles_equal (psi sub arg) (psi sub' arg')
      cases rest with
      | zero =>
        cases rest' with
        | zero => exact less
        | cons s a r =>
          refine .spend rfl ?_
          -- Something follows in the second term, so equal first addends will do.
          have more : Term.lessThan zero (cons s a r) = true := rfl
          rw [lessThan_cons_cons, more, Bool.and_true, Bool.or_comm]
          exact same.or less
      | cons s a r =>
        cases rest' with
        | zero =>
          refine .spend rfl ?_
          have less_addends : Term.lessThan (cons s a r) zero = false := rfl
          rw [lessThan_cons_cons, less_addends, Bool.and_false, Bool.or_false]
          exact less
        | cons s' a' r' =>
          refine .spend rfl ?_
          rw [lessThan_cons_cons]
          exact less.or (same.and (ih_rest (cons s' a' r')))

end Collapsing.Limited
