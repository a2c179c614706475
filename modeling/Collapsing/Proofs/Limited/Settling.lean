import Collapsing.Limited.Term
import Collapsing.Proofs.Limited.Threshold
import Collapsing.Proofs.Term.Successor

/-!
# Limited evaluation settles

A limited evaluation *settles* on a value if some budget is enough for it: with less it stops because
the steps are nested too deeply, and with as much or more it returns the value.

An evaluation settles if what it binds settles, or if it spends a level and then settles.  So no
budget is ever computed, and no recursion on the budget is needed: a proof follows the term.

## Main statements

- `Settles.and`, `Settles.or`: questions of which the second one may not be asked;
- `settles_degree`: the degree.
-/

namespace Collapsing.Limited

/-! ## §1 Settling -/

/-- From some budget on the evaluation returns `a`, and below it stops for want of levels. -/
abbrev Settles {α : Type} (eval : (budget : Nat) → Limited α) (a : α) : Prop :=
  HasThreshold .tooDeep eval (.ok a)

section Truth

variable {p q : Bool} {first second : Nat → Limited Bool}

/-- The second question is asked only if the answer to the first one is yes. -/
theorem Settles.and (h_first : Settles first p) (h_second : Settles second q) :
    Settles (fun budget => do if ← first budget then second budget else return false) (p && q) := by
  refine h_first.bind ?_
  cases p with
  | true => exact h_second
  | false => exact .pure false

/-- The second question is asked only if the answer to the first one is no. -/
theorem Settles.or (h_first : Settles first p) (h_second : Settles second q) :
    Settles (fun budget => do if ← first budget then return true else second budget) (p || q) := by
  refine h_first.bind ?_
  cases p with
  | true => exact .pure true
  | false => exact h_second

end Truth

/-! ## §2 Degrees -/

theorem sizeOf_lastAddend_le (sub arg rest : Term) :
    sizeOf (Term.lastAddend sub arg rest) ≤ sizeOf (Term.cons sub arg rest) := by
  induction rest generalizing sub arg with
  | zero => exact Nat.le_refl _
  | cons sub' arg' rest _ _ ih =>
    calc sizeOf (Term.lastAddend sub arg (.cons sub' arg' rest))
        = sizeOf (Term.lastAddend sub' arg' rest) := rfl
      _ ≤ sizeOf (Term.cons sub' arg' rest) := ih sub' arg'
      _ ≤ sizeOf (Term.cons sub arg (.cons sub' arg' rest)) := Nat.le_of_lt (Term.sizeOf_rest_lt ..)

theorem settles_degree (t : Term) : Settles (fun budget => degree budget t) t.degree := by
  refine .spend rfl ?_
  match t with
  | .zero => exact .pure _
  | .cons s a (.cons sub arg rest) =>
    have last := settles_degree (Term.lastAddend sub arg rest)
    rwa [Term.degree_lastAddend] at last
  | .psi sub arg =>
    simp only [degree, Term.degree_psi]
    -- Both operands are asked for their degree, whichever of them decides.
    refine (settles_degree sub).bind ((settles_degree arg).bind ?_)
    split
    · split
      · exact .pure _
      · exact .pure _
    · exact .pure _
termination_by sizeOf t
decreasing_by
  · have smaller := sizeOf_lastAddend_le sub arg rest
    have rest_lt := Term.sizeOf_rest_lt s a (.cons sub arg rest)
    omega
  · exact Term.sizeOf_sub_lt ..
  · exact Term.sizeOf_arg_lt ..

end Collapsing.Limited
