import Collapsing.Proofs.Term.DegreeRange
import Collapsing.Proofs.Term.LinearOrder

/-!
# The last addend

The degree of a term and its fundamental sequence depend on the last addend only, so a term that is
not `0` is best written `z + 亞(sub, arg)`.  A term is a successor exactly when its last addend is
`1`; its predecessor is what stands before it, and all its elements are the predecessor.

How often the predecessor can be taken is the number of ones at the end of a term.  Where an element
`x[y]` is built step by step along `y`, this number says how many steps there are.

## Main statements

- `degree_plus_psi`, `expand_plus_psi`: only the last addend matters;
- `degree_eq_one_iff`: the successors are the terms `z + 1`;
- `expand_of_successor`: the sequence of a successor is constant;
- `successor_immediate`: both of these, and nothing lies between `z` and `z + 1`;
- `trailingOnes_eq_succ`, `trailingOnes_of_not_successor`: ones are counted by taking predecessors.
-/

namespace Collapsing.Term

/-! ## §1 Terms with a last addend -/

theorem eq_zero_or_plus_psi (t : Term) : t = zero ∨ ∃ z sub arg, t = z + psi sub arg := by
  induction t with
  | zero => exact .inl rfl
  | cons sub arg rest _ _ ih =>
    right
    rcases ih with rfl | ⟨z, sub', arg', rfl⟩
    · exact ⟨zero, sub, arg, rfl⟩
    · exact ⟨cons sub arg z, sub', arg', rfl⟩

@[simp] theorem degree_plus_psi (z sub arg : Term) :
    (z + psi sub arg).degree = (psi sub arg).degree := by
  induction z with
  | zero => rfl
  | cons sub' arg' rest _ _ ih =>
    -- One more addend in front, which the degree passes over.
    cases rest with
    | zero => rfl
    | cons => exact ih

@[simp] theorem expand_plus_psi (z sub arg y : Term) :
    (z + psi sub arg).expand y = z + (psi sub arg).expand y := by
  induction z with
  | zero => rfl
  | cons sub' arg' rest _ _ ih =>
    cases rest with
    | zero => exact expand_cons_cons sub' arg' sub arg zero y
    | cons =>
      rw [cons_plus, cons_plus, cons_plus, expand_cons_cons, ← cons_plus, ih]

/-! ## §2 Successors -/

theorem degree_psi_of_arg {arg : Term} (h : arg.degree ≠ zero) (sub : Term) :
    (psi sub arg).degree = omega := by
  rw [degree_psi, if_neg h]

/-- Among the principal terms only `1` has degree `1`. -/
theorem degree_psi_eq_one_iff {sub arg : Term} :
    (psi sub arg).degree = one ↔ psi sub arg = one := by
  refine ⟨fun h => ?_, fun h => by rw [h]; rfl⟩
  by_cases h_arg : arg.degree = zero
  · rw [degree_psi, if_pos h_arg] at h
    split at h
    · exact h
    · -- The degree of the subscript is taken only if it is not `1`.
      rename_i limit
      exact absurd (.inr h) limit
  · rw [degree_psi_of_arg h_arg] at h
    cases h

theorem degree_eq_one_iff {t : Term} : t.degree = one ↔ ∃ z, t = z + one := by
  constructor
  · intro h
    rcases eq_zero_or_plus_psi t with rfl | ⟨z, sub, arg, rfl⟩
    · cases h
    · rw [degree_plus_psi, degree_psi_eq_one_iff] at h
      rw [h]
      exact ⟨z, rfl⟩
  · rintro ⟨z, rfl⟩
    exact degree_plus_psi z zero zero

theorem isSuccessor_iff {t : Term} : t.isSuccessor = true ↔ ∃ z, t = z + one := by
  rw [isSuccessor, decide_eq_true_eq, degree_eq_one_iff]

theorem expand_plus_one (z y : Term) : (z + one).expand y = z := by
  rw [expand_plus_psi, expand_psi_zero degree_zero, plus_zero]

/-- Every element of the sequence of a successor is its predecessor. -/
theorem expand_of_successor {t : Term} (h : t.degree = one) (y : Term) :
    t.expand y = t.dropLast := by
  obtain ⟨z, rfl⟩ := degree_eq_one_iff.1 h
  rw [expand_plus_one, dropLast_plus_psi]

theorem lt_one_iff {t : Term} : t < one ↔ t = zero := by
  cases t with
  | zero => exact ⟨fun _ => rfl, fun _ => zero_lt_cons zero zero zero⟩
  | cons sub arg rest => simp [cons_lt_cons_iff, not_lt_zero]

/-- Nothing lies between a term and its successor. -/
theorem lt_plus_one_iff {w z : Term} : w < z + one ↔ w = z ∨ w < z := by
  induction z generalizing w with
  | zero => rw [zero_plus, lt_one_iff, or_iff_left (not_lt_zero w)]
  | cons sub arg rest _ _ ih =>
    cases w with
    | zero => exact ⟨fun _ => .inr (zero_lt_cons sub arg rest), fun _ => zero_lt_cons _ _ _⟩
    | cons sub' arg' rest' =>
      -- The first addends are compared alike, and after equal ones the induction hypothesis decides.
      rw [cons_plus, cons_lt_cons_iff, cons_lt_cons_iff, ih, cons.injEq]
      grind

/-- **Successors**: the elements of the sequence of `z + 1` are all `z`, the successors are the terms
`z + 1`, and `z + 1` comes immediately after `z` in the order. -/
theorem successor_immediate :
    (∀ z y : Term, (z + one).expand y = z) ∧
    (∀ t : Term, t.isSuccessor = true ↔ ∃ z, t = z + one) ∧
    ∀ w z : Term, lessThan w (z + one) = true ↔ w = z ∨ lessThan w z = true :=
  ⟨expand_plus_one, fun _ => isSuccessor_iff, fun _ _ => lt_plus_one_iff⟩

/-! ## §3 Ones at the end -/

/-- How many of the addends at the end of a term are `1`, up to the last one that is not. -/
def trailingOnes (t : Term) : Nat := (t.addends.reverse.takeWhile (· = one)).length

theorem trailingOnes_plus_one (z : Term) : (z + one).trailingOnes = z.trailingOnes + 1 := by
  simp [trailingOnes]

theorem trailingOnes_of_not_successor {t : Term} (h : t.degree ≠ one) : t.trailingOnes = 0 := by
  rcases eq_zero_or_plus_psi t with rfl | ⟨z, sub, arg, rfl⟩
  · rfl
  · have other : psi sub arg ≠ one := by
      rwa [degree_plus_psi, ne_eq, degree_psi_eq_one_iff] at h
    -- From the end, the first addend already is no `1`.
    rw [trailingOnes, addends_plus, addends_cons, addends_zero, List.reverse_append,
      List.reverse_singleton, List.singleton_append,
      List.takeWhile_cons_of_neg (by simpa using other), List.length_nil]

theorem trailingOnes_eq_succ {t : Term} (h : t.degree = one) :
    t.trailingOnes = t.dropLast.trailingOnes + 1 := by
  obtain ⟨z, rfl⟩ := degree_eq_one_iff.1 h
  rw [trailingOnes_plus_one, dropLast_plus_psi]

end Collapsing.Term
