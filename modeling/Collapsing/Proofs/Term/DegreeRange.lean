import Collapsing.Term.Expansion

/-!
# The range of the degree

A degree is `0`, `1`, `ω` or a principal term `亞(c, 0)` with a successor `c`.  So the subscript
and the argument of a principal term are in one of six positions, `Shape`, and `x[y]` has one
equation for each.  A proof about `x[y]` goes through these six cases and never opens the
definition.

Along the index a sequence is followed by `successor_induction`: an index is no successor, or
it is one and its predecessor comes first.

## Main statements

- `degree_range`, `degree_higher`: what a degree can be;
- `degree_fixes_its_values`: these are the terms that are their own degree;
- `shape`: every principal term has one of the six shapes;
- `expand_of_arg_higher`: the row of the table that nests, for degrees of this range.
-/

namespace Collapsing.Term

/-! ## §1 What a degree can be -/

/-- **Range of the degree**: `0`, `1`, `ω`, or `亞(c, 0)` with a successor `c`. -/
theorem degree_range (t : Term) :
    t.degree = zero ∨ t.degree = one ∨ t.degree = omega ∨
      ∃ c, t.degree = psi c zero ∧ c.degree = one := by
  fun_induction degree t with
  | case1 => exact .inl rfl
  | case2 _ _ _ _ _ ih => exact ih
  | case3 sub arg h_arg h_sub _ ih_sub =>
    rw [degree_eq_zero_iff] at h_arg
    subst h_arg
    rcases h_sub with h_sub | h_sub
    · rw [degree_eq_zero_iff] at h_sub
      subst h_sub
      exact .inr (.inl rfl)
    · exact .inr (.inr (.inr ⟨sub, rfl, h_sub⟩))
  | case4 _ _ _ _ _ ih_sub => exact ih_sub
  | case5 => exact .inr (.inr (.inl rfl))

/-- What a degree other than `0`, `1` and `ω` is. -/
theorem degree_higher {t : Term} (h₀ : t.degree ≠ zero) (h₁ : t.degree ≠ one)
    (hω : t.degree ≠ omega) : ∃ c, t.degree = psi c zero ∧ c.degree = one :=
  (((degree_range t).resolve_left h₀).resolve_left h₁).resolve_left hω

theorem psi_zero_ne_one {c : Term} (hc : c.degree = one) : psi c zero ≠ one := by
  rintro ⟨⟩
  cases hc

theorem degree_of_regular {sub : Term} (h : sub.degree = one) :
    (psi sub zero).degree = psi sub zero := by
  rw [degree_psi, if_pos degree_zero, if_pos (.inr h)]

/-- The terms that are their own degree are those in the range of the degree. -/
theorem degree_eq_self_iff {t : Term} :
    t.degree = t ↔ t = zero ∨ t = one ∨ t = omega ∨ ∃ c, t = psi c zero ∧ c.degree = one := by
  constructor
  · intro h
    have range := degree_range t
    rwa [h] at range
  · rintro (rfl | rfl | rfl | ⟨c, rfl, hc⟩)
    · rfl
    · rfl
    · rfl
    · exact degree_of_regular hc

/-- **The degree is a projection**: its values are `0`, which only `0` has, then `1`, `ω`, and the
terms `亞(c, 0)` with a successor `c`; taking the degree again changes nothing; and no other term is
its own degree. -/
theorem degree_fixes_its_values :
    (∀ t : Term, t.degree = zero ∨ t.degree = one ∨ t.degree = omega ∨
      ∃ c, t.degree = psi c zero ∧ c.degree = one) ∧
    (∀ t : Term, t.degree = zero ↔ t = zero) ∧
    (∀ t : Term, t.degree.degree = t.degree) ∧
    ∀ t : Term, t.degree = t ↔
      t = zero ∨ t = one ∨ t = omega ∨ ∃ c, t = psi c zero ∧ c.degree = one := by
  refine ⟨degree_range, fun t => degree_eq_zero_iff, fun t => ?_, fun t => degree_eq_self_iff⟩
  exact degree_eq_self_iff.2 (degree_range t)

/-! ## §2 The shapes of a principal term -/

/-- The positions in which the parts of `亞(sub, arg)` can be, one for each row of the table of
fundamental sequences. -/
inductive Shape : (sub arg : Term) → Prop where
  /-- `亞(0, 0)`, which is `1`. -/
  | unit : Shape zero zero
  /-- `亞(c + 1, 0)`, which is its own degree. -/
  | regular {sub : Term} (h : sub.degree = one) : Shape sub zero
  /-- `亞(sub, 0)` with a limit `sub`, which has the degree of `sub`. -/
  | limitSub {sub : Term} (h₀ : sub.degree ≠ zero) (h₁ : sub.degree ≠ one) : Shape sub zero
  /-- `亞(sub, a + 1)`. -/
  | successorArg {sub arg : Term} (h : arg.degree = one) : Shape sub arg
  /-- `亞(sub, arg)` with an argument of degree `ω`. -/
  | omegaArg {sub arg : Term} (h : arg.degree = omega) : Shape sub arg
  /-- `亞(sub, arg)` with an argument of higher degree `亞(c, 0)`. -/
  | higherArg {sub arg c : Term} (h : arg.degree = psi c zero) (hc : c.degree = one) : Shape sub arg

/-- Every principal term has one of the shapes. -/
theorem shape (sub arg : Term) : Shape sub arg := by
  rcases degree_range arg with h | h | h | ⟨c, h, hc⟩
  · rw [degree_eq_zero_iff] at h
    subst h
    by_cases h₀ : sub.degree = zero
    · rw [degree_eq_zero_iff] at h₀
      subst h₀
      exact .unit
    · by_cases h₁ : sub.degree = one
      · exact .regular h₁
      · exact .limitSub h₀ h₁
  · exact .successorArg h
  · exact .omegaArg h
  · exact .higherArg h hc

theorem degree_of_limitSub {sub : Term} (h₀ : sub.degree ≠ zero) (h₁ : sub.degree ≠ one) :
    (psi sub zero).degree = sub.degree := by
  rw [degree_psi, if_pos degree_zero, if_neg (not_or_intro h₀ h₁)]

/-! ## §3 The row that nests -/

/-- The argument that is nested into `arg` for the index `y`: that of the element before, and `0`
if there is none. -/
def seed (sub arg y : Term) : Term :=
  if y.degree = one then ((psi sub arg).expand y.dropLast).leadingArg else zero

/-- The last row of the table: the index of the argument is built with a smaller subscript. -/
theorem expand_of_arg_higher {arg c : Term} (h : arg.degree = psi c zero) (hc : c.degree = one)
    (sub y : Term) :
    (psi sub arg).expand y = psi sub (arg.expand (psi c.dropLast (seed sub arg y))) := by
  apply expand_psi_of_arg_higher h
  · rw [h]
    exact psi_zero_ne_one hc
  · rw [h]
    rintro ⟨⟩

/-! ## §4 Induction along an index -/

/-- What holds of every term that is no successor, and passes from the predecessor of a successor
to it, holds of every term. -/
@[elab_as_elim]
theorem successor_induction {P : Term → Prop} (y : Term) (base : ∀ y, y.degree ≠ one → P y)
    (step : ∀ y, y.degree = one → P y.dropLast → P y) : P y := by
  by_cases h : y.degree = one
  · have smaller : sizeOf y.dropLast < sizeOf y := sizeOf_dropLast_lt (ne_zero_of_degree_eq_one h)
    exact step y h (successor_induction y.dropLast base step)
  · exact base y h
termination_by sizeOf y

end Collapsing.Term
