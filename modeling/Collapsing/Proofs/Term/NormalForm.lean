import Collapsing.Proofs.Term.Copies
import Collapsing.Proofs.Term.Descent
import Collapsing.Proofs.Term.Tower

/-!
# Normal form

A term is normal if in every sum in it, at every depth, no addend lies below the next one.  The
elements of the fundamental sequence of a normal term are normal again, as long as an index that is
copied into the term is normal itself.

In a sum the last addend is replaced by one of its elements.  What comes before may stand in front
of the element because the element lies below the addend that it replaces, by descent.  The other
rows of the table build new terms from normal parts: copies of one principal term, or the storeys of
a tower.  Each storey takes an index below the degree of the argument, whatever stands on it, so the
storeys are normal one after the other.

## Main statements

- `MayPrecede.of_le`: what may stand in front of a sum may stand in front of any smaller one;
- `IsNormal.degree`, `IsNormal.dropLast`: degrees and predecessors of normal terms are normal;
- `IsNormal.expand`: so are the elements.
-/

namespace Collapsing.Term

/-! ## §1 Normal terms -/

/-- The addend `亞(sub, arg)` may stand in front of a sum: it does not lie below its first addend. -/
def MayPrecede (sub arg : Term) : Term → Prop
  | zero => True
  | cons sub' arg' _ => ¬ psi sub arg < psi sub' arg'

/-- In every sum, at every depth, no addend lies below the next one. -/
def IsNormal : Term → Prop
  | zero => True
  | cons sub arg rest => IsNormal sub ∧ IsNormal arg ∧ MayPrecede sub arg rest ∧ IsNormal rest

instance decidableMayPrecede (sub arg : Term) : (t : Term) → Decidable (MayPrecede sub arg t)
  | zero => .isTrue trivial
  | cons sub' arg' _ => inferInstanceAs (Decidable (¬ psi sub arg < psi sub' arg'))

instance decidableIsNormal : (t : Term) → Decidable (IsNormal t)
  | zero => .isTrue trivial
  | cons sub arg rest =>
    have := decidableIsNormal sub
    have := decidableIsNormal arg
    have := decidableIsNormal rest
    inferInstanceAs (Decidable (_ ∧ _ ∧ _ ∧ _))

theorem isNormal_zero : IsNormal zero := trivial

theorem cons_lt_cons_of_psi {sub arg sub' arg' : Term} (rest rest' : Term)
    (h : psi sub arg < psi sub' arg') : cons sub arg rest < cons sub' arg' rest' := by
  rcases cons_lt_cons_iff.1 h with lt | ⟨rfl, lt | ⟨_, lt⟩⟩
  · exact cons_lt_cons_of_sub lt
  · exact cons_lt_cons_of_arg sub lt
  · exact absurd lt (not_lt_zero zero)

/-- A smaller sum has no larger first addend. -/
theorem MayPrecede.of_le {sub arg s t : Term} (h : MayPrecede sub arg t) (le : s ≤ t) :
    MayPrecede sub arg s := by
  cases s with
  | zero => trivial
  | cons s a r =>
    cases t with
    | zero => exact absurd (zero_lt_cons s a r) (not_lt.2 le)
    | cons s' a' r' =>
      have heads : psi s a ≤ psi s' a' := by
        by_contra larger
        exact absurd (cons_lt_cons_of_psi r' r (not_le.1 larger)) (not_lt.2 le)
      intro lt
      exact h (lt_of_lt_of_le lt heads)

theorem isNormal_psi {sub arg : Term} (h_sub : IsNormal sub) (h_arg : IsNormal arg) :
    IsNormal (psi sub arg) :=
  ⟨h_sub, h_arg, trivial, isNormal_zero⟩

/-- What follows the first addend may become smaller. -/
theorem IsNormal.of_le {sub arg rest rest' : Term} (h : IsNormal (cons sub arg rest))
    (h_rest : IsNormal rest') (le : rest' ≤ rest) : IsNormal (cons sub arg rest') := by
  obtain ⟨h_sub, h_arg, order, _⟩ := h
  exact ⟨h_sub, h_arg, order.of_le le, h_rest⟩

/-! ## §2 Parts and multiples -/

theorem IsNormal.dropLast {t : Term} (h : IsNormal t) : IsNormal t.dropLast := by
  match t with
  | zero => trivial
  | cons sub arg zero => trivial
  | cons sub arg (cons sub' arg' rest) =>
    have h_rest : IsNormal (cons sub' arg' rest) := h.2.2.2
    have below := dropLast_lt (t := cons sub' arg' rest) (by simp)
    rw [dropLast_cons_cons]
    exact h.of_le h_rest.dropLast (le_of_lt below)

/-- The degree is a constant or a part of the term. -/
theorem IsNormal.degree {t : Term} (h : IsNormal t) : IsNormal t.degree := by
  fun_induction Term.degree t with
  | case1 => trivial
  | case2 _ _ _ _ _ ih => exact ih h.2.2.2
  | case3 => exact h
  | case4 _ _ _ _ _ ih => exact ih h.1
  | case5 => decide

theorem isNormal_copies {sub arg : Term} (h_sub : IsNormal sub) (h_arg : IsNormal arg) (n : Nat) :
    IsNormal (copies sub arg n) := by
  induction n with
  | zero => trivial
  | succ n ih =>
    have order : MayPrecede sub arg (copies sub arg n) := by
      cases n with
      | zero => trivial
      | succ n => exact lt_irrefl (psi sub arg)
    exact ⟨h_sub, h_arg, order, ih⟩

theorem isNormal_numeral (n : Nat) : IsNormal (numeral n) := by
  rw [numeral_eq_copies]
  exact isNormal_copies isNormal_zero isNormal_zero n

/-! ## §3 Elements -/

/-- The indices at which a normal term has normal elements: all of them if the degree is `0`, `1` or
`ω`, and otherwise the normal ones below the degree. -/
def IsNormalIndex (x y : Term) : Prop :=
  x.degree = zero ∨ x.degree = one ∨ x.degree = omega ∨ IsNormal y ∧ y < x.degree

theorem IsNormalIndex.isIndex {x y : Term} (h : IsNormalIndex x y) (ne : x ≠ zero) :
    IsIndex x y := by
  rcases h with eq | eq | eq | ⟨_, lt⟩
  · exact absurd (degree_eq_zero_iff.1 eq) ne
  · exact .inl eq
  · exact .inr (.inl eq)
  · exact .inr (.inr lt)

/-- The index of a storey is normal if what stands on the storey is. -/
theorem isNormalIndex_storey {arg c γ : Term} (h : arg.degree = psi c zero) (hc : c.degree = one)
    (h_arg : IsNormal arg) (h_γ : IsNormal γ) : IsNormalIndex arg (psi c.dropLast γ) := by
  have h_degree : IsNormal (psi c zero) := h ▸ h_arg.degree
  have h_index : IsNormal (psi c.dropLast γ) := isNormal_psi h_degree.1.dropLast h_γ
  exact .inr (.inr (.inr ⟨h_index, psi_dropLast_lt_degree h hc γ⟩))

/-- The storeys of a tower are normal one after the other. -/
theorem isNormal_tower {arg c : Term} (h : arg.degree = psi c zero) (hc : c.degree = one)
    (h_arg : IsNormal arg) (elements : ∀ y, IsNormalIndex arg y → IsNormal (arg.expand y))
    (n : Nat) : IsNormal ((storey arg c)^[n] zero) := by
  induction n with
  | zero => exact isNormal_zero
  | succ n ih =>
    rw [Function.iterate_succ_apply', storey, expand_of_successor hc]
    exact elements _ (isNormalIndex_storey h hc h_arg ih)

/-- **Normal form is kept** at every index that is normal where it matters. -/
theorem IsNormal.expand {x y : Term} (hx : IsNormal x) (hy : IsNormalIndex x y) :
    IsNormal (x.expand y) := by
  induction x generalizing y with
  | zero =>
    rw [expand_zero]
    exact isNormal_zero
  | cons sub arg rest ih_sub ih_arg ih_rest =>
    have ⟨h_sub, h_arg, _, h_rest⟩ := hx
    cases rest with
    | cons sub' arg' rest' =>
      -- The last addend goes down, so what comes before may stand in front of the element.
      have below : (cons sub' arg' rest').expand y < cons sub' arg' rest' :=
        expand_lt (by simp) (IsNormalIndex.isIndex (x := cons sub' arg' rest') hy (by simp))
      rw [expand_cons_cons]
      exact hx.of_le (ih_rest h_rest hy) (le_of_lt below)
    | zero =>
      cases shape sub arg with
      | unit =>
        rw [expand_psi_zero degree_zero]
        exact isNormal_zero
      | regular h =>
        rw [expand_psi_zero_of_successor h]
        -- The term is its own degree, which is none of the three constants.
        rw [IsNormalIndex, degree_of_regular h] at hy
        rcases hy with eq | eq | eq | ⟨normal, _⟩
        · cases eq
        · exact absurd eq (psi_zero_ne_one h)
        · cases eq
        · exact normal
      | limitSub h₀ h₁ =>
        -- The index goes to the subscript, which has the same degree.
        rw [expand_psi_zero_of_limit h₀ h₁]
        rw [IsNormalIndex, degree_of_limitSub h₀ h₁] at hy
        exact isNormal_psi (ih_sub h_sub hy) isNormal_zero
      | successorArg h =>
        rw [expand_eq_copies h]
        exact isNormal_copies h_sub h_arg.dropLast _
      | omegaArg h =>
        rw [expand_psi_of_arg_omega h]
        exact isNormal_psi h_sub (ih_arg h_arg (.inr (.inr (.inl h))))
      | higherArg h hc =>
        rw [expand_eq_tower h hc]
        exact isNormal_psi h_sub (isNormal_tower h hc h_arg (fun _ => ih_arg h_arg) _)

theorem isNormalIndex_numeral (x : Term) (n : Nat) : IsNormalIndex x (numeral n) := by
  by_cases h : x = zero
  · exact .inl (degree_eq_zero_iff.2 h)
  · exact .inr ((isIndex_numeral h n).imp_right (Or.imp_right fun lt => ⟨isNormal_numeral n, lt⟩))

/-- **Fundamental sequences keep normal form**: the elements of a normal term are normal at every
index if its degree is `0`, `1` or `ω`, and at every normal index below the degree otherwise; so
they are at every natural number. -/
theorem fundamentalSequence_normal :
    (∀ x y : Term, IsNormal x →
      (x.degree = zero ∨ x.degree = one ∨ x.degree = omega ∨
        IsNormal y ∧ lessThan y x.degree = true) → IsNormal (x.expand y)) ∧
    ∀ (x : Term) (n : Nat), IsNormal x → IsNormal (x.expand (numeral n)) :=
  ⟨fun _ _ hx hy => hx.expand hy, fun x n hx => hx.expand (isNormalIndex_numeral x n)⟩

/-- A tower at an index that is not normal, a normal index copied into a sum, and copies. -/
theorem fundamentalSequence_normal_tower :
    IsNormal (bigOmega + psi zero (bigOmega + bigOmega)) ∧ ¬ IsNormal (omega + bigOmega + one) ∧
    IsNormal ((bigOmega + psi zero (bigOmega + bigOmega)).expand (omega + bigOmega + one)) ∧
    IsNormal (bigOmega + bigOmega) ∧ IsNormal ((bigOmega + bigOmega).expand (omega + one)) ∧
    IsNormal (bigOmega + psi zero (numeral 2)) ∧
    IsNormal ((bigOmega + psi zero (numeral 2)).expand (numeral 3)) :=
  ⟨by decide, by decide,
    fundamentalSequence_normal.1 _ (omega + bigOmega + one) (by decide)
      (.inr (.inr (.inl (by decide)))),
    by decide,
    fundamentalSequence_normal.1 _ (omega + one) (by decide)
      (.inr (.inr (.inr ⟨by decide, by decide⟩))),
    by decide, fundamentalSequence_normal.2 _ 3 (by decide)⟩

end Collapsing.Term
