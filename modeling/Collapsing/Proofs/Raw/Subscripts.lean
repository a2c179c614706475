import Collapsing.Proofs.Raw.Values

/-!
# Subscripts lie below their terms

The order looks at subscripts first, so a principal term lies above its subscript, whatever its
argument is, and above whatever is reached by going on from subscript to subscript.  Of arguments
this is not true: `亞(0, Ω)` lies below `Ω`.

Comparison of a raw subscript with its term takes the first addend of a sum and then the subscript of
this addend, and so leaves the way from subscript to subscript.  On canonical terms it ends with the
answer that it has for terms.

## Main statements

- `lt_of_transGen`: what is reached from a term by way of subscripts;
- `exists_transGen`: the way is the same from a raw form;
- `subscripts_below`: the answers of the comparison.
-/

namespace Collapsing

/-- The second term is principal, and the first one is its subscript. -/
def IsSubscript {α : Type} (form : α → α → α) (sub t : α) : Prop := ∃ arg, t = form sub arg

namespace Term

theorem lt_of_isSubscript {sub t : Term} (h : IsSubscript psi sub t) : sub < t := by
  obtain ⟨arg, rfl⟩ := h
  exact sub_lt_cons sub arg zero

/-- What is reached from a term by going from subscript to subscript lies below the term. -/
theorem lt_of_transGen {s t : Term} (h : Relation.TransGen (IsSubscript psi) s t) : s < t := by
  induction h with
  | single first => exact lt_of_isSubscript first
  | tail _ last ih => exact lt_trans ih (lt_of_isSubscript last)

-- An argument may lie above its term.
example : ¬ bigOmega < psi zero bigOmega := by decide

end Term

namespace RawTerm

/-- The subscript of a raw form is the raw form of the subscript. -/
theorem exists_subscript {σ : RawTerm} {t : Term} (h : IsSubscript psi σ t.raw) :
    ∃ s : Term, s.raw = σ ∧ IsSubscript .psi s t := by
  obtain ⟨α, form⟩ := h
  have canonical : Canonical (psi σ α) := form ▸ canonical_raw t
  cases canonical with
  | psi sub_canonical arg_canonical =>
    obtain ⟨sub, rfl⟩ := (canonical_iff σ).1 sub_canonical
    obtain ⟨arg, rfl⟩ := (canonical_iff α).1 arg_canonical
    exact ⟨sub, rfl, arg, Term.raw_injective form⟩

/-- What is reached from a raw form is the raw form of what is reached from the term. -/
theorem exists_transGen {σ τ : RawTerm} (h : Relation.TransGen (IsSubscript psi) σ τ) {t : Term}
    (form : t.raw = τ) : ∃ s : Term, s.raw = σ ∧ Relation.TransGen (IsSubscript .psi) s t := by
  induction h generalizing t with
  | single first =>
    subst form
    obtain ⟨s, form_s, step⟩ := exists_subscript first
    exact ⟨s, form_s, .single step⟩
  | tail _ last ih =>
    subst form
    obtain ⟨r, form_r, step⟩ := exists_subscript last
    obtain ⟨s, form_s, steps⟩ := ih form_r
    exact ⟨s, form_s, .tail steps step⟩

/-- **Subscripts lie below their terms**: a principal term lies above its subscript, and above all
that is reached by going from subscript to subscript; and of canonical raw terms comparison finds
this. -/
theorem subscripts_below :
    (∀ sub arg : Term, sub.lessThan (.psi sub arg) = true) ∧
    (∀ s t : Term, Relation.TransGen (IsSubscript .psi) s t → s.lessThan t = true) ∧
    ∀ σ τ : RawTerm, Canonical τ → Relation.TransGen (IsSubscript psi) σ τ →
      Reaches (fun budget => lessThan budget σ τ) (.ok true) := by
  refine ⟨fun sub arg => Term.sub_lt_cons sub arg .zero, fun s t => Term.lt_of_transGen, ?_⟩
  intro σ τ hτ reached
  -- Canonical raw terms are those of terms, and so are the terms on the way.
  obtain ⟨t, rfl⟩ := (canonical_iff τ).1 hτ
  obtain ⟨s, rfl, steps⟩ := exists_transGen reached rfl
  have below : s.lessThan t = true := Term.lt_of_transGen steps
  rw [← below]
  exact reaches_lessThan s t

/-- A sum that is reached by two steps, and a step from a term to its subscript. -/
theorem subscripts_below_two_steps :
    Relation.TransGen (IsSubscript .psi) Term.omega (.psi .omega .zero) ∧
    Term.omega.lessThan (.psi .omega .zero) = true ∧
    Canonical (psi (psi (sum [omega, one]) bigOmega) zero) ∧
    Relation.TransGen (IsSubscript psi) (sum [omega, one])
      (psi (psi (sum [omega, one]) bigOmega) zero) ∧
    Reaches (fun budget =>
        lessThan budget (sum [omega, one]) (psi (psi (sum [omega, one]) bigOmega) zero))
      (.ok true) := by
  have step : Relation.TransGen (IsSubscript .psi) Term.omega (.psi .omega .zero) :=
    .single ⟨.zero, rfl⟩
  have canonical : Canonical (psi (psi (sum [omega, one]) bigOmega) zero) :=
    canonical_raw (.psi (.psi (Term.omega + Term.one) .bigOmega) .zero)
  have steps : Relation.TransGen (IsSubscript psi) (sum [omega, one])
      (psi (psi (sum [omega, one]) bigOmega) zero) :=
    .tail (.single ⟨bigOmega, rfl⟩) ⟨zero, rfl⟩
  exact ⟨step, subscripts_below.2.1 _ _ step, canonical, steps,
    subscripts_below.2.2 _ _ canonical steps⟩

end RawTerm

end Collapsing
