import Collapsing.Proofs.Raw.Values

/-!
# The order of terms as an order of sequences

The order of terms is meant as an order of sequences.  A term is the list of its addends; lists are
compared lexicographically, so that a proper front part of a list comes before it; and principal
terms are compared by their subscripts and then by their arguments, with the same order again.

Comparison of raw terms never forms these lists.  It goes through nine pairs of shapes, compares a
principal term with a sum through the first addend of the sum only, and puts what remains of two sums
together again.  Of canonical terms it finds the order of sequences all the same.

## Main statements

- `lt_iff_lex`: the order of terms is the order of their lists of addends;
- `lt_iff_of_lex`: no other relation is related to itself in this way;
- `lessThan_sequenceOrder`: both of these, and comparison of canonical raw terms.
-/

namespace Collapsing

/-! ## §1 Principal terms -/

/-- The lexicographic order of terms `form a b` by their two parts. -/
inductive ByParts {α : Type} (form : α → α → α) (below : α → α → Prop) : α → α → Prop where
  /-- The first parts decide. -/
  | first {a a' : α} (h : below a a') (b b' : α) : ByParts form below (form a b) (form a' b')
  /-- The first parts are equal, and the second ones decide. -/
  | second (a : α) {b b' : α} (h : below b b') : ByParts form below (form a b) (form a b')

theorem byParts_iff {α : Type} {form : α → α → α} {below : α → α → Prop}
    (injective : Function.Injective2 form) {a b a' b' : α} :
    ByParts form below (form a b) (form a' b') ↔ below a a' ∨ a = a' ∧ below b b' := by
  constructor
  · intro h
    generalize left : form a b = p, right : form a' b' = q at h
    cases h with
    | first h =>
      obtain ⟨rfl, rfl⟩ := injective left
      obtain ⟨rfl, rfl⟩ := injective right
      exact .inl h
    | second _ h =>
      obtain ⟨rfl, rfl⟩ := injective left
      obtain ⟨rfl, rfl⟩ := injective right
      exact .inr ⟨rfl, h⟩
  · rintro (h | ⟨rfl, h⟩)
    · exact .first h b b'
    · exact .second a h

/-! ## §2 Lists of addends -/

namespace Term

theorem psi_injective2 : Function.Injective2 psi := by
  rintro a a' b b' ⟨⟩
  exact ⟨rfl, rfl⟩

/-- Subscripts are compared first, then arguments, then the lists of the remaining addends. -/
theorem lex_addends_cons_iff {below : Term → Term → Prop} {sub arg rest sub' arg' rest' : Term} :
    List.Lex (ByParts psi below) (cons sub arg rest).addends (cons sub' arg' rest').addends ↔
      below sub sub' ∨ sub = sub' ∧ (below arg arg' ∨ arg = arg' ∧
        List.Lex (ByParts psi below) rest.addends rest'.addends) := by
  rw [addends_cons, addends_cons, List.cons_lex_cons_iff, byParts_iff psi_injective2,
    psi_injective2.eq_iff]
  grind

theorem lex_zero_addends_iff {below : Term → Term → Prop} (t : Term) :
    List.Lex (ByParts psi below) zero.addends t.addends ↔ zero < t := by
  cases t with
  | zero => exact iff_of_false List.not_lex_nil (not_lt_zero zero)
  | cons sub arg rest => exact iff_of_true .nil (zero_lt_cons sub arg rest)

/-- **Sequence order**: a term lies below another one if its list of addends comes before the other
one's. -/
theorem lt_iff_lex (s t : Term) : s < t ↔ List.Lex (ByParts psi (· < ·)) s.addends t.addends := by
  induction s generalizing t with
  | zero => exact (lex_zero_addends_iff t).symm
  | cons sub arg rest _ _ ih_rest =>
    cases t with
    | zero => exact iff_of_false (not_lt_zero _) List.not_lex_nil
    | cons sub' arg' rest' => rw [lex_addends_cons_iff, cons_lt_cons_iff, ih_rest]

/-- The order of terms is the only relation that is the order of sequences for itself. -/
theorem lt_iff_of_lex {below : Term → Term → Prop}
    (h : ∀ s t, below s t ↔ List.Lex (ByParts psi below) s.addends t.addends) (s t : Term) :
    below s t ↔ s < t := by
  -- Subscripts, arguments and the list of the remaining addends are all parts of `s`, so the
  -- hypothesis unfolds no further than the induction reaches.
  induction s generalizing t with
  | zero => rw [h, lex_zero_addends_iff]
  | cons sub arg rest ih_sub ih_arg ih_rest =>
    cases t with
    | zero =>
      rw [h]
      exact iff_of_false List.not_lex_nil (not_lt_zero _)
    | cons sub' arg' rest' =>
      rw [h, lex_addends_cons_iff, ← h, ih_sub, ih_arg, ih_rest, cons_lt_cons_iff]

end Term

/-! ## §3 Raw terms -/

namespace RawTerm

/-- Some budget is enough to find that `σ` lies below `τ`. -/
def Below (σ τ : RawTerm) : Prop := ∃ budget, lessThan budget σ τ = .ok true

theorem below_raw_iff (s t : Term) : Below s.raw t.raw ↔ s < t := by
  rw [Below, (reaches_lessThan s t).exists_eq_ok_iff, Except.ok.injEq]
  rfl

theorem psi_injective2 : Function.Injective2 psi := by
  rintro a a' b b' ⟨⟩
  exact ⟨rfl, rfl⟩

theorem lex_rawAddends_iff (s t : Term) :
    List.Lex (ByParts psi Below) s.rawAddends t.rawAddends ↔ s < t := by
  induction s generalizing t with
  | zero =>
    cases t with
    | zero => exact iff_of_false List.not_lex_nil (Term.not_lt_zero _)
    | cons sub arg rest => exact iff_of_true .nil (Term.zero_lt_cons sub arg rest)
  | cons sub arg rest _ _ ih_rest =>
    cases t with
    | zero => exact iff_of_false List.not_lex_nil (Term.not_lt_zero _)
    | cons sub' arg' rest' =>
      rw [Term.rawAddends_cons, Term.rawAddends_cons, List.cons_lex_cons_iff,
        byParts_iff psi_injective2, psi_injective2.eq_iff, below_raw_iff, below_raw_iff, ih_rest,
        Term.raw_injective.eq_iff, Term.raw_injective.eq_iff, Term.cons_lt_cons_iff]
      grind

/-- **The documented order**: terms are compared as their lists of addends, lexicographically, with
principal terms compared by their parts; this determines the order; and comparison of canonical raw
terms, which goes through the pairs of their shapes, always ends and finds this order. -/
theorem lessThan_sequenceOrder :
    (∀ s t : Term, s.lessThan t = true ↔
      List.Lex (ByParts .psi fun s t => s.lessThan t = true) s.addends t.addends) ∧
    (∀ below : Term → Term → Prop,
      (∀ s t, below s t ↔ List.Lex (ByParts .psi below) s.addends t.addends) →
        ∀ s t, below s t ↔ s.lessThan t = true) ∧
    ∀ σ τ, Canonical σ → Canonical τ → ∃ holds,
      Reaches (fun budget => lessThan budget σ τ) (.ok holds) ∧
        (holds = true ↔ List.Lex (ByParts psi Below) σ.addends τ.addends) := by
  refine ⟨Term.lt_iff_lex, fun below h => Term.lt_iff_of_lex h, ?_⟩
  intro σ τ hσ hτ
  -- Canonical raw terms are those of terms, of which the answer is known.
  obtain ⟨s, rfl⟩ := (canonical_iff σ).1 hσ
  obtain ⟨t, rfl⟩ := (canonical_iff τ).1 hτ
  refine ⟨s.lessThan t, reaches_lessThan s t, ?_⟩
  rw [Term.addends_raw, Term.addends_raw, lex_rawAddends_iff]
  rfl

/-- Two sums with equal first addends, and the order as it is read off `≤`. -/
theorem lessThan_sequenceOrder_sums :
    Canonical (sum [omega, one]) ∧ Canonical (sum [omega, omega]) ∧
      (∃ holds,
        Reaches (fun budget => lessThan budget (sum [omega, one]) (sum [omega, omega]))
          (.ok holds) ∧
        (holds = true ↔ List.Lex (ByParts psi Below) [omega, one] [omega, omega])) ∧
      ∀ s t : Term, ¬ t ≤ s ↔ s.lessThan t = true := by
  have first : Canonical (sum [omega, one]) := canonical_raw (Term.omega + Term.one)
  have second : Canonical (sum [omega, omega]) := canonical_raw (Term.omega + Term.omega)
  have not_above (s t : Term) :
      ¬ t ≤ s ↔ List.Lex (ByParts .psi fun s t => ¬ t ≤ s) s.addends t.addends := by
    simp only [not_le]
    exact Term.lt_iff_lex s t
  exact ⟨first, second, lessThan_sequenceOrder.2.2 _ _ first second,
    lessThan_sequenceOrder.2.1 _ not_above⟩

end RawTerm

end Collapsing
