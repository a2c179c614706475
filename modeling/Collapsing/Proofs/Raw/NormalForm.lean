import Collapsing.Proofs.Raw.SequenceOrder
import Collapsing.Proofs.Term.DegreeBound
import Mathlib.Data.List.Chain

/-!
# Raw terms in normal form

A raw term is normal if in every sum, at every depth, the addends descend weakly: no addend lies below
the next one.  Here a sum holds its addends as a list, and whether an addend lies below another one is
found by comparison.  The raw form of a term is normal exactly if the term is.

So what is known of normal terms is known of evaluations.  The degree of a canonical raw term may be
found below many subscripts, and its comparison with the term takes another way through the two.  If
the term is normal it comes to the answer that it has for terms: the degree is the term or lies below
it.

## Main statements

- `normal_raw_iff`: normal raw forms are those of normal terms;
- `degree_bounded`: the degree of a normal term, and of a normal raw term.
-/

namespace Collapsing.RawTerm

/-! ## §1 Normal raw terms -/

/-- In every sum, at every depth, no addend lies below the next one. -/
inductive Normal : RawTerm → Prop where
  | zero : Normal zero
  | psi {sub arg : RawTerm} (sub_normal : Normal sub) (arg_normal : Normal arg) :
      Normal (psi sub arg)
  | sum {addends : List RawTerm} (descending : addends.IsChain fun α β => ¬ Below α β)
      (addends_normal : ∀ addend ∈ addends, Normal addend) : Normal (sum addends)

theorem normal_psi_iff {sub arg : RawTerm} : Normal (psi sub arg) ↔ Normal sub ∧ Normal arg := by
  constructor
  · intro h
    cases h with
    | psi sub_normal arg_normal => exact ⟨sub_normal, arg_normal⟩
  · intro ⟨sub_normal, arg_normal⟩
    exact .psi sub_normal arg_normal

/-- Normal form depends on the list of addends only, whichever shape belongs to it. -/
theorem normal_collapse_iff {addends : List RawTerm} :
    Normal (collapse addends) ↔
      (addends.IsChain fun α β => ¬ Below α β) ∧ ∀ addend ∈ addends, Normal addend := by
  match addends with
  | [] => exact iff_of_true .zero ⟨.nil, nofun⟩
  | [addend] => simp [collapse]
  | addend :: addend' :: rest =>
    constructor
    · intro h
      cases h with
      | sum descending addends_normal => exact ⟨descending, addends_normal⟩
    · intro ⟨descending, addends_normal⟩
      exact .sum descending addends_normal

/-! ## §2 Raw forms -/

theorem mayPrecede_iff_head? {sub arg rest : Term} :
    Term.MayPrecede sub arg rest ↔
      ∀ τ ∈ rest.rawAddends.head?, ¬ Below (psi sub.raw arg.raw) τ := by
  cases rest with
  | zero => exact iff_of_true trivial nofun
  | cons sub' arg' rest' =>
    simp only [Term.rawAddends_cons, List.head?_cons, Option.mem_some_iff, forall_eq',
      ← Term.raw_psi, below_raw_iff]
    rfl

/-- **Normal raw forms** are the raw forms of normal terms. -/
theorem normal_raw_iff (t : Term) : Normal t.raw ↔ t.IsNormal := by
  induction t with
  | zero => exact iff_of_true .zero trivial
  | cons sub arg rest ih_sub ih_arg ih_rest =>
    rw [Term.raw, normal_collapse_iff] at ih_rest
    rw [Term.raw, normal_collapse_iff, Term.rawAddends_cons, List.isChain_cons,
      List.forall_mem_cons, normal_psi_iff, ih_sub, ih_arg, ← mayPrecede_iff_head?, Term.IsNormal,
      ← ih_rest]
    -- Both sides say the same of the first addend and of the remaining ones.
    constructor
    · rintro ⟨⟨order, descending⟩, ⟨sub_normal, arg_normal⟩, others_normal⟩
      exact ⟨sub_normal, arg_normal, order, descending, others_normal⟩
    · rintro ⟨sub_normal, arg_normal, order, descending, others_normal⟩
      exact ⟨⟨order, descending⟩, ⟨sub_normal, arg_normal⟩, others_normal⟩

/-! ## §3 Degrees -/

/-- **The degree never exceeds a normal term**: it is the term or lies below it; and for a canonical
raw term in normal form, evaluation of the degree ends with a value that is the term or is found to
lie below it. -/
theorem degree_bounded :
    (∀ t : Term, t.IsNormal → t.degree = t ∨ t.degree.lessThan t = true) ∧
    ∀ τ, Canonical τ → Normal τ → ∃ δ, Reaches (fun budget => degree budget τ) (.ok δ) ∧
      (δ = τ ∨ Reaches (fun budget => lessThan budget δ τ) (.ok true)) := by
  have bounded (t : Term) (h : t.IsNormal) : t.degree = t ∨ t.degree.lessThan t = true :=
    (Term.le_iff_lessThan_or_eq.1 h.degree_le).symm
  refine ⟨bounded, ?_⟩
  intro τ hτ normal
  obtain ⟨t, rfl⟩ := (canonical_iff τ).1 hτ
  refine ⟨t.degree.raw, reaches_degree t, ?_⟩
  rcases bounded t ((normal_raw_iff t).1 normal) with same | below
  · exact .inl (congrArg Term.raw same)
  · right
    rw [← below]
    exact reaches_lessThan t.degree t

/-- A degree that comes from two subscripts inside one another, and one from the end of a sum. -/
theorem degree_bounded_subscripts :
    Term.IsNormal (.psi (.psi .bigOmega .zero) .zero) ∧
    ((Term.psi (.psi .bigOmega .zero) .zero).degree = .psi (.psi .bigOmega .zero) .zero ∨
      (Term.psi (.psi .bigOmega .zero) .zero).degree.lessThan (.psi (.psi .bigOmega .zero) .zero) =
        true) ∧
    Canonical (sum [psi bigOmega omega, psi bigOmega zero]) ∧
    Normal (sum [psi bigOmega omega, psi bigOmega zero]) ∧
    ∃ δ, Reaches (fun budget => degree budget (sum [psi bigOmega omega, psi bigOmega zero]))
        (.ok δ) ∧
      (δ = sum [psi bigOmega omega, psi bigOmega zero] ∨
        Reaches (fun budget => lessThan budget δ (sum [psi bigOmega omega, psi bigOmega zero]))
          (.ok true)) := by
  have canonical : Canonical (sum [psi bigOmega omega, psi bigOmega zero]) :=
    canonical_raw (Term.psi .bigOmega .omega + Term.psi .bigOmega .zero)
  have normal : Normal (sum [psi bigOmega omega, psi bigOmega zero]) :=
    (normal_raw_iff (Term.psi .bigOmega .omega + Term.psi .bigOmega .zero)).2 (by decide)
  exact ⟨by decide, degree_bounded.1 _ (by decide), canonical, normal,
    degree_bounded.2 _ canonical normal⟩

end Collapsing.RawTerm
