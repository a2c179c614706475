import Collapsing.Proofs.Raw.Values
import Collapsing.Proofs.Term.Copies

/-!
# Multiples at successor arguments

Where the argument of a principal term is a successor `a + 1`, the elements of its fundamental
sequence are sums of copies of `亞(sub, a)`, as many as the index has ones at its end.  The index may
be any term: the count stops at its last addend that is no `1`.

Evaluation of raw terms counts nothing.  It goes down from the index to its predecessor, which is
itself found as an element, and adds one copy on the way back, under the check of a sum.  A single
copy is no sum and no copy at all is `0`, so the shape of what has been added up changes with each of
the first steps.  On canonical terms the value is the sum of the copies in the shape that belongs to
their number.

## Main statements

- `expand_eq_concat`: an element as a sum of copies;
- `trailingOnes_raw`: ones are counted in canonical raw terms as in terms;
- `expand_multiples`: elements of terms and of canonical raw terms.
-/

namespace Collapsing

namespace Term

/-! ## §1 Sums of copies -/

theorem concat_replicate (sub arg : Term) (n : Nat) :
    concat (List.replicate n (psi sub arg)) = copies sub arg n := by
  rw [← addends_copies, concat_addends]

/-- At the argument `a + 1` an element is the sum of copies of `亞(sub, a)`. -/
theorem expand_eq_concat (sub a y : Term) :
    (psi sub (a + one)).expand y = concat (List.replicate y.trailingOnes (psi sub a)) := by
  have successor : (a + one).degree = one := degree_eq_one_iff.2 ⟨a, rfl⟩
  rw [expand_eq_copies successor, dropLast_plus_psi, concat_replicate]

/-! ## §2 Raw forms -/

theorem rawAddends_eq_map (t : Term) : t.rawAddends = t.addends.map raw := by
  induction t with
  | zero => rfl
  | cons sub arg rest _ _ ih =>
    rw [rawAddends_cons, ih, addends_cons, List.map_cons, raw_psi]

/-- The sum of copies in raw form. -/
theorem raw_concat_replicate (sub arg : Term) (n : Nat) :
    (concat (List.replicate n (psi sub arg))).raw =
      RawTerm.collapse (List.replicate n (.psi sub.raw arg.raw)) := by
  have principal : (List.replicate n (psi sub arg)).all isPrincipal = true := by
    simp [List.all_replicate, isPrincipal]
  rw [raw, rawAddends_concat principal, List.map_replicate, raw_psi]

end Term

namespace RawTerm

/-- How many of the addends at the end of a term are `1`, up to the last one that is not. -/
def trailingOnes (τ : RawTerm) : Nat := (τ.addends.reverse.takeWhile isOne).length

theorem trailingOnes_raw (t : Term) : t.raw.trailingOnes = t.trailingOnes := by
  have same : isOne ∘ Term.raw = fun t => decide (t = Term.one) := funext isOne_raw
  rw [trailingOnes, Term.addends_raw, Term.rawAddends_eq_map, ← List.map_reverse,
    List.takeWhile_map, List.length_map, same, Term.trailingOnes]

/-! ## §3 The main statement -/

/-- **Successor arguments give multiples**: an element of `亞(sub, a + 1)` is the sum of copies of
`亞(sub, a)`, one for each of the ones at the end of the index, so that the element at the numeral
`n` has `n` addends.  For canonical raw terms the argument passes its check, and the evaluation ends
with the sum of as many copies: `0` for none, the copy itself for a single one. -/
theorem expand_multiples :
    (∀ sub a y : Term, (Term.psi sub (a + .one)).expand y =
      .concat (List.replicate y.trailingOnes (.psi sub a))) ∧
    (∀ (sub a : Term) (n : Nat),
      ((Term.psi sub (a + .one)).expand (.numeral n)).addends.length = n) ∧
    ∀ σ α υ, Canonical σ → Canonical α → Canonical υ → ∃ β, plus α one = .ok β ∧
      Reaches (fun budget => expand budget (psi σ β) υ)
        (.ok (collapse (List.replicate υ.trailingOnes (psi σ α)))) := by
  refine ⟨Term.expand_eq_concat, ?_, ?_⟩
  · intro sub a n
    rw [Term.expand_eq_concat, Term.trailingOnes_numeral, Term.concat_replicate,
      Term.addends_copies, List.length_replicate]
  · intro σ α υ hσ hα hυ
    -- Canonical raw terms are those of terms, of which the element is known.
    obtain ⟨sub, rfl⟩ := (canonical_iff σ).1 hσ
    obtain ⟨a, rfl⟩ := (canonical_iff α).1 hα
    obtain ⟨y, rfl⟩ := (canonical_iff υ).1 hυ
    refine ⟨(a + Term.one).raw, plus_raw a Term.one, ?_⟩
    rw [trailingOnes_raw, ← Term.raw_concat_replicate, ← Term.expand_eq_concat]
    exact reaches_expand (Term.psi sub (a + Term.one)) y

/-- An index with a limit in front of its ones, and one without ones. -/
theorem expand_multiples_limit_prefix :
    Canonical omega ∧ Canonical one ∧ Canonical (sum [omega, one, one]) ∧
      (∃ β, plus one one = .ok β ∧
        Reaches (fun budget => expand budget (psi omega β) (sum [omega, one, one]))
          (.ok (sum [psi omega one, psi omega one]))) ∧
      ∃ β, plus one one = .ok β ∧
        Reaches (fun budget => expand budget (psi omega β) omega) (.ok zero) := by
  have sub : Canonical omega := canonical_raw Term.omega
  have arg : Canonical one := canonical_raw Term.one
  have index : Canonical (sum [omega, one, one]) :=
    canonical_raw (Term.omega + Term.one + Term.one)
  exact ⟨sub, arg, index, expand_multiples.2.2 _ _ _ sub arg index,
    expand_multiples.2.2 _ _ _ sub arg sub⟩

end RawTerm

end Collapsing
