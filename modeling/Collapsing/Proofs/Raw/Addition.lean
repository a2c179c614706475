import Collapsing.Proofs.Raw.Values

/-!
# Addition on the left and the order

Addition puts lists of addends one after the other, and the order compares such lists from the
front.  So what two sums `x + a` and `x + b` have in common at the front makes no difference: they
compare as `a` and `b` do.  With `0` for `a` this says that a sum lies above what stands at its
front, unless nothing is added.

Of raw terms neither is plain.  A sum drops a `0` on either side, and otherwise its parts are taken
apart and put together under a check; and a comparison takes the first addends off, puts the others
together again, and ends with terms of other shapes than it began with.  On canonical terms both do
what they do for terms.

## Main statements

- `compare_plus_plus`, `lessThan_plus_iff`: sums with the same front part;
- `plus_orderEmbedding`: the same for terms and for canonical raw terms.
-/

namespace Collapsing

namespace Term

/-- Sums with the same front part compare as the parts behind it. -/
theorem compare_plus_plus (x a b : Term) : compare (x + a) (x + b) = compare a b := by
  induction x with
  | zero => rfl
  | cons sub arg rest _ _ ih =>
    -- The first addends agree, so the comparison goes on behind them.
    rw [cons_plus, cons_plus, compare_cons_cons, compare_self, compare_self, ih]
    rfl

theorem lessThan_plus_plus (x a b : Term) : lessThan (x + a) (x + b) = lessThan a b := by
  rw [lessThan, compare_plus_plus, lessThan]

theorem lessThan_zero_iff {t : Term} : lessThan zero t = true ↔ t ≠ zero := by
  cases t with
  | zero => exact iff_of_false (not_lt_zero zero) (not_not_intro rfl)
  | cons sub arg rest => exact iff_of_true (zero_lt_cons sub arg rest) nofun

/-- A sum lies above what stands at its front, unless nothing is added. -/
theorem lessThan_plus_iff (x b : Term) : lessThan x (x + b) = true ↔ b ≠ zero := by
  calc lessThan x (x + b) = true ↔ lessThan (x + zero) (x + b) = true := by rw [plus_zero]
    _ ↔ lessThan zero b = true := by rw [lessThan_plus_plus]
    _ ↔ b ≠ zero := lessThan_zero_iff

end Term

namespace RawTerm

open Term (lessThan_plus_plus lessThan_plus_iff)

/-- **Addition on the left respects and reflects the order**: sums with the same front part compare
as the parts behind it, and a sum lies above its front part exactly if something is added to it.
Canonical raw terms are added without a failing check, and their comparisons end with these
answers. -/
theorem plus_orderEmbedding :
    (∀ x a b : Term, (x + a).lessThan (x + b) = a.lessThan b) ∧
    (∀ x b : Term, x.lessThan (x + b) = true ↔ b ≠ .zero) ∧
    ∀ ξ α β, Canonical ξ → Canonical α → Canonical β → ∃ left right holds above,
      plus ξ α = .ok left ∧ plus ξ β = .ok right ∧
        Reaches (fun budget => lessThan budget α β) (.ok holds) ∧
        Reaches (fun budget => lessThan budget left right) (.ok holds) ∧
        Reaches (fun budget => lessThan budget ξ right) (.ok above) ∧
        (above = true ↔ β ≠ zero) := by
  refine ⟨lessThan_plus_plus, lessThan_plus_iff, ?_⟩
  intro ξ α β hξ hα hβ
  -- Canonical raw terms are those of terms, of which the answers are known.
  obtain ⟨x, rfl⟩ := (canonical_iff ξ).1 hξ
  obtain ⟨a, rfl⟩ := (canonical_iff α).1 hα
  obtain ⟨b, rfl⟩ := (canonical_iff β).1 hβ
  have sums := reaches_lessThan (x + a) (x + b)
  rw [lessThan_plus_plus] at sums
  refine ⟨_, _, _, _, plus_raw x a, plus_raw x b, reaches_lessThan a b, sums,
    reaches_lessThan x (x + b), ?_⟩
  rw [lessThan_plus_iff, ← Term.raw_zero, Term.raw_injective.ne_iff]

/-- A front part with several addends, before a principal term and before a sum. -/
theorem plus_orderEmbedding_sums :
    Canonical (sum [omega, one]) ∧ Canonical omega ∧ Canonical (sum [omega, one, one]) ∧
      ∃ left right holds above,
        plus (sum [omega, one]) omega = .ok left ∧
        plus (sum [omega, one]) (sum [omega, one, one]) = .ok right ∧
        Reaches (fun budget => lessThan budget omega (sum [omega, one, one])) (.ok holds) ∧
        Reaches (fun budget => lessThan budget left right) (.ok holds) ∧
        Reaches (fun budget => lessThan budget (sum [omega, one]) right) (.ok above) ∧
        (above = true ↔ sum [omega, one, one] ≠ zero) := by
  have front : Canonical (sum [omega, one]) := canonical_raw (Term.omega + Term.one)
  have first : Canonical omega := canonical_raw Term.omega
  have second : Canonical (sum [omega, one, one]) :=
    canonical_raw (Term.omega + Term.one + Term.one)
  exact ⟨front, first, second, plus_orderEmbedding.2.2 _ _ _ front first second⟩

end RawTerm

end Collapsing
