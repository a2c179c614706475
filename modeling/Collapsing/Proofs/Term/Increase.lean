import Collapsing.Proofs.Term.OmegaDegree

/-!
# Fundamental sequences increase

The elements `x[0], x[1], x[2], …` of a limit `x` grow strictly.

- *Degree above `ω`*: the index is copied into the term at one place, so the sequence is strictly
  increasing in arbitrary indices (`Higher.expand_strictMono`).
- *Degree `ω`*: the index counts copies of a principal term or the storeys of a tower, here or in a
  part of the term (`Counted.expand_strictMono`).

## Main statements

- `expand_numeral_strictMono`: elements of any limit;
- `fundamentalSequence_increasing`: the sequence as a list.
-/

namespace Collapsing.Term

/-- **Limits are approached from below by an increasing sequence.** -/
theorem expand_numeral_strictMono {x : Term} (h : x.isLimit = true) :
    StrictMono fun n => x.expand (numeral n) := by
  rw [isLimit_iff] at h
  rcases degree_range x with h₀ | h₁ | hω | ⟨c, hx, hc⟩
  · exact absurd h₀ h.1
  · exact absurd h₁ h.2
  · exact (counted_iff.2 hω).expand_strictMono
  · exact (higher_iff.2 ⟨c, hx, hc⟩).expand_strictMono.comp numeral_strictMono

/-- From an index on, the list of the elements is found for every length. -/
theorem fundamentalSequence_eq_ok (x : Term) (length : Int) (start : Nat) :
    fundamentalSequence x length start =
      .ok ((List.range length.toNat).map fun k => x.expand (numeral (start + k))) := by
  have element (k : Nat) :
      (do return x.expand (← numeral? (start + k)) : Except TermError Term) =
        pure (x.expand (numeral (start + k))) := rfl
  simp only [fundamentalSequence, element, List.mapM_pure]
  rfl

/-- **The fundamental sequence of a limit is strictly increasing**: at any two natural numbers, and
as a list, from any start on and for every length. -/
theorem fundamentalSequence_increasing :
    (∀ (x : Term) (m n : Nat), x.isLimit = true → m < n →
      lessThan (x.expand (numeral m)) (x.expand (numeral n)) = true) ∧
    ∀ (x : Term) (length start : Int), x.isLimit = true → 0 ≤ start →
      ∃ terms, fundamentalSequence x length start = .ok terms ∧ terms.length = length.toNat ∧
        terms.Pairwise fun s t => lessThan s t = true := by
  refine ⟨fun x m n limit lt => expand_numeral_strictMono limit lt, ?_⟩
  intro x length start limit h_start
  -- From here on the start is a natural number, so every index of the list is one.
  obtain ⟨start, rfl⟩ := Int.eq_ofNat_of_zero_le h_start
  refine ⟨_, fundamentalSequence_eq_ok x length start, by simp, ?_⟩
  rw [List.pairwise_map]
  apply List.pairwise_lt_range.imp
  intro j k lt
  exact expand_numeral_strictMono limit (Nat.add_lt_add_left lt start)

/-- Towers, copies and an index that is copied in, at the end of a sum that is not descending. -/
theorem fundamentalSequence_increasing_tower :
    (psi one (psi (numeral 2) zero)).isLimit = true ∧
    lessThan ((psi one (psi (numeral 2) zero)).expand (numeral 1))
      ((psi one (psi (numeral 2) zero)).expand (numeral 3)) = true ∧
    (one + psi omega one).isLimit = true ∧
    lessThan ((one + psi omega one).expand (numeral 0)) ((one + psi omega one).expand (numeral 2)) =
      true ∧
    (psi zero bigOmega + bigOmega).isLimit = true ∧
    ∃ terms, fundamentalSequence (psi zero bigOmega + bigOmega) 5 2 = .ok terms ∧
      terms.length = 5 ∧ terms.Pairwise fun s t => lessThan s t = true :=
  ⟨by decide, fundamentalSequence_increasing.1 _ 1 3 (by decide) (by decide),
    by decide, fundamentalSequence_increasing.1 _ 0 2 (by decide) (by decide),
    by decide, fundamentalSequence_increasing.2 _ 5 2 (by decide) (by decide)⟩

end Collapsing.Term
