import Collapsing.Proofs.Raw.Basic

/-!
# Addition is concatenation

Addition puts the addends of two terms one after the other, and a term is determined by the list of
its addends.  So the laws of lists are laws of addition: it is associative, `0` is neutral, and what
two sums have in common, at the front or at the end, may be taken away.

For raw terms the list of addends comes in three shapes: `0` has none, a principal term is its own
only addend, and a sum holds a list.  A sum with `0` is the other term as it is; otherwise the two
lists are put together under the check of a sum.  On canonical terms the check is passed, and the
sum has the one shape that belongs to its list of addends, so equations between lists are equations
between raw terms again.

## Main statements

- `plus_right_inj`, `plus_left_inj`: addition on either side is cancellative;
- `exists_plus_plus`, `plus_eq_plus_left_iff`, `plus_eq_plus_right_iff`: associativity and cancellation
  for raw forms;
- `plus_concatenates`: the laws for terms and for canonical raw terms.
-/

namespace Collapsing

namespace Term

/-! ## §1 Cancellation -/

/-- A term is determined by its addends. -/
theorem addends_injective : Function.Injective addends :=
  Function.LeftInverse.injective concat_addends

theorem plus_right_inj {a b c : Term} : a + b = a + c ↔ b = c := by
  rw [← addends_injective.eq_iff, addends_plus, addends_plus, List.append_right_inj,
    addends_injective.eq_iff]

theorem plus_left_inj {a b c : Term} : b + a = c + a ↔ b = c := by
  rw [← addends_injective.eq_iff, addends_plus, addends_plus, List.append_left_inj,
    addends_injective.eq_iff]

end Term

namespace RawTerm

open Term (plus_assoc plus_left_inj plus_right_inj)

/-! ## §2 Raw forms -/

section RawForms

variable (a b c : Term)

theorem plus_raw_zero : plus a.raw zero = .ok a.raw := by
  rw [← Term.raw_zero, plus_raw, Term.plus_zero]

/-- Both orders of adding three raw forms pass the checks and give the same. -/
theorem exists_plus_plus : ∃ left right total, plus a.raw b.raw = .ok left ∧
    plus b.raw c.raw = .ok right ∧ plus left c.raw = .ok total ∧ plus a.raw right = .ok total := by
  refine ⟨(a + b).raw, (b + c).raw, (a + (b + c)).raw, plus_raw a b, plus_raw b c, ?_,
    plus_raw a (b + c)⟩
  rw [plus_raw, plus_assoc]

theorem plus_eq_plus_left_iff : plus a.raw b.raw = plus a.raw c.raw ↔ b.raw = c.raw := by
  rw [plus_raw, plus_raw, Except.ok.injEq, Term.raw_injective.eq_iff, Term.raw_injective.eq_iff,
    plus_right_inj]

theorem plus_eq_plus_right_iff : plus b.raw a.raw = plus c.raw a.raw ↔ b.raw = c.raw := by
  rw [plus_raw, plus_raw, Except.ok.injEq, Term.raw_injective.eq_iff, Term.raw_injective.eq_iff,
    plus_left_inj]

end RawForms

/-! ## §3 The main statement -/

/-- **Addition is concatenation**: the addends of a sum are those of its parts, one after the other,
and a term is put together again from its addends; addition is associative, has `0` as its neutral
element on both sides, and is cancellative on both sides.  The sums of canonical raw terms pass their
checks and obey the same laws. -/
theorem plus_concatenates :
    (∀ a b : Term, (a + b).addends = a.addends ++ b.addends) ∧
    (∀ a : Term, Term.ofAddends? a.addends = .ok a ∧ .zero + a = a ∧ a + .zero = a) ∧
    (∀ a b c : Term, a + b + c = a + (b + c) ∧ (a + b = a + c ↔ b = c) ∧
      (b + a = c + a ↔ b = c)) ∧
    (∀ α β, Canonical α → Canonical β → ∃ γ, plus α β = .ok γ ∧ Canonical γ ∧
      γ.addends = α.addends ++ β.addends) ∧
    (∀ α, Canonical α → ofAddends? α.addends = .ok α ∧ plus zero α = .ok α ∧
      plus α zero = .ok α) ∧
    ∀ α β γ, Canonical α → Canonical β → Canonical γ →
      (∃ left right total, plus α β = .ok left ∧ plus β γ = .ok right ∧
        plus left γ = .ok total ∧ plus α right = .ok total) ∧
      (plus α β = plus α γ ↔ β = γ) ∧ (plus β α = plus γ α ↔ β = γ) := by
  refine ⟨Term.addends_plus,
    fun a => ⟨Term.ofAddends?_addends a, Term.zero_plus a, Term.plus_zero a⟩,
    fun a b c => ⟨plus_assoc a b c, plus_right_inj, plus_left_inj⟩, ?_, ?_, ?_⟩
  -- Canonical raw terms are those of terms.
  · intro α β hα hβ
    obtain ⟨a, rfl⟩ := (canonical_iff α).1 hα
    obtain ⟨b, rfl⟩ := (canonical_iff β).1 hβ
    refine ⟨(a + b).raw, plus_raw a b, canonical_raw (a + b), ?_⟩
    rw [Term.addends_raw, Term.addends_raw, Term.addends_raw, Term.rawAddends_plus]
  · intro α hα
    obtain ⟨a, rfl⟩ := (canonical_iff α).1 hα
    rw [Term.addends_raw]
    exact ⟨ofAddends?_rawAddends a, plus_raw .zero a, plus_raw_zero a⟩
  · intro α β γ hα hβ hγ
    obtain ⟨a, rfl⟩ := (canonical_iff α).1 hα
    obtain ⟨b, rfl⟩ := (canonical_iff β).1 hβ
    obtain ⟨c, rfl⟩ := (canonical_iff γ).1 hγ
    exact ⟨exists_plus_plus a b c, plus_eq_plus_left_iff a b c, plus_eq_plus_right_iff a b c⟩

/-- A sum in front of a principal term, and two principal terms in front of a sum. -/
theorem plus_concatenates_shapes :
    Canonical omega ∧ Canonical one ∧ Canonical (sum [omega, one]) ∧
      (∃ γ, plus (sum [omega, one]) one = .ok γ ∧ Canonical γ ∧ γ.addends = [omega, one, one]) ∧
      (ofAddends? [omega, one] = .ok (sum [omega, one]) ∧
        plus zero (sum [omega, one]) = .ok (sum [omega, one]) ∧
        plus (sum [omega, one]) zero = .ok (sum [omega, one])) ∧
      (∃ left right total, plus omega one = .ok left ∧ plus one (sum [omega, one]) = .ok right ∧
        plus left (sum [omega, one]) = .ok total ∧ plus omega right = .ok total) ∧
      (plus omega one = plus omega (sum [omega, one]) ↔ one = sum [omega, one]) ∧
      (plus one omega = plus (sum [omega, one]) omega ↔ one = sum [omega, one]) := by
  have first : Canonical omega := canonical_raw Term.omega
  have second : Canonical one := canonical_raw Term.one
  have third : Canonical (sum [omega, one]) := canonical_raw (Term.omega + Term.one)
  exact ⟨first, second, third, plus_concatenates.2.2.2.1 _ _ third second,
    plus_concatenates.2.2.2.2.1 _ third, plus_concatenates.2.2.2.2.2 _ _ _ first second third⟩

end RawTerm

end Collapsing
