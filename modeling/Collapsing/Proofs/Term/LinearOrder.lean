import Collapsing.Term.Order
import Mathlib.Order.Defs.LinearOrder

/-!
# The order of terms is linear

Comparing two terms from the front is a lexicographic comparison of trees.  The equation for
two sums, `cons_lt_cons_iff`, says what is compared: the subscripts of the first addends, then
their arguments, then what remains.  Everything else follows from it by induction on one of
the terms.

## Main statements

- `lessThan_strictTotal`: `lessThan` is irreflexive and transitive, and of `s < t`, `s = t` and
  `t < s` exactly one holds;
- the instance `LinearOrder Term`, with `lessThan` as its `<`.
-/

namespace Collapsing.Term

/-! ## §1 What is compared -/

theorem lt_iff_compare {s t : Term} : s < t ↔ compare s t = .lt := by
  show (compare s t).isLT = true ↔ compare s t = .lt
  cases compare s t <;> decide

theorem le_iff_compare {s t : Term} : s ≤ t ↔ compare s t ≠ .gt := by
  show (compare s t).isLE = true ↔ compare s t ≠ .gt
  cases compare s t <;> decide

theorem zero_lt_cons (sub arg rest : Term) : zero < cons sub arg rest := rfl

theorem not_lt_zero (t : Term) : ¬ t < zero := by
  cases t with
  | zero => exact Bool.false_ne_true
  | cons sub arg rest => exact Bool.false_ne_true

/-- Subscripts are compared first, then arguments, then the remaining addends. -/
theorem cons_lt_cons_iff {sub arg rest sub' arg' rest' : Term} :
    cons sub arg rest < cons sub' arg' rest' ↔
      sub < sub' ∨ sub = sub' ∧ (arg < arg' ∨ arg = arg' ∧ rest < rest') := by
  simp only [lt_iff_compare, compare_cons_cons, Ordering.then_eq_lt, compare_eq_iff]

theorem cons_lt_cons_of_sub {sub sub' arg arg' rest rest' : Term} (h : sub < sub') :
    cons sub arg rest < cons sub' arg' rest' :=
  cons_lt_cons_iff.2 (.inl h)

theorem cons_lt_cons_of_arg {arg arg' rest rest' : Term} (sub : Term) (h : arg < arg') :
    cons sub arg rest < cons sub arg' rest' :=
  cons_lt_cons_iff.2 (.inr ⟨rfl, .inl h⟩)

theorem cons_lt_cons_of_rest {rest rest' : Term} (sub arg : Term) (h : rest < rest') :
    cons sub arg rest < cons sub arg rest' :=
  cons_lt_cons_iff.2 (.inr ⟨rfl, .inr ⟨rfl, h⟩⟩)

/-! ## §2 The laws of a linear order -/

theorem lessThan_self (t : Term) : lessThan t t = false := by
  rw [lessThan, compare_self]
  rfl

theorem lessThan_trans {r s t : Term} (hrs : r < s) (hst : s < t) : r < t := by
  induction r generalizing s t with
  | zero =>
    cases t with
    | zero => exact absurd hst (not_lt_zero s)
    | cons sub arg rest => exact zero_lt_cons sub arg rest
  | cons sub arg rest ih_sub ih_arg ih_rest =>
    cases s with
    | zero => exact absurd hrs (not_lt_zero _)
    | cons sub' arg' rest' =>
      cases t with
      | zero => exact absurd hst (not_lt_zero _)
      | cons sub'' arg'' rest'' =>
        rw [cons_lt_cons_iff] at hrs hst ⊢
        -- The first place where one of the two steps is strict decides.
        rcases hrs with h | ⟨rfl, h | ⟨rfl, h⟩⟩
        · rcases hst with k | ⟨rfl, _⟩
          · exact .inl (ih_sub h k)
          · exact .inl h
        · rcases hst with k | ⟨rfl, k | ⟨rfl, _⟩⟩
          · exact .inl k
          · exact .inr ⟨rfl, .inl (ih_arg h k)⟩
          · exact .inr ⟨rfl, .inl h⟩
        · rcases hst with k | ⟨rfl, k | ⟨rfl, k⟩⟩
          · exact .inl k
          · exact .inr ⟨rfl, .inl k⟩
          · exact .inr ⟨rfl, .inr ⟨rfl, ih_rest h k⟩⟩

theorem le_iff_lessThan_or_eq {s t : Term} : s ≤ t ↔ s < t ∨ s = t := by
  rw [le_iff_compare, lt_iff_compare, ← compare_eq_iff]
  cases compare s t <;> decide

theorem lt_iff_not_le {s t : Term} : s < t ↔ ¬ t ≤ s := by
  rw [lt_iff_compare, le_iff_compare, ← compare_swap s t]
  cases compare s t <;> decide

instance : LinearOrder Term where
  le_refl t := le_iff_lessThan_or_eq.2 (.inr rfl)
  le_trans r s t hrs hst := by
    rw [le_iff_lessThan_or_eq] at hrs hst ⊢
    rcases hrs with hrs | rfl
    · rcases hst with hst | rfl
      · exact .inl (lessThan_trans hrs hst)
      · exact .inl hrs
    · exact hst
  le_antisymm s t hst hts := by
    rcases le_iff_lessThan_or_eq.1 hst with h | h
    · exact absurd hts (lt_iff_not_le.1 h)
    · exact h
  lt_iff_le_not_ge s t := by
    constructor
    · intro h
      exact ⟨le_iff_lessThan_or_eq.2 (.inl h), lt_iff_not_le.1 h⟩
    · intro h
      exact lt_iff_not_le.2 h.2
  le_total s t := by
    rw [le_iff_compare, le_iff_compare, ← compare_swap s t]
    cases compare s t <;> decide
  toDecidableLE := inferInstance
  toDecidableLT := inferInstance
  toDecidableEq := inferInstance
  max := Term.max
  max_def s t := by
    show (if s < t then t else s) = if s ≤ t then t else s
    simp only [le_iff_lessThan_or_eq]
    by_cases h : s = t
    · simp [h]
    · simp [h]
  compare_eq_compareOfLessAndEq s t := by
    simp only [compareOfLessAndEq, lt_iff_compare, ← compare_eq_iff]
    cases compare s t <;> rfl

/-! ## §3 Sums -/

theorem zero_le (t : Term) : zero ≤ t := not_lt.1 (not_lt_zero t)

theorem cons_le_cons_of_rest {rest rest' : Term} (sub arg : Term) (h : rest ≤ rest') :
    cons sub arg rest ≤ cons sub arg rest' := by
  rw [le_iff_lessThan_or_eq] at h ⊢
  rcases h with lt | rfl
  · exact .inl (cons_lt_cons_of_rest sub arg lt)
  · exact .inr rfl

/-- A sum lies above what stands at its front. -/
theorem lt_plus_cons (t sub arg rest : Term) : t < t + cons sub arg rest := by
  induction t with
  | zero => exact zero_lt_cons sub arg rest
  | cons sub' arg' _ _ _ ih => exact cons_lt_cons_of_rest sub' arg' ih

/-- The subscript of the first addend lies below the sum. -/
theorem sub_lt_cons (sub arg rest : Term) : sub < cons sub arg rest := by
  induction sub generalizing arg rest with
  | zero => exact zero_lt_cons zero arg rest
  | cons sub' arg' rest' ih_sub _ _ =>
    -- Both sides have first addends, and the first of them has a part of the other as its subscript.
    have subscripts : sub' < cons sub' arg' rest' := ih_sub arg' rest'
    exact cons_lt_cons_of_sub subscripts

/-! ## §4 The main statement -/

/-- **Strict total order**: no term lies below itself, `lessThan` is transitive, and for any two
terms exactly one of `s < t`, `s = t` and `t < s` holds. -/
theorem lessThan_strictTotal :
    (∀ t, lessThan t t = false) ∧
    (∀ r s t, lessThan r s = true → lessThan s t = true → lessThan r t = true) ∧
    ∀ s t,
      (lessThan s t = true ∧ s ≠ t ∧ lessThan t s = false) ∨
      (lessThan s t = false ∧ s = t ∧ lessThan t s = false) ∨
      (lessThan s t = false ∧ s ≠ t ∧ lessThan t s = true) := by
  refine ⟨lessThan_self, fun r s t hrs hst => lessThan_trans hrs hst, ?_⟩
  intro s t
  rcases lt_trichotomy s t with h | rfl | h
  · exact .inl ⟨h, ne_of_lt h, eq_false_of_ne_true (lt_asymm h)⟩
  · exact .inr (.inl ⟨lessThan_self s, rfl, lessThan_self s⟩)
  · exact .inr (.inr ⟨eq_false_of_ne_true (lt_asymm h), ne_of_gt h, h⟩)

/-- A principal term, a sum that begins with it, and a larger principal term. -/
theorem lessThan_strictTotal_omega :
    lessThan omega (omega + one) = true ∧ lessThan (omega + one) bigOmega = true ∧
      lessThan omega bigOmega = true :=
  ⟨by decide, by decide,
    lessThan_strictTotal.2.1 omega (omega + one) bigOmega (by decide) (by decide)⟩

end Collapsing.Term
