import Collapsing.Proofs.Term.LinearOrder
import Mathlib.Data.List.Pairwise
import Mathlib.Data.List.Sort
import Mathlib.Order.MinMax

/-!
# Derived comparisons, sorting and the largest term

Only `<` and equality are decided by looking at the terms.  The other comparisons are derived from
these two, partly by negation: a term exceeds another one if it differs from it and does not lie
below it.  By trichotomy this is the same as comparing in the other direction.

A list may hold a term several times and in any order.  Terms of which neither lies below the other
are equal, so a list has one ascending arrangement only, no matter how the list is arranged itself
and by which procedure it is sorted; and its last entry is the largest term of the list.

## Main statements

- `exceeds_eq_lessThan`, `isAtLeast_eq_isAtMost`: derived comparisons and the other direction;
- `eq_sort_iff`: the ascending arrangement of a list;
- `largest?_eq_ok_iff`: the largest term of a list;
- `comparisons_agree`: all of these together.
-/

namespace Collapsing.Term

/-! ## §1 Derived comparisons -/

/-- `s ≤ t`, as the alternative of `s < t` and `s = t`. -/
def isAtMost (s t : Term) : Bool := s.lessThan t || s = t

/-- `s > t`, as neither `s < t` nor `s = t`. -/
def exceeds (s t : Term) : Bool := !s.lessThan t && s ≠ t

/-- `s ≥ t`, as the negation of `s < t`. -/
def isAtLeast (s t : Term) : Bool := !s.lessThan t

theorem isAtMost_iff {s t : Term} : s.isAtMost t = true ↔ s ≤ t := by
  rw [isAtMost, Bool.or_eq_true, decide_eq_true_eq, le_iff_lessThan_or_eq]
  rfl

theorem isAtLeast_iff {s t : Term} : s.isAtLeast t = true ↔ t ≤ s := by
  have negated : s.isAtLeast t = true ↔ ¬ s < t := by
    rw [isAtLeast, Bool.not_eq_true', ← Bool.not_eq_true]
    rfl
  rw [negated, not_lt]

theorem exceeds_iff {s t : Term} : s.exceeds t = true ↔ t < s := by
  rw [exceeds, Bool.and_eq_true, decide_eq_true_eq, lt_iff_le_and_ne]
  exact and_congr isAtLeast_iff ne_comm

/-- A term exceeds those that lie below it. -/
theorem exceeds_eq_lessThan (s t : Term) : s.exceeds t = t.lessThan s := by
  rw [Bool.eq_iff_iff, exceeds_iff]
  rfl

theorem isAtLeast_eq_isAtMost (s t : Term) : s.isAtLeast t = t.isAtMost s := by
  rw [Bool.eq_iff_iff, isAtLeast_iff, isAtMost_iff]

/-- The comparison with three outcomes: equality is looked at first, and then the order. -/
theorem compare_eq_ite (s t : Term) :
    compare s t = if s = t then .eq else if s < t then .lt else .gt := by
  rcases lt_trichotomy s t with below | rfl | above
  · rw [if_neg (ne_of_lt below), if_pos below, lt_iff_compare.1 below]
  · rw [if_pos rfl, compare_self]
  · rw [if_neg (ne_of_gt above), if_neg (lt_asymm above), ← compare_swap, lt_iff_compare.1 above,
      Ordering.swap_lt]

/-! ## §2 Sorting -/

theorem sort_perm (ts : List Term) : (sort ts).Perm ts := List.mergeSort_perm ts _

theorem sort_pairwise (ts : List Term) : (sort ts).Pairwise (· ≤ ·) := by
  have trans (r s t : Term) : (compare r s).isLE → (compare s t).isLE → (compare r t).isLE :=
    le_trans (a := r)
  have total (s t : Term) : (compare s t).isLE || (compare t s).isLE :=
    Bool.or_eq_true_iff.2 (le_total s t)
  exact List.pairwise_mergeSort trans total ts

/-- **The ascending arrangement**: sorting is the only way to arrange a list such that no term lies
below one in front of it. -/
theorem eq_sort_iff {ts us : List Term} :
    us = sort ts ↔ us.Perm ts ∧ us.Pairwise fun s t => ¬ t < s := by
  simp only [not_lt]
  constructor
  · rintro rfl
    exact ⟨sort_perm ts, sort_pairwise ts⟩
  · rintro ⟨perm, ascending⟩
    -- Terms that are equivalent in the order are equal, so their arrangement makes no difference.
    exact List.Perm.eq_of_pairwise' ascending (sort_pairwise ts) (perm.trans (sort_perm ts).symm)

theorem sort_eq_of_perm {ts us : List Term} (h : ts.Perm us) : sort ts = sort us := by
  apply eq_sort_iff.2
  simp only [not_lt]
  exact ⟨(sort_perm ts).trans h, sort_pairwise ts⟩

theorem sort_eq_nil_iff {ts : List Term} : sort ts = [] ↔ ts = [] := by
  rw [← List.length_eq_zero_iff, (sort_perm ts).length_eq, List.length_eq_zero_iff]

/-! ## §3 The largest term -/

theorem largest?_eq_ok_iff_max? {ts : List Term} {m : Term} :
    largest? ts = .ok m ↔ ts.max? = some m := by
  cases ts with
  | nil => simp [largest?]
  | cons t ts =>
    rw [List.max?_cons', Option.some.injEq, largest?, Except.ok.injEq]
    rfl

/-- The largest term of a list is one of its terms, and none exceeds it. -/
theorem largest?_eq_ok_iff {ts : List Term} {m : Term} :
    largest? ts = .ok m ↔ m ∈ ts ∧ ∀ t ∈ ts, t ≤ m := by
  rw [largest?_eq_ok_iff_max?, List.max?_eq_some_iff]

/-- The largest term comes last when the list is sorted. -/
theorem largest?_eq_getLast?_sort (ts : List Term) :
    largest? ts = (sort ts).getLast?.elim (.error .noTerms) .ok := by
  by_cases empty : sort ts = []
  · rw [empty, sort_eq_nil_iff.1 empty]
    rfl
  · rw [List.getLast?_eq_getLast_of_ne_nil empty, Option.elim_some, largest?_eq_ok_iff]
    constructor
    · exact (sort_perm ts).mem_iff.1 (List.getLast_mem empty)
    · intro t mem
      exact (sort_pairwise ts).rel_getLast ((sort_perm ts).mem_iff.2 mem)

theorem largest?_eq_of_perm {ts us : List Term} (h : ts.Perm us) : largest? ts = largest? us := by
  rw [largest?_eq_getLast?_sort, largest?_eq_getLast?_sort, sort_eq_of_perm h]

theorem exists_largest {ts : List Term} (nonempty : ts ≠ []) :
    ∃ m, largest? ts = .ok m ∧ (sort ts).getLast? = some m := by
  have last := List.getLast?_eq_getLast_of_ne_nil (mt sort_eq_nil_iff.1 nonempty)
  refine ⟨_, ?_, last⟩
  rw [largest?_eq_getLast?_sort, last, Option.elim_some]

/-! ## §4 The main statement -/

/-- **All comparisons agree**: exceeding a term means that it lies below, and being at least a term
that it is at most the other one; the comparison with three outcomes looks at equality and at `<`,
and is opposite in the other direction.  A list has one arrangement in which no term lies below one
in front of it, and sorting finds it; lists of the same terms have the same ascending arrangement and
the same largest term; and the largest term of a list is one of its terms, comes last in the
ascending arrangement, and is exceeded by none. -/
theorem comparisons_agree :
    (∀ s t : Term, s.exceeds t = t.lessThan s ∧ s.isAtLeast t = t.isAtMost s) ∧
    (∀ s t : Term, compare s t = if s = t then .eq else if s < t then .lt else .gt) ∧
    (∀ s t : Term, compare t s = (compare s t).swap) ∧
    (∀ ts us : List Term, us = sort ts ↔ us.Perm ts ∧ us.Pairwise fun s t => ¬ t < s) ∧
    (∀ ts us : List Term, ts.Perm us → sort ts = sort us ∧ largest? ts = largest? us) ∧
    ∀ ts : List Term, ts ≠ [] → ∃ m, largest? ts = .ok m ∧ m ∈ ts ∧
      (sort ts).getLast? = some m ∧ ∀ t ∈ ts, t.exceeds m = false := by
  refine ⟨fun s t => ⟨exceeds_eq_lessThan s t, isAtLeast_eq_isAtMost s t⟩, compare_eq_ite,
    fun s t => (compare_swap s t).symm, fun ts us => eq_sort_iff,
    fun ts us same => ⟨sort_eq_of_perm same, largest?_eq_of_perm same⟩, ?_⟩
  intro ts nonempty
  obtain ⟨m, largest, last⟩ := exists_largest nonempty
  obtain ⟨mem, bound⟩ := largest?_eq_ok_iff.1 largest
  refine ⟨m, largest, mem, last, ?_⟩
  intro t mem_t
  rw [← Bool.not_eq_true, exceeds_iff, not_lt]
  exact bound t mem_t

/-- A list with a repeated term, in two arrangements. -/
theorem comparisons_agree_repeated :
    sort [bigOmega, one, omega, one] = sort [one, omega, one, bigOmega] ∧
      ∃ m, largest? [bigOmega, one, omega, one] = .ok m ∧ m ∈ [bigOmega, one, omega, one] ∧
        (sort [bigOmega, one, omega, one]).getLast? = some m ∧
        ∀ t ∈ [bigOmega, one, omega, one], t.exceeds m = false :=
  ⟨(comparisons_agree.2.2.2.2.1 _ _ (by decide)).1, comparisons_agree.2.2.2.2.2 _ (by decide)⟩

end Collapsing.Term
