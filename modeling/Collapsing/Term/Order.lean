import Collapsing.Term.Checked

/-!
# The order of terms

Terms are ordered like sequences: `0`, the empty one, is least; otherwise the first addends
decide, by their subscripts and then by their arguments, and after equal first addends the
remaining ones.

The comparison is one structural recursion over both terms.  `s < t`, `s ≤ t`, sorting and
the largest of a list are read off it.

## Main statements

- `compare_self`, `compare_eq_iff`: two terms compare as equal only if they are equal;
- `compare_swap`: comparing in the other order gives the opposite answer.
-/

namespace Collapsing.Term

/-! ## §1 Comparison -/

/-- Lexicographic comparison by subscript, argument and remaining addends; `0` is least. -/
def cmp : Term → Term → Ordering
  | zero, zero => .eq
  | zero, cons _ _ _ => .lt
  | cons _ _ _, zero => .gt
  | cons sub arg rest, cons sub' arg' rest' =>
    (cmp sub sub').then ((cmp arg arg').then (cmp rest rest'))

instance : Ord Term := ⟨cmp⟩

/-- Whether `s` lies below `t`. -/
def lessThan (s t : Term) : Bool := (compare s t).isLT

instance : LT Term := ⟨fun s t => s.lessThan t = true⟩

instance : LE Term := ⟨fun s t => (compare s t).isLE = true⟩

instance (s t : Term) : Decidable (s < t) := inferInstanceAs (Decidable (s.lessThan t = true))

instance (s t : Term) : Decidable (s ≤ t) :=
  inferInstanceAs (Decidable ((compare s t).isLE = true))

theorem compare_cons_cons (sub arg rest sub' arg' rest' : Term) :
    compare (cons sub arg rest) (cons sub' arg' rest') =
      (compare sub sub').then ((compare arg arg').then (compare rest rest')) := rfl

@[simp] theorem compare_self (t : Term) : compare t t = .eq := by
  induction t with
  | zero => rfl
  | cons sub arg rest ihs iha ihr => rw [compare_cons_cons, ihs, iha, ihr]; rfl

/-- Terms that compare as equal are equal. -/
theorem compare_eq_iff {s t : Term} : compare s t = .eq ↔ s = t := by
  refine ⟨fun h => ?_, fun h => h ▸ compare_self s⟩
  induction s generalizing t with
  | zero =>
    cases t with
    | zero => rfl
    | cons => cases h
  | cons sub arg rest ihs iha ihr =>
    cases t with
    | zero => cases h
    | cons sub' arg' rest' =>
      simp only [compare_cons_cons, Ordering.then_eq_eq] at h
      rw [ihs h.1, iha h.2.1, ihr h.2.2]

/-- Comparing in the other order gives the opposite answer. -/
theorem compare_swap (s t : Term) : (compare s t).swap = compare t s := by
  induction s generalizing t with
  | zero => cases t <;> rfl
  | cons sub arg rest ihs iha ihr =>
    cases t with
    | zero => rfl
    | cons sub' arg' rest' => simp only [compare_cons_cons, Ordering.swap_then, ihs, iha, ihr]

/-! ## §2 Lists of terms -/

/-- The terms in ascending order. -/
def sort (ts : List Term) : List Term := ts.mergeSort fun s t => (compare s t).isLE

/-- The larger of two terms. -/
protected def max (s t : Term) : Term := if s < t then t else s

/-- The largest of a list of terms; the empty list has none. -/
def largest? : List Term → Except TermError Term
  | [] => .error .noTerms
  | t :: ts => .ok (ts.foldl Term.max t)

end Collapsing.Term
