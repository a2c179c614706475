import Collapsing.Proofs.Hydra.Encoding
import Collapsing.Proofs.Term.Copies
import Collapsing.Proofs.Term.Tower

/-!
# What can be drawn stays drawable

Sums, degrees and elements of fundamental sequences of terms that can be drawn can be drawn again, and
no element has a label above all the labels of the term and of its index.

`Labelled P` is followed through the table of fundamental sequences.  The subscripts of a labelled
term are numerals, so none of them is a limit and one row of the table does not occur.  The other rows
copy parts of the term and of the index, with one exception: a tower has new subscripts, the
predecessors of a subscript that the degree shows.  So `P` has to pass from a number to smaller ones.

## Main statements

- `labelled_plus_iff`, `Labelled.degree`, `Labelled.expand`: sums, degrees and elements;
- `drawable_closed`: the same for the rows.
-/

namespace Collapsing.Term

/-! ## §1 Sums and copies -/

section Labelled

variable {P : Nat → Prop}

theorem labelled_plus_iff {s t : Term} : Labelled P (s + t) ↔ Labelled P s ∧ Labelled P t := by
  induction s with
  | zero => simp [Labelled]
  | cons sub arg rest _ _ ih => simp only [cons_plus, Labelled, ih, and_assoc]

theorem Labelled.dropLast {t : Term} (h : Labelled P t) : Labelled P t.dropLast := by
  rcases eq_zero_or_plus_psi t with rfl | ⟨z, sub, arg, rfl⟩
  · exact labelled_zero
  · rw [dropLast_plus_psi]
    exact (labelled_plus_iff.1 h).1

theorem labelled_copies {sub arg : Term} (h : Labelled P (psi sub arg)) (n : Nat) :
    Labelled P (copies sub arg n) := by
  induction n with
  | zero => exact labelled_zero
  | succ n ih =>
    rw [copies_succ_eq_plus]
    exact labelled_plus_iff.2 ⟨ih, h⟩

/-! ## §2 Degrees -/

/-- A numeral is `0` or a successor. -/
theorem degree_numeral (n : Nat) : (numeral n).degree = zero ∨ (numeral n).degree = one := by
  cases n with
  | zero => exact .inl rfl
  | succ n =>
    rw [numeral_succ_eq_plus_one]
    exact .inr (degree_plus_psi _ zero zero)

/-- The subscript of a labelled term is no limit. -/
theorem Labelled.sub_degree {sub arg rest : Term} (h : Labelled P (cons sub arg rest)) :
    sub.degree = zero ∨ sub.degree = one := by
  obtain ⟨⟨n, _, rfl⟩, _⟩ := h
  exact degree_numeral n

/-- The degree is a constant or an addend of the term. -/
theorem Labelled.degree {t : Term} (closed : ∀ m n, m ≤ n → P n → P m) (h : Labelled P t) :
    Labelled P t.degree := by
  fun_induction Term.degree t with
  | case1 => exact labelled_zero
  | case2 _ _ _ _ _ ih => exact ih h.2.2
  | case3 => exact h
  | case4 _ _ _ limit => exact absurd h.sub_degree limit
  | case5 =>
    obtain ⟨⟨n, hn, _⟩, _⟩ := h
    have first : P 0 := closed 0 n (Nat.zero_le n) hn
    exact labelled_psi ⟨0, first, rfl⟩ (labelled_psi ⟨0, first, rfl⟩ labelled_zero)

/-! ## §3 Elements -/

/-- The predecessor of a subscript is a smaller numeral. -/
theorem exists_numeral_dropLast {c : Term} (closed : ∀ m n, m ≤ n → P n → P m)
    (h : ∃ n, P n ∧ c = numeral n) : ∃ n, P n ∧ c.dropLast = numeral n := by
  obtain ⟨n, hn, rfl⟩ := h
  refine ⟨n - 1, closed (n - 1) n (Nat.sub_le n 1) hn, ?_⟩
  cases n with
  | zero => rfl
  | succ n => rw [numeral_succ_eq_plus_one, dropLast_plus_psi, Nat.add_sub_cancel]

/-- The storeys of a tower are labelled one after the other. -/
theorem labelled_tower {arg c : Term} (closed : ∀ m n, m ≤ n → P n → P m)
    (h : arg.degree = psi c zero) (hc : c.degree = one) (h_arg : Labelled P arg)
    (elements : ∀ y, Labelled P y → Labelled P (arg.expand y)) (n : Nat) :
    Labelled P ((storey arg c)^[n] zero) := by
  have degree : Labelled P (psi c zero) := h ▸ h_arg.degree closed
  induction n with
  | zero => exact labelled_zero
  | succ n ih =>
    rw [Function.iterate_succ_apply', storey, expand_of_successor hc]
    apply elements
    exact labelled_psi (exists_numeral_dropLast closed degree.1) ih

/-- **Elements are labelled** if the term and its index are. -/
theorem Labelled.expand {x y : Term} (closed : ∀ m n, m ≤ n → P n → P m) (hx : Labelled P x)
    (hy : Labelled P y) : Labelled P (x.expand y) := by
  induction x generalizing y with
  | zero =>
    rw [expand_zero]
    exact labelled_zero
  | cons sub arg rest _ ih_arg ih_rest =>
    have ⟨h_sub, h_arg, h_rest⟩ := hx
    cases rest with
    | cons sub' arg' rest' =>
      rw [expand_cons_cons]
      exact ⟨h_sub, h_arg, ih_rest h_rest hy⟩
    | zero =>
      cases shape sub arg with
      | unit =>
        rw [expand_psi_zero degree_zero]
        exact labelled_zero
      | regular h =>
        rw [expand_psi_zero_of_successor h]
        exact hy
      | limitSub h₀ h₁ => exact absurd hx.sub_degree (not_or_intro h₀ h₁)
      | successorArg h =>
        rw [expand_eq_copies h]
        exact labelled_copies (labelled_psi h_sub h_arg.dropLast) _
      | omegaArg h =>
        rw [expand_psi_of_arg_omega h]
        exact labelled_psi h_sub (ih_arg h_arg hy)
      | higherArg h hc =>
        rw [expand_eq_tower h hc]
        exact labelled_psi h_sub
          (labelled_tower closed h hc h_arg (fun _ => ih_arg h_arg) _)

end Labelled

/-! ## §4 Rows -/

/-- Some label among the rows is not less than `n`. -/
def Covers (rows : List Row) (n : Nat) : Prop := ∃ bound ∈ rows, (n : Int) ≤ bound.label

theorem Covers.of_le {rows : List Row} {m n : Nat} (le : m ≤ n) (h : Covers rows n) :
    Covers rows m := by
  obtain ⟨bound, mem, h⟩ := h
  exact ⟨bound, mem, by omega⟩

/-- Rows cover their own labels. -/
theorem labelled_covers {t : Term} {rows others : List Row} (h : t.rows? = some rows)
    (sub : rows ⊆ others) : Labelled (Covers others) t := by
  refine labelled_iff_rows?.2 ⟨rows, h, ?_⟩
  intro row mem
  have nonneg : 0 ≤ row.label := ((admissible_of_rows? h).nonneg row mem).2
  exact ⟨row, sub mem, by omega⟩

/-- **Drawable terms are closed under the calculations**: if `x` and `y` can be drawn, then so can
`x[y]`, the degree of `x` and `x + y`; the rows of the sum are those of `x` and then those of `y`; and
no label of `x[y]` exceeds all the labels of `x` and `y`. -/
theorem drawable_closed {x y : Term} {xs ys : List Row} (hx : x.rows? = some xs)
    (hy : y.rows? = some ys) :
    (∃ rows, (x.expand y).rows? = some rows ∧
      ∀ row ∈ rows, ∃ bound ∈ xs ++ ys, row.label ≤ bound.label) ∧
    (∃ rows, x.degree.rows? = some rows) ∧
    (x + y).rows? = some (xs ++ ys) := by
  have labelled_x : Labelled (Covers (xs ++ ys)) x := labelled_covers hx (by simp)
  have labelled_y : Labelled (Covers (xs ++ ys)) y := labelled_covers hy (by simp)
  have closed : ∀ m n, m ≤ n → Covers (xs ++ ys) n → Covers (xs ++ ys) m :=
    fun _ _ => Covers.of_le
  refine ⟨?_, ?_, ?_⟩
  · obtain ⟨rows, h, labels⟩ := labelled_iff_rows?.1 (labelled_x.expand closed labelled_y)
    refine ⟨rows, h, ?_⟩
    intro row mem
    obtain ⟨bound, mem_bound, le⟩ := labels row mem
    exact ⟨bound, mem_bound, by omega⟩
  · obtain ⟨rows, h, _⟩ := labelled_iff_rows?.1 (labelled_x.degree closed)
    exact ⟨rows, h⟩
  · rw [rows?_plus, hx, hy]
    rfl

/-- A tower of three storeys, with labels from `0` to `2`. -/
theorem drawable_closed_tower :
    (∃ rows, ((psi one (psi (numeral 2) zero)).expand (numeral 2)).rows? = some rows ∧
      ∀ row ∈ rows, ∃ bound ∈ ([⟨0, 1⟩, ⟨1, 2⟩] ++ [⟨0, 0⟩, ⟨0, 0⟩] : List Row),
        row.label ≤ bound.label) ∧
    (∃ rows, (psi one (psi (numeral 2) zero)).degree.rows? = some rows) ∧
    (psi one (psi (numeral 2) zero) + numeral 2).rows? =
      some ([⟨0, 1⟩, ⟨1, 2⟩] ++ [⟨0, 0⟩, ⟨0, 0⟩]) :=
  drawable_closed (by decide) (by decide)

end Collapsing.Term
