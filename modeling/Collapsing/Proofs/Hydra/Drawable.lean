import Collapsing.Hydra.Row
import Collapsing.Proofs.Term.DegreeRange

/-!
# Terms that can be drawn

The hydra of a term shows the principal terms that are met on the way through addends and arguments,
each as a node, and the node shows the subscript as a number.  So a term can be drawn exactly if the
subscripts that are met are numerals.  What stands inside a subscript is never looked at.

`Labelled P` says that the subscripts met are numerals whose numbers have the property `P`.  It is
defined along the term, so whatever builds terms from terms can be followed through it.

## Main statements

- `reached_cons_iff`: what is met in a sum;
- `labelled_iff_reached`, `labelled_iff_rows?`: labelled terms, by their parts and by their rows.
-/

namespace Collapsing.Term

/-! ## §1 The principal terms that are met -/

/-- The principal terms that are met in `t` on the way through addends and arguments. -/
inductive Reached (t : Term) : Term → Prop where
  /-- An addend of the term. -/
  | addend {p : Term} (h : p ∈ t.addends) : Reached t p
  /-- An addend of the argument of a principal term that is met. -/
  | argument {sub arg p : Term} (h : Reached t (psi sub arg)) (hp : p ∈ arg.addends) : Reached t p

theorem not_reached_zero (p : Term) : ¬ Reached zero p := by
  intro h
  induction h with
  | addend h => simp at h
  | argument _ _ ih => exact ih

/-- What is met in an argument is met in the term. -/
theorem Reached.of_arg {sub arg rest p : Term} (h : Reached arg p) :
    Reached (cons sub arg rest) p := by
  induction h with
  | addend h =>
    have first : Reached (cons sub arg rest) (psi sub arg) := .addend (by simp)
    exact first.argument h
  | argument _ hp ih => exact ih.argument hp

/-- What is met in the other addends is met in the term. -/
theorem Reached.of_rest {sub arg rest p : Term} (h : Reached rest p) :
    Reached (cons sub arg rest) p := by
  induction h with
  | addend h => exact .addend (by simp [h])
  | argument _ hp ih => exact ih.argument hp

/-- In a sum the first addend is met, and what is met in its argument and in the other addends. -/
theorem reached_cons_iff {sub arg rest p : Term} :
    Reached (cons sub arg rest) p ↔ p = psi sub arg ∨ Reached arg p ∨ Reached rest p := by
  constructor
  · intro h
    induction h with
    | addend h =>
      rw [addends_cons, List.mem_cons] at h
      exact h.imp_right fun h => .inr (.addend h)
    | argument _ hp ih =>
      rcases ih with eq | h | h
      · cases eq
        exact .inr (.inl (.addend hp))
      · exact .inr (.inl (h.argument hp))
      · exact .inr (.inr (h.argument hp))
  · intro h
    rcases h with rfl | h | h
    · exact .addend (by simp)
    · exact h.of_arg
    · exact h.of_rest

/-! ## §2 Labelled terms -/

/-- The subscripts that are met are numerals, and their numbers have the property `P`. -/
def Labelled (P : Nat → Prop) : Term → Prop
  | zero => True
  | cons sub arg rest => (∃ n, P n ∧ sub = numeral n) ∧ Labelled P arg ∧ Labelled P rest

section Labelled

variable {P : Nat → Prop}

theorem labelled_zero : Labelled P zero := trivial

theorem labelled_psi {sub arg : Term} (h_sub : ∃ n, P n ∧ sub = numeral n)
    (h_arg : Labelled P arg) : Labelled P (psi sub arg) :=
  ⟨h_sub, h_arg, labelled_zero⟩

theorem labelled_iff_reached {t : Term} :
    Labelled P t ↔ ∀ sub arg, Reached t (psi sub arg) → ∃ n, P n ∧ sub = numeral n := by
  induction t with
  | zero => simp [Labelled, not_reached_zero]
  | cons sub arg rest _ ih_arg ih_rest =>
    unfold Labelled
    rw [ih_arg, ih_rest]
    constructor
    · intro ⟨first, inside, others⟩ s a h
      rcases reached_cons_iff.1 h with eq | h | h
      · cases eq
        exact first
      · exact inside s a h
      · exact others s a h
    · intro all
      refine ⟨all sub arg ?_, fun s a h => all s a h.of_arg, fun s a h => all s a h.of_rest⟩
      exact reached_cons_iff.2 (.inl rfl)

/-! ## §3 Rows -/

/-- The rows of a sum: the node of its first addend, the rows of the argument one level deeper, and
the rows of the other addends. -/
theorem rows?_cons_eq_some_iff {sub arg rest : Term} {rows : List Row} :
    rows? (cons sub arg rest) = some rows ↔
      ∃ n below others, sub = numeral n ∧ rows? arg = some below ∧ rows? rest = some others ∧
        rows = ⟨0, n⟩ :: (below.map Row.deeper ++ others) := by
  simp only [rows?, Option.bind_eq_bind, Option.bind_eq_some_iff, Option.pure_def,
    Option.some.injEq]
  constructor
  · intro h
    obtain ⟨n, value, below, h_arg, others, h_rest, eq⟩ := h
    exact ⟨n, below, others, eq_numeral_of_numeralValue? value, h_arg, h_rest, eq.symm⟩
  · intro h
    obtain ⟨n, below, others, rfl, h_arg, h_rest, eq⟩ := h
    exact ⟨n, numeralValue?_numeral n, below, h_arg, others, h_rest, eq.symm⟩

/-- A labelled term is one that can be drawn, and the labels of its rows have the property. -/
theorem labelled_iff_rows? {t : Term} :
    Labelled P t ↔ ∃ rows, rows? t = some rows ∧ ∀ row ∈ rows, P row.label.toNat := by
  induction t with
  | zero => simp [Labelled]
  | cons sub arg rest _ ih_arg ih_rest =>
    unfold Labelled
    rw [ih_arg, ih_rest]
    constructor
    · intro ⟨⟨n, hn, eq_sub⟩, ⟨below, h_arg, inside⟩, ⟨others, h_rest, beside⟩⟩
      refine ⟨_, rows?_cons_eq_some_iff.2 ⟨n, below, others, eq_sub, h_arg, h_rest, rfl⟩, ?_⟩
      intro row h
      simp only [List.mem_cons, List.mem_append, List.mem_map] at h
      rcases h with rfl | ⟨row, h, rfl⟩ | h
      · exact hn
      · exact inside row h
      · exact beside row h
    · intro ⟨rows, h, labels⟩
      obtain ⟨n, below, others, eq_sub, h_arg, h_rest, rfl⟩ := rows?_cons_eq_some_iff.1 h
      simp only [List.mem_cons, List.mem_append, List.mem_map] at labels
      refine ⟨⟨n, labels ⟨0, n⟩ (.inl rfl), eq_sub⟩, ⟨below, h_arg, ?_⟩, ⟨others, h_rest, ?_⟩⟩
      · intro row h
        exact labels row.deeper (.inr (.inl ⟨row, h, rfl⟩))
      · intro row h
        exact labels row (.inr (.inr h))

end Labelled

/-- A term can be drawn exactly if all subscripts that are met are numerals. -/
theorem rows?_isSome_iff {t : Term} :
    t.rows?.isSome = true ↔ ∀ sub arg, Reached t (psi sub arg) → ∃ n, sub = numeral n := by
  have reached := labelled_iff_reached (P := fun _ => True) (t := t)
  have rows := labelled_iff_rows? (P := fun _ => True) (t := t)
  simp only [true_and] at reached
  rw [← reached, rows, Option.isSome_iff_exists]
  simp

end Collapsing.Term
