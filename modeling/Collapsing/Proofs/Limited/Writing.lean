import Collapsing.Limited.Output
import Collapsing.Proofs.Limited.Settling

/-!
# Limited writing and drawing settle

Limited writing goes through the addends of a sum in one step and spends a level on each of them.  So
a term is written if each of its addends is, and an addend is written if its two parts are.  A
subscript that is not shown need not be written.

Shortening a text spends nothing.  So a term is printed as soon as the budget is enough for its full
text.

The rows of a hydra are collected addend by addend, and each further addend spends a level.  A part
that cannot be drawn ends the search, so the budget need not be enough for what comes after it.

## Main statements

- `settles_write`: the full text of a term;
- `settles_formatOutput`: a term as it is printed;
- `settles_rows?`: the rows of the hydra of a term.
-/

namespace Collapsing.Limited

open Term (zero cons psi)

/-! ## §1 Writing -/

section Writing

variable {options : Options}

/-- A principal term is written if its parts are. -/
theorem settles_write_psi {sub arg : Term}
    (h_sub : Settles (fun budget => write options budget sub) (Display.write options sub))
    (h_arg : Settles (fun budget => write options budget arg) (Display.write options arg)) :
    Settles (fun budget => write options budget (psi sub arg))
      (Display.write options (psi sub arg)) := by
  refine .spend rfl ?_
  refine h_arg.bind ?_
  rw [Display.write_psi]
  by_cases dropped : (options.dropZero && sub = zero) = true
  · -- The text of the subscript does not matter.
    have same (subText argText : Text) : Display.principal options sub subText argText =
        Display.principal options sub [] argText := by
      rw [Display.principal, Display.principal, if_pos dropped, if_pos dropped]
    simp only [dropped, if_true]
    rw [same]
    exact (HasThreshold.pure []).bind (.pure _)
  · simp only [dropped]
    exact h_sub.bind (.pure _)

theorem settles_write_addendwise {sub arg rest : Term}
    (h : ∀ s ∈ (cons sub arg rest).addends,
      Settles (fun budget => write options budget s) (Display.write options s)) :
    Settles (fun budget => write.addendwise (write options budget) sub arg rest)
      (Display.write options (cons sub arg rest)) := by
  induction rest generalizing sub arg with
  | zero => exact h (psi sub arg) (.head _)
  | cons sub' arg' rest _ _ ih =>
    have first := h (psi sub arg) (.head _)
    have others := ih fun s mem => h s (.tail _ mem)
    rw [Display.write_cons_cons]
    exact first.bind (others.bind (.pure _))

/-- A term is written if each of its addends is. -/
theorem settles_write_of_addends {t : Term}
    (h : ∀ s ∈ t.addends,
      Settles (fun budget => write options budget s) (Display.write options s)) :
    Settles (fun budget => write options budget t) (Display.write options t) := by
  match t with
  | .zero => exact .spend rfl (.pure ['0'])
  | .psi sub arg => exact h (psi sub arg) (.head _)
  | .cons sub arg (.cons sub' arg' rest) => exact .spend rfl (settles_write_addendwise h)

theorem settles_write_addends (t : Term) :
    ∀ s ∈ t.addends, Settles (fun budget => write options budget s) (Display.write options s) := by
  induction t with
  | zero => exact fun s mem => absurd mem List.not_mem_nil
  | cons sub arg rest ih_sub ih_arg ih_rest =>
    intro s mem
    rcases List.mem_cons.1 mem with rfl | mem
    · exact settles_write_psi (settles_write_of_addends ih_sub) (settles_write_of_addends ih_arg)
    · exact ih_rest s mem

/-- **Limited writing settles** on the full text of the term. -/
theorem settles_write (t : Term) :
    Settles (fun budget => write options budget t) (Display.write options t) :=
  settles_write_of_addends (settles_write_addends t)

theorem settles_formatOutput (t : Term) :
    Settles (fun budget => formatOutput options budget t) (Display.formatOutput options t) :=
  (settles_write t).bind (.pure _)

end Writing

/-! ## §2 Drawing -/

/-- A principal term is drawn if its argument is. -/
theorem settles_rows?_psi {arg : Term} (sub : Term)
    (h_arg : Settles (fun budget => rows? budget arg) arg.rows?) :
    Settles (fun budget => rows? budget (psi sub arg)) (psi sub arg).rows? := by
  refine .spend rfl ?_
  simp only [rows?, Term.rows?]
  cases sub.numeralValue? with
  | none => exact .pure none
  | some label =>
    refine h_arg.bind ?_
    cases arg.rows? with
    | none => exact .pure none
    | some below =>
      -- No addend comes after this one, so no rows do.
      show Settles _ (some (⟨0, label⟩ :: (below.map Row.deeper ++ [])))
      rw [List.append_nil]
      exact .pure _

/-- **Limited drawing settles** on the rows of the hydra. -/
theorem settles_rows? (t : Term) : Settles (fun budget => rows? budget t) t.rows? := by
  induction t with
  | zero => exact .spend rfl (.pure (some []))
  | cons sub arg rest _ ih_arg ih_rest =>
    have first := settles_rows?_psi sub ih_arg
    cases rest with
    | zero => exact first
    | cons sub' arg' rest =>
      have sum : (cons sub arg (cons sub' arg' rest)).rows? = (do
          let left ← (psi sub arg).rows?
          let right ← (cons sub' arg' rest).rows?
          return left ++ right) := Term.rows?_plus (psi sub arg) (cons sub' arg' rest)
      refine .spend rfl ?_
      rw [sum]
      refine first.bind ?_
      cases (psi sub arg).rows? with
      | none => exact .pure none
      | some left =>
        refine ih_rest.bind ?_
        cases (cons sub' arg' rest).rows? with
        | none => exact .pure none
        | some right => exact .pure _

end Collapsing.Limited
