import Collapsing.Proofs.Display.Readable

/-!
# Full texts are read back

Before anything is abbreviated, the text of a term is faithful under every choice of the flags.
Here TeX is no exception: it only puts braces around all subscripts, and the letters of the notation
become TeX commands later, when the text is shortened.

A subscript without braces may be a whole sum: a numeral is written out as `亞_0(0)+…+亞_0(0)`, and
its ones have subscripts of their own.  The reader ends such a sum at the parenthesis of the
argument, at any depth of nesting, so nothing has to be known about the place where a subscript
stands.  The argument is the same for a text in which some constants are letters already.

## Main statements

- `reads_spell`: the text of a term is read, whichever constants are letters in it;
- `read_write`: the full text of a term is read back.
-/

namespace Collapsing.Display

open Reader

theorem reads_spell (options : Options) (shown : Shown) (t : Term) :
    Reads (spell options shown t) t := by
  induction t with
  | zero => exact reads_zero
  | cons sub arg rest ih_sub ih_arg ih_rest =>
    have first : ReadsAddend
        (spellAddend options shown sub arg (spell options shown sub) (spell options shown arg))
        (.psi sub arg) := reads_spellAddend options shown ih_sub ih_arg
    rw [spell_cons]
    exact first.followed ih_rest

/-- The full text of a term denotes this term, whatever the flags are. -/
theorem read_write (options : Options) (t : Term) : read (write options t) = .ok t := by
  rw [write_eq_spell]
  exact (reads_spell options _ t).read

/-- Different terms have different full texts. -/
theorem write_injective (options : Options) : Function.Injective (write options) := by
  intro s t eq
  have read_s := read_write options s
  rw [eq, read_write options t] at read_s
  exact (Except.ok.inj read_s).symm

/-- **Full texts are faithful**: with each of the flags on or off, and TeX among them, the full text
of a term is read as this term, and so is its unabbreviated text with two operands throughout. -/
theorem fullText_faithful :
    (∀ (options : Options) (t : Term), read (write options t) = .ok t) ∧
    ∀ t : Term, Term.parse (String.ofList t.text) = .ok t := by
  refine ⟨read_write, ?_⟩
  intro t
  rw [Term.parse, String.toList_ofList]
  exact read_write Options.plain t

end Collapsing.Display
