import Collapsing.Proofs.Display.Constants
import Collapsing.Proofs.Display.Tex

/-!
# A printer that follows the term

`printed` writes the shortened text of a term without any replacement: it follows the addends of a
sum, writes a number for each maximal block of ones and a letter for a constant that the flags show.
The text is the one that the replacements arrive at.

## Background

A one that is no addend of a sum has no `+` beside it, so a run of ones in a text is a block of
addends.  The pass over the text therefore takes the operands of an addend one after the other, and
the character behind an operand is never `+` (`countRuns_spell`).

## Main statements

- `numeral_leadingOnes_plus_afterOnes`: a sum is a block of ones and what comes after it;
- `countRuns_spell`: the pass over runs of ones turns the one text into the other;
- `render_eq_markup`, `render_eq_printed`: a term is shown as it is printed.
-/

namespace Collapsing

/-! ## §1 Blocks of ones -/

namespace Term

/-- How many ones stand at the front of a sum. -/
def leadingOnes : Term → Nat
  | cons zero zero rest => leadingOnes rest + 1
  | _ => 0

/-- The sum without the ones at its front. -/
def afterOnes : Term → Term
  | cons zero zero rest => afterOnes rest
  | t => t

theorem numeral_leadingOnes_plus_afterOnes (t : Term) :
    numeral t.leadingOnes + t.afterOnes = t := by
  fun_induction leadingOnes t with
  | case1 rest ih => rw [numeral_succ, cons_plus, afterOnes, ih]
  | case2 t other => rw [numeral_zero, zero_plus, afterOnes.eq_2 t other]

theorem sizeOf_afterOnes_le (t : Term) : sizeOf t.afterOnes ≤ sizeOf t := by
  fun_induction afterOnes t with
  | case1 rest ih => exact Nat.le_trans ih (Nat.le_of_lt (sizeOf_rest_lt zero zero rest))
  | case2 => exact Nat.le_refl _

end Term

namespace Display

/-! ## §2 The printer -/

/-- What stands behind an addend: nothing, or `+` and the text of the rest of the sum. -/
def followed (rest : Term) (text : Text) : Text := if rest = .zero then [] else '+' :: text

@[simp] theorem followed_zero (text : Text) : followed .zero text = [] := rfl

@[simp] theorem followed_cons (sub arg rest : Term) (text : Text) :
    followed (.cons sub arg rest) text = '+' :: text := rfl

/-- The shortened text of a term. -/
def printed (options : Options) : Term → Text
  | .zero => ['0']
  | .cons sub arg rest =>
    if sub = .zero ∧ arg = .zero then
      Text.decimal (rest.leadingOnes + 1) ++
        followed rest.afterOnes (printed options rest.afterOnes)
    else
      spellAddend options (shownBy options) sub arg (printed options sub) (printed options arg) ++
        followed rest (printed options rest)
termination_by t => sizeOf t
decreasing_by
  · have smaller := Term.sizeOf_afterOnes_le rest
    have rest_lt := Term.sizeOf_rest_lt sub arg rest
    omega
  · exact Term.sizeOf_sub_lt sub arg rest
  · exact Term.sizeOf_arg_lt sub arg rest
  · exact Term.sizeOf_rest_lt sub arg rest

theorem spell_cons (options : Options) (shown : Shown) (sub arg rest : Term) :
    spell options shown (.cons sub arg rest) =
      spellAddend options shown sub arg (spell options shown sub) (spell options shown arg) ++
        followed rest (spell options shown rest) := by
  cases rest with
  | zero => rw [followed_zero, List.append_nil, spell]
  | cons sub' arg' rest => rw [spell, followed_cons]

/-! ## §3 Runs of ones are blocks of ones -/

/-- The pass turns one text into the other, if no `+` follows. -/
def Counts (text text' : Text) : Prop :=
  ∀ rest : Text, rest.head? ≠ some '+' → countRuns (text ++ rest) = text' ++ countRuns rest

theorem Counts.before {text text' : Text} (h : Counts text text') {c : Char} (ne : c ≠ '+')
    (rest : Text) : countRuns (text ++ c :: rest) = text' ++ countRuns (c :: rest) := by
  apply h
  rintro ⟨⟩
  exact ne rfl

theorem counts_followed {t : Term} {text text' : Text} (h : Counts text text') :
    Counts (followed t text) (followed t text') := by
  intro rest no_plus
  cases t with
  | zero => rfl
  | cons sub arg rest' =>
    rw [followed_cons, followed_cons, List.cons_append, countRuns_cons_of_ne (by decide),
      h rest no_plus, List.cons_append]

/-- In a principal term, what stands behind an operand is no `+`. -/
theorem counts_form {subText subText' argText argText' : Text} (form : Form)
    (h_sub : Counts subText subText') (h_arg : Counts argText argText') (rest : Text) :
    countRuns (form.spell subText argText ++ rest) =
      form.spell subText' argText' ++ countRuns rest := by
  cases form <;>
    simp [Form.spell, oneOperand, twoOperands, withSubscript, braced, countRuns_cons_of_ne,
      h_sub.before, h_arg.before]

/-- An addend other than one neither is nor begins with a digit. -/
theorem counts_spellAddend {options : Options} {sub arg : Term}
    {subText subText' argText argText' : Text} (h_sub : Counts subText subText')
    (h_arg : Counts argText argText') (other : ¬ (sub = .zero ∧ arg = .zero)) (rest : Text) :
    countRuns (spellAddend options (shownBy options) sub arg subText argText ++ rest) =
      spellAddend options (shownBy options) sub arg subText' argText' ++ countRuns rest := by
  rcases shown_or_hidden (shownBy options) sub arg with ⟨constant, rfl, rfl, shows⟩ | hidden
  · have letter_ne : constant.letter ≠ '1' := by
      cases constant with
      | one => exact absurd ⟨rfl, rfl⟩ other
      | omega => decide
      | bigOmega => decide
    rw [spellAddend_of_shown shows, spellAddend_of_shown shows]
    exact countRuns_cons_of_ne letter_ne rest
  · rw [spellAddend_of_hidden hidden, spellAddend_of_hidden hidden]
    exact counts_form _ h_sub h_arg rest

theorem spellAddend_one (options : Options) (subText argText : Text) :
    spellAddend options (shownBy options) .zero .zero subText argText = ['1'] := by
  have shows : shownBy options .one = true := rfl
  exact spellAddend_of_shown shows options subText argText

/-- Behind a one, the run goes on as far as the block of ones does. -/
theorem plusOnes_followed (options : Options) (t : Term) {rest : Text}
    (no_plus : rest.head? ≠ some '+') :
    plusOnes (followed t (spell options (shownBy options) t) ++ rest) =
      (t.leadingOnes,
        followed t.afterOnes (spell options (shownBy options) t.afterOnes) ++ rest) := by
  fun_induction Term.leadingOnes t with
  | case1 t ih =>
    rw [followed_cons, spell_cons, spellAddend_one, Term.afterOnes]
    simp only [List.cons_append, List.nil_append, plusOnes, ih]
  | case2 t other =>
    -- No `+1` stands here: another addend begins with a letter, and `rest` with no `+`.
    rw [Term.afterOnes.eq_2 t other]
    apply plusOnes.eq_2
    intro after eq
    cases t with
    | zero =>
      rw [followed_zero, List.nil_append] at eq
      exact no_plus (by rw [eq]; rfl)
    | cons sub arg rest' =>
      obtain ⟨c, text, head, shape⟩ := spellAddend_exists_head options (shownBy options) sub arg
        (spell options (shownBy options) sub) (spell options (shownBy options) arg)
      rw [followed_cons, spell_cons, head] at eq
      cases eq
      rcases shape with eq | ⟨constant, rfl, rfl, eq⟩
      · cases eq
      · cases constant with
        | one => exact other rest' rfl
        | omega => cases eq
        | bigOmega => cases eq

theorem countRuns_spell (options : Options) (t : Term) :
    Counts (spell options (shownBy options) t) (printed options t) := by
  fun_induction printed options t with
  | case1 =>
    intro rest no_plus
    exact countRuns_cons_of_ne (by decide) rest
  | case2 sub arg rest one ih =>
    -- The pass counts the whole block and goes on behind it.
    obtain ⟨rfl, rfl⟩ := one
    intro follow no_plus
    rw [spell_cons, spellAddend_one, List.append_assoc, List.append_assoc, List.cons_append,
      List.nil_append, countRuns_one, plusOnes_followed options rest no_plus,
      counts_followed ih follow no_plus]
  | case3 sub arg rest other ih_sub ih_arg ih_rest =>
    intro follow no_plus
    rw [spell_cons, List.append_assoc, counts_spellAddend ih_sub ih_arg other,
      counts_followed ih_rest follow no_plus, List.append_assoc]

/-- **Rendering is printing**: what the replacements make of the full text of a term is the text
that the printer writes, with commands for the letters of the notation if TeX is asked for. -/
theorem render_eq_markup (options : Options) (t : Term) :
    render options t = markup options (printed options t) := by
  have counted := countRuns_spell options t [] (by simp)
  rw [List.append_nil, countRuns, List.append_nil] at counted
  rw [render, abbreviate_eq_markup, abbreviateConstants_write, collapseRuns_eq_countRuns, counted]

theorem render_eq_printed {options : Options} (h : options.tex = false) (t : Term) :
    render options t = printed options t := by
  rw [render_eq_markup, markup, if_neg (ne_true_of_eq_false h)]

end Display

end Collapsing
