import Collapsing.Proofs.Display.Printed

/-!
# Typesetting a term

`typeset` writes the text that is shown for a term by following the term alone: a number for each
maximal block of ones, a letter for a constant that the flags show, and one of three forms for any
other principal term, with TeX commands where TeX source is asked for.  It decides about every
addend where it stands and never looks at a text again.

The text that is shown comes about quite differently, by one replacement after another on the full
text.  The two are the same for every term and all flags: the replacements come to the printer of
`Printed`, and the TeX commands may be put in afterwards.

## Main statements

- `markup_form`: the commands in a principal term;
- `markup_spellAddend`: an addend is typeset as it is printed, with commands for letters if it is TeX;
- `render_eq_typeset`: a term is shown as it is typeset.
-/

namespace Collapsing.Display

/-! ## §1 The printer -/

/-- The head `亞` of a principal term. -/
def headGlyph (options : Options) : Text :=
  if options.tex then ['\\', 't', 'e', 'x', 't', 'r', 'm', '\x7b', '亞', '\x7d'] else ['亞']

/-- The letter `ω`. -/
def omegaGlyph (options : Options) : Text :=
  if options.tex then ['\\', 'o', 'm', 'e', 'g', 'a'] else ['ω']

/-- The letter `Ω`. -/
def bigOmegaGlyph (options : Options) : Text :=
  if options.tex then ['\\', 'O', 'm', 'e', 'g', 'a'] else ['Ω']

/-- The subscript `sub`, whose text is given.  Numerals and letters do without braces, unless the
flags ask for braces throughout. -/
def typesetSubscript (options : Options) (sub : Term) (text : Text) : Text :=
  if options.braces || options.tex then braced text
  else if sub.isNumeral || (options.omega && sub = .omega) || (options.bigOmega && sub = .bigOmega)
  then text
  else braced text

/-- The principal term `亞(sub, arg)` other than `1`, given the texts of its parts. -/
def typesetPrincipal (options : Options) (sub arg : Term) (subText argText : Text) : Text :=
  if options.omega && sub = .zero && arg = .one then omegaGlyph options
  else if options.bigOmega && sub = .one && arg = .zero then bigOmegaGlyph options
  else if options.dropZero && sub = .zero then headGlyph options ++ '(' :: (argText ++ [')'])
  else if options.subscripts then
    headGlyph options ++ '_' :: (typesetSubscript options sub subText ++ '(' :: (argText ++ [')']))
  else headGlyph options ++ '(' :: (subText ++ ',' :: (argText ++ [')']))

/-- The text of a term.  A block of ones is written as one number. -/
def typeset (options : Options) : Term → Text
  | .zero => ['0']
  | .cons sub arg rest =>
    if sub = .zero ∧ arg = .zero then
      Text.decimal (rest.leadingOnes + 1) ++
        followed rest.afterOnes (typeset options rest.afterOnes)
    else
      typesetPrincipal options sub arg (typeset options sub) (typeset options arg) ++
        followed rest (typeset options rest)
termination_by t => sizeOf t
decreasing_by
  · have smaller := Term.sizeOf_afterOnes_le rest
    have rest_lt := Term.sizeOf_rest_lt sub arg rest
    omega
  · exact Term.sizeOf_sub_lt sub arg rest
  · exact Term.sizeOf_arg_lt sub arg rest
  · exact Term.sizeOf_rest_lt sub arg rest

/-! ## §2 Addends -/

theorem markup_followed (options : Options) (rest : Term) (text : Text) :
    markup options (followed rest text) = followed rest (markup options text) := by
  cases rest with
  | zero => exact markup_nil options
  | cons sub arg rest => exact markup_cons_of_plain options rfl text

section Addends

variable (options : Options) (subText argText : Text)

theorem markup_head (text : Text) :
    markup options ('亞' :: text) = headGlyph options ++ markup options text := by
  unfold markup headGlyph
  split <;> rfl

/-- In a principal term the head becomes a command, and so may its operands; the rest is
punctuation. -/
theorem markup_form (form : Form) :
    markup options (form.spell subText argText) =
      headGlyph options ++ (form.spell (markup options subText) (markup options argText)).tail := by
  cases form <;>
    simp (disch := decide) only [Form.spell, oneOperand, twoOperands, withSubscript, braced,
      markup_head, markup_append, markup_cons_of_plain, markup_nil, List.tail_cons]

theorem subscript_eq_typesetSubscript (sub : Term) :
    subscript options sub subText = typesetSubscript options sub subText := by
  unfold subscript typesetSubscript isShort
  cases options.braces <;> cases options.tex <;> simp

/-- A principal term that is not abbreviated. -/
theorem typesetPrincipal_of_hidden {sub arg : Term} (hidden : Hidden (shownBy options) sub arg) :
    typesetPrincipal options sub arg subText argText =
      headGlyph options ++ ((form options sub).spell subText argText).tail := by
  have no_omega : ¬ (options.omega && sub = .zero && arg = .one) = true := by
    simp only [Bool.and_eq_true, decide_eq_true_eq]
    rintro ⟨⟨flag, eq_sub⟩, eq_arg⟩
    exact ne_true_of_eq_false (hidden .omega eq_sub eq_arg) flag
  have no_bigOmega : ¬ (options.bigOmega && sub = .one && arg = .zero) = true := by
    simp only [Bool.and_eq_true, decide_eq_true_eq]
    rintro ⟨⟨flag, eq_sub⟩, eq_arg⟩
    exact ne_true_of_eq_false (hidden .bigOmega eq_sub eq_arg) flag
  rw [typesetPrincipal, if_neg no_omega, if_neg no_bigOmega, ← principal_eq_spell, principal,
    subscript_eq_typesetSubscript]
  split_ifs <;> rfl

/-- What TeX makes of an addend other than `1`. -/
theorem markup_spellAddend {sub arg : Term} (other : ¬ (sub = .zero ∧ arg = .zero)) :
    markup options (spellAddend options (shownBy options) sub arg subText argText) =
      typesetPrincipal options sub arg (markup options subText) (markup options argText) := by
  rcases shown_or_hidden (shownBy options) sub arg with ⟨constant, rfl, rfl, shows⟩ | hidden
  · rw [spellAddend_of_shown shows]
    cases constant with
    | one => exact absurd ⟨rfl, rfl⟩ other
    | omega =>
      have flag : options.omega = true := shows
      rw [typesetPrincipal, if_pos (by simp [flag, Constant.sub, Constant.arg])]
      rfl
    | bigOmega =>
      have flag : options.bigOmega = true := shows
      rw [typesetPrincipal, if_neg (by simp [Constant.sub]),
        if_pos (by simp [flag, Constant.sub, Constant.arg])]
      rfl
  · rw [spellAddend_of_hidden hidden, typesetPrincipal_of_hidden _ _ _ hidden, markup_form]

end Addends

/-! ## §3 Terms -/

theorem typeset_eq_markup (options : Options) (t : Term) :
    typeset options t = markup options (printed options t) := by
  fun_induction printed options t with
  | case1 => rw [typeset, markup_cons_of_plain options rfl, markup_nil]
  | case2 sub arg rest one ih =>
    have digits : ∀ c ∈ Text.decimal (rest.leadingOnes + 1), c.isDigit = true :=
      fun _ mem => isDigit_of_mem_decimal mem
    rw [typeset, if_pos one, ih, markup_append, markup_digits options digits, markup_followed]
  | case3 sub arg rest other ih_sub ih_arg ih_rest =>
    rw [typeset, if_neg other, ih_sub, ih_arg, ih_rest, markup_append, markup_followed,
      markup_spellAddend options _ _ other]

/-- **Rendering is typesetting**: for every term and all flags, the text that the replacements
arrive at is the text that follows the term. -/
theorem render_eq_typeset (options : Options) (t : Term) :
    render options t = typeset options t := by
  rw [render_eq_markup, typeset_eq_markup]

/-- TeX source with a constant in braces, a numeral as an argument and one inside a sum. -/
example : typeset { Options.abbreviated with tex := true }
    (.psi .bigOmega (.numeral 2) + (.numeral 3 + .omega)) =
      "\\textrm\x7b亞\x7d_\x7b\\Omega\x7d(2)+3+\\omega".toList := by
  cbv

end Collapsing.Display
