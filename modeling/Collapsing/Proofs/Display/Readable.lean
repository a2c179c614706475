import Collapsing.Proofs.Display.Printed
import Collapsing.Proofs.Reader.Reading

/-!
# Shown terms are read back

The text of a term is cut into tokens part by part, whatever stands behind it, and the tokens have
a derivation that follows the term.  A number must not run into a digit behind it; in the text of a
term no part is followed by a digit.

## Main statements

- `reads_form`: a principal term in any of its forms is read if its operands are;
- `reads_printed`: the printed text of a term is read as this term;
- `read_render`: so is the text that is shown.
-/

namespace Collapsing.Display

open Reader

/-! ## §1 Cuts -/

/-- The text is cut into these tokens, whatever follows that does not begin with a digit. -/
def CutsInto (text : Text) (tokens : List Token) : Prop :=
  ∀ follow after, (∀ c ∈ follow.head?, c.isDigit = false) → Splits follow after →
    Splits (text ++ follow) (tokens ++ after)

theorem CutsInto.before_letter {text : Text} {tokens : List Token} (h : CutsInto text tokens)
    {c : Char} {token : Token} (letter : c ∈ token.letters) {follow : Text} {after : List Token}
    (split : Splits follow after) : Splits (text ++ c :: follow) (tokens ++ token :: after) := by
  apply h
  · rintro d ⟨⟩
    exact letter_isDigit letter
  · exact .letter letter split

theorem cutsInto_letter {c : Char} {token : Token} (letter : c ∈ token.letters) :
    CutsInto [c] [token] := by
  intro follow after _ split
  exact .letter letter split

theorem cutsInto_decimal (n : Nat) : CutsInto (Text.decimal n) [.number n] := by
  intro follow after no_digit split
  have value : numberOf (Text.decimal n) = n := Nat.ofDigitChars_ten_toDigits
  have nonempty : Text.decimal n ≠ [] := Nat.toDigits_ne_nil
  have cut := Splits.number nonempty (fun _ mem => isDigit_of_mem_decimal mem) no_digit split
  rwa [value] at cut

/-! ## §2 Texts that are read -/

/-- The text is a derivable sum with the value `t`. -/
def Reads (text : Text) (t : Term) : Prop :=
  ∃ sum : SumTree, CutsInto text sum.tokens ∧ sum.value = t

/-- The text is a derivable addend with the value `t`. -/
def ReadsAddend (text : Text) (t : Term) : Prop :=
  ∃ addend : AddendTree, CutsInto text addend.tokens ∧ addend.value = t

theorem Reads.read {text : Text} {t : Term} (h : Reads text t) : read text = .ok t := by
  obtain ⟨sum, cut, value⟩ := h
  have split := cut [] [] (by simp) .nil
  rw [List.append_nil, List.append_nil] at split
  exact (read_eq_ok_iff_derivation text t).2 ⟨sum, split, value⟩

theorem reads_zero : Reads ['0'] .zero :=
  ⟨.last (.number 0), cutsInto_decimal 0, rfl⟩

/-- A sum is read from left to right. -/
theorem ReadsAddend.followed {text text' : Text} {t rest : Term} (h : ReadsAddend text t)
    (h_rest : Reads text' rest) : Reads (text ++ followed rest text') (t + rest) := by
  obtain ⟨addend, cut, rfl⟩ := h
  obtain ⟨sum, cut_rest, rfl⟩ := h_rest
  cases eq : sum.value with
  | zero =>
    -- The rest of the sum is empty and has not been written.
    refine ⟨.last addend, ?_, ?_⟩
    · rw [followed_zero, List.append_nil]
      exact cut
    · rw [SumTree.value, SumTree.valueFrom, Term.zero_plus, Term.plus_zero]
  | cons sub arg rest =>
    refine ⟨.more addend sum, ?_, ?_⟩
    · intro follow after no_digit split
      rw [followed_cons, SumTree.tokens, List.append_assoc, List.append_assoc]
      exact cut.before_letter (by decide) (cut_rest follow after no_digit split)
    · rw [SumTree.value, SumTree.valueFrom, SumTree.valueFrom_eq, Term.zero_plus, eq]

/-! ## §3 Addends -/

section Addends

variable {subText argText : Text} {sub arg : Term}

/-- **A principal term** is read in each of its forms. -/
theorem reads_form (form : Form) (h_zero : form = .oneOperand → sub = .zero)
    (h_sub : Reads subText sub) (h_arg : Reads argText arg) :
    ReadsAddend (form.spell subText argText) (.psi sub arg) := by
  obtain ⟨s, cut_sub, rfl⟩ := h_sub
  obtain ⟨a, cut_arg, rfl⟩ := h_arg
  have h_close {follow : Text} {after : List Token} (split : Splits follow after) :
      Splits (argText ++ ')' :: follow) (a.tokens ++ .closeParen :: after) :=
    cut_arg.before_letter (by decide) split
  cases form with
  | oneOperand =>
    -- The subscript is not written, so it has to be `0`.
    refine ⟨.oneOperand a, ?_, by rw [h_zero rfl]; rfl⟩
    intro follow after _ split
    simp only [Form.spell, oneOperand, AddendTree.tokens, List.cons_append, List.append_assoc,
      List.nil_append]
    exact .letter (by decide) (.letter (by decide) (h_close split))
  | braced =>
    refine ⟨.withSubscript (.braced true s) a, ?_, rfl⟩
    intro follow after _ split
    have cut : Splits (subText ++ '\x7d' :: '(' :: (argText ++ ')' :: follow))
        (s.tokens ++ .closeBrace :: .openParen :: (a.tokens ++ .closeParen :: after)) :=
      cut_sub.before_letter (by decide) (.letter (by decide) (h_close split))
    simp only [Form.spell, withSubscript, braced, AddendTree.tokens, SubscriptTree.tokens,
      optionalUnderscore, if_true, List.cons_append, List.append_assoc, List.nil_append]
    exact .letter (by decide) (.letter (by decide) (.letter (by decide) cut))
  | bare =>
    refine ⟨.withSubscript (.bare true s) a, ?_, rfl⟩
    intro follow after _ split
    have cut : Splits (subText ++ '(' :: (argText ++ ')' :: follow))
        (s.tokens ++ .openParen :: (a.tokens ++ .closeParen :: after)) :=
      cut_sub.before_letter (by decide) (h_close split)
    simp only [Form.spell, withSubscript, AddendTree.tokens, SubscriptTree.tokens,
      optionalUnderscore, if_true, List.cons_append, List.append_assoc, List.nil_append]
    exact .letter (by decide) (.letter (by decide) cut)
  | twoOperands =>
    refine ⟨.twoOperands s a, ?_, rfl⟩
    intro follow after _ split
    have cut : Splits (subText ++ ',' :: (argText ++ ')' :: follow))
        (s.tokens ++ .comma :: (a.tokens ++ .closeParen :: after)) :=
      cut_sub.before_letter (by decide) (h_close split)
    simp only [Form.spell, twoOperands, AddendTree.tokens, List.cons_append, List.append_assoc,
      List.nil_append]
    exact .letter (by decide) (.letter (by decide) cut)

theorem reads_spellAddend (options : Options) (shown : Shown) (h_sub : Reads subText sub)
    (h_arg : Reads argText arg) :
    ReadsAddend (spellAddend options shown sub arg subText argText) (.psi sub arg) := by
  rcases shown_or_hidden shown sub arg with ⟨constant, rfl, rfl, shows⟩ | hidden
  · rw [spellAddend_of_shown shows]
    cases constant with
    | one => exact ⟨.number 1, cutsInto_decimal 1, rfl⟩
    | omega => exact ⟨.omega, cutsInto_letter (by decide), rfl⟩
    | bigOmega => exact ⟨.bigOmega, cutsInto_letter (by decide), rfl⟩
  · rw [spellAddend_of_hidden hidden]
    exact reads_form _ eq_zero_of_form h_sub h_arg

end Addends

/-! ## §4 Terms -/

theorem reads_printed (options : Options) (t : Term) : Reads (printed options t) t := by
  fun_induction printed options t with
  | case1 => exact reads_zero
  | case2 sub arg rest one ih =>
    -- A block of ones is read as one addend, the numeral.
    obtain ⟨rfl, rfl⟩ := one
    have block : ReadsAddend (Text.decimal (rest.leadingOnes + 1))
        (Term.numeral (rest.leadingOnes + 1)) := ⟨.number _, cutsInto_decimal _, rfl⟩
    have whole := block.followed ih
    rw [Term.numeral_succ, Term.cons_plus, Term.numeral_leadingOnes_plus_afterOnes] at whole
    exact whole
  | case3 sub arg rest _ ih_sub ih_arg ih_rest =>
    exact (reads_spellAddend options _ ih_sub ih_arg).followed ih_rest

/-- **Shown terms are read back**: whatever the flags are, the text that is shown for a term denotes
this term, unless it is TeX source. -/
theorem read_render {options : Options} (h : options.tex = false) (t : Term) :
    Reader.read (render options t) = .ok t := by
  rw [render_eq_printed h]
  exact (reads_printed options t).read

/-- An unbraced subscript, a number inside a sum and a constant, shown as short as possible. -/
theorem read_render_abbreviated :
    Options.abbreviated.tex = false ∧
      Reader.read (render Options.abbreviated
        (.psi (.numeral 2) .bigOmega + (.numeral 3 + .omega))) =
      .ok (.psi (.numeral 2) .bigOmega + (.numeral 3 + .omega)) :=
  ⟨rfl, read_render rfl _⟩

end Collapsing.Display
