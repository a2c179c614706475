import Collapsing.Display.Abbreviation
import Mathlib.Tactic.SplitIfs

/-!
# Abbreviating constants

The full text of a term is shortened by literal replacements that know nothing about terms.  This
module shows that they replace whole constants only: after each replacement the text is what a
printer writes that follows the term and puts a letter for some of the constants.

## Background

A spelling of a constant begins with `亞`, which stands only where a principal term begins.  So an
occurrence of a spelling begins together with a principal term, and it remains to compare the two
from there on.  A digit of the spelling is followed by a comma, a parenthesis or a brace.  In the
text of a sum it would be followed by `+`, so the digit is a whole operand
(`DigitOf.prefix_iff`), and the spelling is that of the principal term (`spelling_prefix_iff`).

## Main statements

- `replaces_spell`: one replacement, on a text with some constants abbreviated;
- `abbreviateConstants_write`: all the replacements on the full text of a term.
-/

namespace Collapsing.Display

/-! ## §1 Forms -/

/-- The four ways to write a principal term. -/
inductive Form where
  | oneOperand
  | braced
  | bare
  | twoOperands
  deriving DecidableEq

/-- A principal term in a form, given the texts of its parts. -/
def Form.spell (sub arg : Text) : Form → Text
  | oneOperand => Display.oneOperand arg
  | braced => withSubscript (Display.braced sub) arg
  | bare => withSubscript sub arg
  | twoOperands => Display.twoOperands sub arg

/-- The form that the options choose for a principal term. -/
def form (options : Options) (sub : Term) : Form :=
  if options.dropZero && sub = .zero then .oneOperand
  else if options.subscripts then
    if !options.braces && !options.tex && isShort options sub then .bare else .braced
  else .twoOperands

theorem principal_eq_spell (options : Options) (sub : Term) (subText argText : Text) :
    principal options sub subText argText = (form options sub).spell subText argText := by
  unfold principal form subscript
  split_ifs <;> rfl

theorem eq_zero_of_form {options : Options} {sub : Term} (h : form options sub = .oneOperand) :
    sub = .zero := by
  unfold form at h
  split_ifs at h with dropped
  · simp only [Bool.and_eq_true, decide_eq_true_eq] at dropped
    exact dropped.2

/-! ## §2 Constants

A constant has a letter and two parts, the subscript and the argument.  In its spellings the parts
are digits, because ones are abbreviated before the other constants. -/

/-- The principal terms that are abbreviated to a letter. -/
inductive Constant where
  | one
  | omega
  | bigOmega
  deriving DecidableEq

namespace Constant

def letter : Constant → Char
  | one => '1'
  | omega => 'ω'
  | bigOmega => 'Ω'

def sub : Constant → Term
  | bigOmega => .one
  | _ => .zero

def arg : Constant → Term
  | omega => .one
  | _ => .zero

def subDigit : Constant → Char
  | bigOmega => '1'
  | _ => '0'

def argDigit : Constant → Char
  | omega => '1'
  | _ => '0'

def spelling (constant : Constant) (form : Form) : Text :=
  form.spell [constant.subDigit] [constant.argDigit]

/-- The constant with the given parts. -/
def ofParts? (sub arg : Term) : Option Constant :=
  [one, omega, bigOmega].find? fun constant => constant.sub = sub ∧ constant.arg = arg

theorem ofParts?_eq_some_iff {s a : Term} {constant : Constant} :
    ofParts? s a = some constant ↔ s = constant.sub ∧ a = constant.arg := by
  constructor
  · intro h
    have found := List.find?_some h
    simp only [decide_eq_true_eq] at found
    exact ⟨found.1.symm, found.2.symm⟩
  · rintro ⟨rfl, rfl⟩
    cases constant <;> decide

end Constant

/-! ## §3 Texts with abbreviated constants -/

/-- The constants that are abbreviated in a text. -/
abbrev Shown := Constant → Bool

/-- The text of an addend: a letter if it is an abbreviated constant. -/
def spellAddend (options : Options) (shown : Shown) (sub arg : Term) (subText argText : Text) :
    Text :=
  match Constant.ofParts? sub arg with
  | some constant =>
    if shown constant then [constant.letter] else (form options sub).spell subText argText
  | none => (form options sub).spell subText argText

/-- The text of a term with some constants abbreviated. -/
def spell (options : Options) (shown : Shown) : Term → Text
  | .zero => ['0']
  | .cons sub arg .zero =>
    spellAddend options shown sub arg (spell options shown sub) (spell options shown arg)
  | .cons sub arg (.cons sub' arg' rest) =>
    spellAddend options shown sub arg (spell options shown sub) (spell options shown arg) ++
      '+' :: spell options shown (.cons sub' arg' rest)

/-- The parts are not those of an abbreviated constant. -/
def Hidden (shown : Shown) (sub arg : Term) : Prop :=
  ∀ constant : Constant, sub = constant.sub → arg = constant.arg → shown constant = false

theorem shown_or_hidden (shown : Shown) (sub arg : Term) :
    (∃ constant : Constant, sub = constant.sub ∧ arg = constant.arg ∧ shown constant = true) ∨
      Hidden shown sub arg := by
  refine (Classical.em _).imp_right ?_
  intro none constant eq_sub eq_arg
  apply eq_false_of_ne_true
  intro shows
  exact none ⟨constant, eq_sub, eq_arg, shows⟩

theorem spellAddend_of_shown {shown : Shown} {constant : Constant} (h : shown constant = true)
    (options : Options) (subText argText : Text) :
    spellAddend options shown constant.sub constant.arg subText argText = [constant.letter] := by
  rw [spellAddend, Constant.ofParts?_eq_some_iff.2 ⟨rfl, rfl⟩]
  exact if_pos h

theorem spellAddend_of_hidden {shown : Shown} {sub arg : Term} (h : Hidden shown sub arg)
    (options : Options) (subText argText : Text) :
    spellAddend options shown sub arg subText argText =
      (form options sub).spell subText argText := by
  unfold spellAddend
  split
  · rename_i constant found
    obtain ⟨eq_sub, eq_arg⟩ := Constant.ofParts?_eq_some_iff.1 found
    exact if_neg (ne_true_of_eq_false (h constant eq_sub eq_arg))
  · rfl

theorem write_eq_spell (options : Options) (t : Term) :
    write options t = spell options (fun _ => false) t := by
  have addend (sub arg : Term) (subText argText : Text) :
      principal options sub subText argText =
        spellAddend options (fun _ => false) sub arg subText argText := by
    rw [principal_eq_spell, spellAddend_of_hidden fun _ _ _ => rfl]
  induction t with
  | zero => rfl
  | cons sub arg rest ih_sub ih_arg ih_rest =>
    cases rest with
    | zero => rw [write_psi, spell, ih_sub, ih_arg, addend]
    | cons sub' arg' rest' =>
      rw [write_cons_cons, write_psi, spell, ih_sub, ih_arg, ih_rest, addend]

/-! ## §4 Digits

A digit of a spelling is compared with the text of a term, and what follows it in the spelling with
what follows the text. -/

/-- The digits that can stand for a term in a spelling. -/
inductive DigitOf (shown : Shown) : Char → Term → Prop where
  | zero : DigitOf shown '0' .zero
  | one (h : shown .one = true) : DigitOf shown '1' .one

theorem DigitOf.ne {shown : Shown} {d : Char} {u : Term} (h : DigitOf shown d u) :
    d ≠ '亞' ∧ d ≠ '\x7b' := by
  cases h <;> decide

theorem spell_zero_prefix_iff {d e : Char} {u : Term} {shown : Shown} (h : DigitOf shown d u)
    (p q : Text) : d :: e :: p <+: ['0'] ++ q ↔ Term.zero = u ∧ e :: p <+: q := by
  cases h with
  | zero => simp
  | one => simp

/-- An addend begins like a digit only if it is the term of the digit. -/
theorem spellAddend_prefix_iff {d e : Char} {u : Term} {shown : Shown} (h : DigitOf shown d u)
    (options : Options) (sub arg : Term) (subText argText p q : Text) :
    d :: e :: p <+: spellAddend options shown sub arg subText argText ++ q ↔
      Term.psi sub arg = u ∧ e :: p <+: q := by
  rcases shown_or_hidden shown sub arg with ⟨constant, rfl, rfl, shows⟩ | hidden
  · rw [spellAddend_of_shown shows]
    cases h with
    | zero => cases constant <;> simp [Constant.letter]
    | one => cases constant <;> simp [Constant.letter, Constant.sub, Constant.arg]
  · rw [spellAddend_of_hidden hidden]
    have head_ne : ¬ d :: e :: p <+: (form options sub).spell subText argText ++ q := by
      intro is_prefix
      cases eq_form : form options sub <;> rw [eq_form] at is_prefix <;>
        exact h.ne.1 (List.cons_prefix_cons.1 is_prefix).1
    have other : Term.psi sub arg ≠ u := by
      cases h with
      | zero => simp
      | one shows =>
        rintro ⟨⟩
        rw [hidden .one rfl rfl] at shows
        cases shows
    exact iff_of_false head_ne fun both => other both.1

/-- **A digit is a whole operand**: what stands behind it must not be `+`. -/
theorem DigitOf.prefix_iff {d e : Char} {u : Term} {shown : Shown} (h : DigitOf shown d u)
    (he : e ≠ '+') (options : Options) (s : Term) (p q : Text) :
    d :: e :: p <+: spell options shown s ++ q ↔ s = u ∧ e :: p <+: q := by
  match s with
  | .zero => exact spell_zero_prefix_iff h p q
  | .cons sub arg .zero => exact spellAddend_prefix_iff h options sub arg _ _ p q
  | .cons sub arg (.cons sub' arg' rest) =>
    -- What follows the first addend is a `+`, and the term of a digit is no sum.
    rw [spell, List.append_assoc, spellAddend_prefix_iff h]
    have sum_ne : Term.cons sub arg (.cons sub' arg' rest) ≠ u := by
      cases h <;> simp
    have not_plus : ¬ e :: p <+: '+' :: spell options shown (.cons sub' arg' rest) ++ q := by
      intro is_prefix
      exact he (List.cons_prefix_cons.1 is_prefix).1
    exact iff_of_false (fun both => not_plus both.2) fun both => sum_ne both.1

theorem Form.exists_head (form : Form) (sub arg : Text) :
    ∃ rest, form.spell sub arg = '亞' :: rest := by
  cases form <;> exact ⟨_, rfl⟩

theorem spellAddend_exists_head (options : Options) (shown : Shown) (sub arg : Term)
    (subText argText : Text) :
    ∃ c rest, spellAddend options shown sub arg subText argText = c :: rest ∧
      (c = '亞' ∨ ∃ constant : Constant,
        sub = constant.sub ∧ arg = constant.arg ∧ c = constant.letter) := by
  rcases shown_or_hidden shown sub arg with ⟨constant, rfl, rfl, shows⟩ | hidden
  · refine ⟨constant.letter, [], spellAddend_of_shown shows options subText argText, ?_⟩
    exact .inr ⟨constant, rfl, rfl, rfl⟩
  · obtain ⟨rest, head⟩ := (form options sub).exists_head subText argText
    exact ⟨'亞', rest, (spellAddend_of_hidden hidden options subText argText).trans head, .inl rfl⟩

theorem spell_head_ne_brace (options : Options) (shown : Shown) (s : Term) :
    ∃ c rest, spell options shown s = c :: rest ∧ c ≠ '\x7b' := by
  have addend (sub arg : Term) (subText argText : Text) :
      ∃ c rest, spellAddend options shown sub arg subText argText = c :: rest ∧ c ≠ '\x7b' := by
    obtain ⟨c, rest, eq, head⟩ := spellAddend_exists_head options shown sub arg subText argText
    refine ⟨c, rest, eq, ?_⟩
    rcases head with rfl | ⟨constant, _, _, rfl⟩
    · decide
    · cases constant <;> decide
  match s with
  | .zero => exact ⟨'0', [], rfl, by decide⟩
  | .cons sub arg .zero => exact addend sub arg _ _
  | .cons sub arg (.cons sub' arg' rest) =>
    obtain ⟨c, rest, eq, ne⟩ := addend sub arg (spell options shown sub) (spell options shown arg)
    exact ⟨c, _, by rw [spell, eq, List.cons_append], ne⟩

theorem not_brace_prefix_spell (options : Options) (shown : Shown) (s : Term) (p q : Text) :
    ¬ '\x7b' :: p <+: spell options shown s ++ q := by
  obtain ⟨c, rest, eq, ne⟩ := spell_head_ne_brace options shown s
  rw [eq, List.cons_append, List.cons_prefix_cons]
  intro both
  exact ne both.1.symm

/-! ## §5 Spellings -/

/-- A spelling stands where a principal term stands that has this form and these parts. -/
theorem spelling_prefix_iff {shown : Shown} {a b : Char} {u v : Term} (ha : DigitOf shown a u)
    (hb : DigitOf shown b v) (options : Options) (f g : Form) (s t : Term) (rest : Text) :
    g.spell [a] [b] <+: f.spell (spell options shown s) (spell options shown t) ++ rest ↔
      f = g ∧ (f = .oneOperand ∨ s = u) ∧ t = v := by
  -- Two forms differ in front of the first operand or right behind it.
  cases g <;> cases f <;>
    simp [Form.spell, oneOperand, twoOperands, withSubscript, braced,
      ha.prefix_iff, hb.prefix_iff, not_brace_prefix_spell, ha.ne.2]

/-! ## §6 One replacement -/

/-- A replacement turns one text into another, whatever follows. -/
def Replaces (old new text text' : Text) : Prop :=
  ∀ rest, Text.replaceAll old new (text ++ rest) = text' ++ Text.replaceAll old new rest

theorem replaceAll_cons_of_no_match {old : Text} {c : Char} {rest : Text} (new : Text)
    (h : ¬ old <+: c :: rest) :
    Text.replaceAll old new (c :: rest) = c :: Text.replaceAll old new rest := by
  apply Text.replaceAll_of_not_isPrefixOf
  rw [Bool.eq_false_iff, ne_eq, List.isPrefixOf_iff_prefix]
  exact h

theorem replaceAll_cons_of_ne {c : Char} (h : c ≠ '亞') (pattern new rest : Text) :
    Text.replaceAll ('亞' :: pattern) new (c :: rest) =
      c :: Text.replaceAll ('亞' :: pattern) new rest := by
  apply replaceAll_cons_of_no_match
  intro is_prefix
  exact h (List.cons_prefix_cons.1 is_prefix).1.symm

/-- Where no occurrence begins, only the parts of a principal term change. -/
theorem replaces_form {pattern new subText subText' argText argText' : Text} (form : Form)
    (h_sub : Replaces ('亞' :: pattern) new subText subText')
    (h_arg : Replaces ('亞' :: pattern) new argText argText') (rest : Text)
    (no_match : ¬ '亞' :: pattern <+: form.spell subText argText ++ rest) :
    Text.replaceAll ('亞' :: pattern) new (form.spell subText argText ++ rest) =
      form.spell subText' argText' ++ Text.replaceAll ('亞' :: pattern) new rest := by
  cases form <;>
    simp only [Form.spell, oneOperand, twoOperands, withSubscript, braced, List.cons_append,
      List.append_assoc, List.nil_append] at no_match ⊢ <;>
    rw [replaceAll_cons_of_no_match new no_match] <;>
    simp [replaceAll_cons_of_ne, h_sub _, h_arg _]

/-- The constants shown after a spelling of one of them has been replaced: it is among them now if
the options write it in this form. -/
def Shown.add (shown : Shown) (options : Options) (constant : Constant) (g : Form) : Shown :=
  fun other => shown other || (other = constant && form options constant.sub = g)

theorem DigitOf.spell_eq {shown : Shown} {d : Char} {u : Term} (h : DigitOf shown d u)
    (options : Options) : spell options shown u = [d] := by
  cases h with
  | zero => rfl
  | one shows => exact spellAddend_of_shown shows options _ _

/-- The digits in the spellings of a constant stand for its parts, provided that ones are
abbreviated already. -/
theorem Constant.digitOf {shown : Shown} {constant : Constant}
    (ready : constant = one ∨ shown one = true) :
    DigitOf shown constant.subDigit constant.sub ∧
      DigitOf shown constant.argDigit constant.arg := by
  cases constant with
  | one => exact ⟨.zero, .zero⟩
  | omega => exact ⟨.zero, .one (ready.resolve_left (by decide))⟩
  | bigOmega => exact ⟨.one (ready.resolve_left (by decide)), .zero⟩

/-- The replacement of a spelling in one form. -/
abbrev ReplacesSpelling (constant : Constant) (g : Form) : Text → Text → Prop :=
  Replaces (constant.spelling g) [constant.letter]

theorem replaces_spellAddend {options : Options} {shown : Shown} {constant : Constant} {g : Form}
    (ready : constant = .one ∨ shown .one = true) (h_form : g = .oneOperand → constant.sub = .zero)
    {sub arg : Term}
    (h_sub : ReplacesSpelling constant g (spell options shown sub)
      (spell options (shown.add options constant g) sub))
    (h_arg : ReplacesSpelling constant g (spell options shown arg)
      (spell options (shown.add options constant g) arg)) :
    ReplacesSpelling constant g
      (spellAddend options shown sub arg (spell options shown sub) (spell options shown arg))
      (spellAddend options (shown.add options constant g) sub arg
        (spell options (shown.add options constant g) sub)
        (spell options (shown.add options constant g) arg)) := by
  intro rest
  obtain ⟨digit_sub, digit_arg⟩ := Constant.digitOf ready
  obtain ⟨pattern, old⟩ := g.exists_head [constant.subDigit] [constant.argDigit]
  have old : constant.spelling g = '亞' :: pattern := old
  rcases shown_or_hidden shown sub arg with ⟨other, rfl, rfl, shows⟩ | hidden
  · -- A letter is no part of a spelling.
    have still : shown.add options constant g other = true := by rw [Shown.add, shows, Bool.true_or]
    rw [spellAddend_of_shown shows, spellAddend_of_shown still, old]
    exact replaceAll_cons_of_ne (by cases other <;> decide) pattern [constant.letter] rest
  rw [spellAddend_of_hidden hidden]
  by_cases found : (sub = constant.sub ∧ arg = constant.arg) ∧ form options sub = g
  · -- The constant itself, in this form.
    obtain ⟨⟨rfl, rfl⟩, rfl⟩ := found
    have now : shown.add options constant (form options constant.sub) constant = true := by
      simp [Shown.add]
    rw [spellAddend_of_shown now, digit_sub.spell_eq, digit_arg.spell_eq]
    have whole : constant.spelling (form options constant.sub) <+:
      constant.spelling (form options constant.sub) ++ rest := List.prefix_append _ _
    refine (Text.replaceAll_of_isPrefixOf _ (by rw [old]; simp)
      (List.isPrefixOf_iff_prefix.2 whole)).trans ?_
    rw [List.drop_left]
  · -- Any other principal term.
    have still : Hidden (shown.add options constant g) sub arg := by
      rintro other rfl rfl
      rw [Shown.add, hidden other rfl rfl, Bool.false_or, Bool.and_eq_false_iff]
      simp only [decide_eq_false_iff_not]
      by_cases same : other = constant
      · subst same
        exact .inr fun eq_form => found ⟨⟨rfl, rfl⟩, eq_form⟩
      · exact .inl same
    rw [spellAddend_of_hidden still]
    unfold ReplacesSpelling at h_sub h_arg
    rw [old] at h_sub h_arg ⊢
    apply replaces_form (form options sub) h_sub h_arg rest
    rw [← old]
    intro is_prefix
    obtain ⟨rfl, eq_sub, eq_arg⟩ :=
      (spelling_prefix_iff digit_sub digit_arg options _ g sub arg rest).1 is_prefix
    have eq_sub : sub = constant.sub := by
      -- The form with one operand does not show the subscript, but it is used for `0` only.
      rcases eq_sub with one_operand | eq_sub
      · rw [eq_zero_of_form one_operand, h_form one_operand]
      · exact eq_sub
    exact found ⟨⟨eq_sub, eq_arg⟩, rfl⟩

/-- **One replacement**: the spelling of a constant is replaced where the constant is written like
this, and nowhere else. -/
theorem replaces_spell (options : Options) {shown : Shown} {constant : Constant} (g : Form)
    (ready : constant = .one ∨ shown .one = true) (h_form : g = .oneOperand → constant.sub = .zero)
    (t : Term) :
    ReplacesSpelling constant g (spell options shown t)
      (spell options (shown.add options constant g) t) := by
  have keeps {c : Char} (h : c ≠ '亞') (rest : Text) :
      Text.replaceAll (constant.spelling g) [constant.letter] (c :: rest) =
        c :: Text.replaceAll (constant.spelling g) [constant.letter] rest := by
    obtain ⟨pattern, old⟩ := g.exists_head [constant.subDigit] [constant.argDigit]
    rw [Constant.spelling, old]
    exact replaceAll_cons_of_ne h pattern _ rest
  induction t with
  | zero =>
    intro rest
    exact keeps (by decide) rest
  | cons sub arg rest ih_sub ih_arg ih_rest =>
    have addend := replaces_spellAddend ready h_form ih_sub ih_arg
    cases rest with
    | zero => exact addend
    | cons sub' arg' rest' =>
      -- No spelling begins with `+`.
      intro follow
      rw [spell, spell, List.append_assoc, List.append_assoc, addend, List.cons_append,
        List.cons_append, keeps (by decide), ih_rest]

/-! ## §7 All replacements -/

/-- The constants that are shown as a letter in a shortened text. -/
def shownBy (options : Options) : Shown
  | .one => true
  | .omega => options.omega
  | .bigOmega => options.bigOmega

theorem replaceSpellings_spell {options : Options} {shown : Shown} {constant : Constant}
    {forms : List Form} (ready : constant = .one ∨ shown .one = true)
    (h_form : .oneOperand ∈ forms → constant.sub = .zero) (t : Term) :
    replaceSpellings (forms.map constant.spelling) constant.letter (spell options shown t) =
      spell options (fun other =>
        shown other || (other = constant && form options constant.sub ∈ forms)) t := by
  induction forms generalizing shown with
  | nil => simp [replaceSpellings]
  | cons g forms ih =>
    have first : Text.replaceAll (constant.spelling g) [constant.letter] (spell options shown t) =
        spell options (shown.add options constant g) t := by
      have replaced := replaces_spell options g ready
        (fun eq => h_form (eq ▸ List.mem_cons_self)) t []
      rwa [List.append_nil, Text.replaceAll_nil, List.append_nil] at replaced
    have still_ready : constant = .one ∨ shown.add options constant g .one = true :=
      ready.imp_right fun shows => by rw [Shown.add, shows, Bool.true_or]
    rw [List.map_cons, replaceSpellings, List.foldl_cons, first, ← replaceSpellings,
      ih still_ready fun mem => h_form (List.mem_cons_of_mem g mem)]
    -- The forms looked for first and those looked for later together are all the forms.
    congr 1
    funext other
    by_cases same : other = constant
    · simp [Shown.add, same, Bool.or_assoc]
    · simp [Shown.add, same]

/-- The constants shown once one more has been abbreviated, if the flag asks for it. -/
def Shown.with (shown : Shown) (constant : Constant) (flag : Bool) : Shown :=
  fun other => shown other || (flag && other = constant)

theorem replaceSpellings_with {options : Options} {shown : Shown} (constant : Constant)
    (forms : List Form) (ready : constant = .one ∨ shown .one = true)
    (h_form : .oneOperand ∈ forms → constant.sub = .zero)
    (written : form options constant.sub ∈ forms) (flag : Bool) (t : Term) :
    (if flag then
      replaceSpellings (forms.map constant.spelling) constant.letter (spell options shown t)
    else spell options shown t) = spell options (shown.with constant flag) t := by
  cases flag with
  | false =>
    have same : shown.with constant false = shown := by
      funext other
      simp [Shown.with]
    rw [same]
    exact if_neg Bool.false_ne_true
  | true =>
    rw [if_pos rfl, replaceSpellings_spell ready h_form]
    congr 1
    funext other
    simp [Shown.with, written]

theorem mem_all_forms (g : Form) : g ∈ [Form.oneOperand, .braced, .bare, .twoOperands] := by
  cases g <;> decide

theorem form_one_mem (options : Options) :
    form options .one ∈ [Form.braced, .bare, .twoOperands] := by
  cases h : form options .one with
  | oneOperand => cases eq_zero_of_form h
  | _ => decide

/-- **Abbreviating constants**: the replacements put letters for the constants that the flags show,
and change nothing else. -/
theorem abbreviateConstants_write (options : Options) (t : Term) :
    abbreviateConstants options (write options t) = spell options (shownBy options) t := by
  let ones : Shown := Shown.with (fun _ => false) .one true
  let omegas : Shown := ones.with .omega options.omega
  have h_ones : replaceSpellings oneSpellings '1' (write options t) = spell options ones t := by
    rw [write_eq_spell]
    exact replaceSpellings_with .one _ (.inl rfl) (fun _ => rfl) (mem_all_forms _) true t
  have h_omegas : (if options.omega then replaceSpellings omegaSpellings 'ω' (spell options ones t)
      else spell options ones t) = spell options omegas t :=
    replaceSpellings_with .omega _ (.inr rfl) (fun _ => rfl) (mem_all_forms _) options.omega t
  have h_bigOmegas : (if options.bigOmega then
      replaceSpellings bigOmegaSpellings 'Ω' (spell options omegas t)
      else spell options omegas t) =
        spell options (omegas.with .bigOmega options.bigOmega) t :=
    replaceSpellings_with .bigOmega [.braced, .bare, .twoOperands] (.inr rfl) (by decide)
      (form_one_mem options) options.bigOmega t
  have letters : omegas.with .bigOmega options.bigOmega = shownBy options := by
    funext other
    cases other <;> simp [Shown.with, shownBy, omegas, ones]
  unfold abbreviateConstants
  simp only [h_ones, h_omegas, h_bigOmegas, letters]

end Collapsing.Display
