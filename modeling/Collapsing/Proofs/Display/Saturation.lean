import Collapsing.Proofs.Display.Constants
import Collapsing.Proofs.Display.RunLoop

/-!
# Shortened texts cannot be shortened further

Any text can be shortened, not only the text of a term.  What comes out has no run of ones in it and
no spelling of a constant that the flags abbreviate, so shortening it again changes nothing.

A replacement could bring about an occurrence of something that was looked for before: what is put in
could complete it together with its surroundings.  A letter that stands for a constant is in no
spelling that is looked for before or together with it, so it completes none.  For the number of a run
this is not so, since the spellings have digits in them.  But a digit of a spelling is `0` or `1` and
has no digit beside it, whereas the number of a run is at least two: it has one digit, which is no `1`,
or else each of its digits has another one beside it.

## Main statements

- `infix_of_infix_replaceAll`, `not_infix_replaceAll`: occurrences after a replacement;
- `infix_of_infix_countRuns`: occurrences after runs have been collapsed;
- `abbreviate_saturates`: shortened texts are saturated.
-/

namespace Collapsing.Display

/-! ## §1 Occurrences after a replacement -/

/-- Induction along the scan of a replacement: an occurrence at the front is passed over as a whole,
and any other character for itself. -/
@[elab_as_elim]
theorem scan_induction {old : Text} (nonempty : old ≠ []) {P : Text → Prop} (nil : P [])
    (found : ∀ after, P after → P (old ++ after))
    (kept : ∀ c rest, ¬ old <+: c :: rest → P rest → P (c :: rest)) (text : Text) : P text := by
  match text with
  | [] => exact nil
  | c :: rest =>
    by_cases here : old <+: c :: rest
    · obtain ⟨after, eq⟩ := here
      have shorter : after.length < (c :: rest).length := by
        rw [← eq, List.length_append]
        exact Nat.lt_add_of_pos_left (List.length_pos_iff.2 nonempty)
      rw [← eq]
      exact found after (scan_induction nonempty nil found kept after)
    · exact kept c rest here (scan_induction nonempty nil found kept rest)
termination_by text.length
decreasing_by
  · exact shorter
  · exact Nat.lt_succ_self rest.length

theorem replaceAll_append {old : Text} (nonempty : old ≠ []) (new after : Text) :
    Text.replaceAll old new (old ++ after) = new ++ Text.replaceAll old new after := by
  rw [Text.replaceAll_of_isPrefixOf new nonempty, List.drop_left]
  rw [List.isPrefixOf_iff_prefix]
  exact List.prefix_append old after

theorem eq_nil_of_prefix_cons {pattern rest : Text} {c : Char} (h : c ∉ pattern)
    (occurs : pattern <+: c :: rest) : pattern = [] := by
  cases pattern with
  | nil => rfl
  | cons d pattern =>
    obtain ⟨rfl, _⟩ := List.cons_prefix_cons.1 occurs
    exact absurd List.mem_cons_self h

section Replacement

variable {old pattern : Text} {letter : Char} (nonempty : old ≠ [])

include nonempty

/-- What stands at the front after a replacement stood there before. -/
theorem prefix_of_prefix_replaceAll (h : letter ∉ pattern) {text : Text}
    (occurs : pattern <+: Text.replaceAll old [letter] text) : pattern <+: text := by
  induction text using scan_induction nonempty generalizing pattern with
  | nil => exact occurs
  | found after _ =>
    rw [replaceAll_append nonempty] at occurs
    rw [eq_nil_of_prefix_cons h occurs]
    exact List.nil_prefix
  | kept c rest no_match ih =>
    cases pattern with
    | nil => exact List.nil_prefix
    | cons d pattern =>
      rw [replaceAll_cons_of_no_match _ no_match, List.cons_prefix_cons] at occurs
      obtain ⟨rfl, occurs⟩ := occurs
      rw [List.cons_prefix_cons]
      exact ⟨rfl, ih (fun mem => h (List.mem_cons_of_mem d mem)) occurs⟩

/-- What occurs after a replacement occurred before. -/
theorem infix_of_infix_replaceAll (h : letter ∉ pattern) {text : Text}
    (occurs : pattern <:+: Text.replaceAll old [letter] text) : pattern <:+: text := by
  induction text using scan_induction nonempty with
  | nil => exact occurs
  | found after ih =>
    -- No occurrence has the letter in it, so it lies behind the letter as a whole.
    rw [replaceAll_append nonempty, List.singleton_append, List.infix_cons_iff] at occurs
    rcases occurs with front | behind
    · rw [eq_nil_of_prefix_cons h front]
      exact List.nil_infix
    · exact (ih behind).trans (List.suffix_append old after).isInfix
  | kept c rest no_match ih =>
    have whole := replaceAll_cons_of_no_match [letter] no_match
    rw [whole, List.infix_cons_iff, ← whole] at occurs
    rw [List.infix_cons_iff]
    exact occurs.imp (prefix_of_prefix_replaceAll nonempty h) ih

/-- After a replacement nothing is left to replace. -/
theorem not_infix_replaceAll (h : letter ∉ old) (text : Text) :
    ¬ old <:+: Text.replaceAll old [letter] text := by
  induction text using scan_induction nonempty with
  | nil => simpa using nonempty
  | found after ih =>
    rw [replaceAll_append nonempty, List.singleton_append, List.infix_cons_iff, not_or]
    exact ⟨fun front => nonempty (eq_nil_of_prefix_cons h front), ih⟩
  | kept c rest no_match ih =>
    have whole := replaceAll_cons_of_no_match [letter] no_match
    rw [whole, List.infix_cons_iff, not_or, ← whole]
    exact ⟨fun front => no_match (prefix_of_prefix_replaceAll nonempty h front), ih⟩

end Replacement

/-- Where nothing occurs, nothing is replaced. -/
theorem replaceAll_of_not_infix {old text : Text} (new : Text) (h : ¬ old <:+: text) :
    Text.replaceAll old new text = text := by
  induction text with
  | nil => rfl
  | cons c rest ih =>
    rw [List.infix_cons_iff, not_or] at h
    rw [replaceAll_cons_of_no_match new h.1, ih h.2]

/-! ## §2 Spellings -/

section Spellings

variable {spellings : List Text} {letter : Char} (nonempty : [] ∉ spellings)

include nonempty

theorem infix_of_infix_replaceSpellings {pattern : Text} (h : letter ∉ pattern) {text : Text}
    (occurs : pattern <:+: replaceSpellings spellings letter text) : pattern <:+: text := by
  induction spellings generalizing text with
  | nil => exact occurs
  | cons spelling spellings ih =>
    obtain ⟨first_ne, others_ne⟩ := List.ne_and_not_mem_of_not_mem_cons nonempty
    exact infix_of_infix_replaceAll first_ne.symm h (ih others_ne occurs)

/-- None of the spellings is left, if none has the letter in it. -/
theorem not_infix_replaceSpellings (h : ∀ spelling ∈ spellings, letter ∉ spelling) (text : Text) :
    ∀ spelling ∈ spellings, ¬ spelling <:+: replaceSpellings spellings letter text := by
  induction spellings generalizing text with
  | nil => simp
  | cons first spellings ih =>
    obtain ⟨first_ne, others_ne⟩ := List.ne_and_not_mem_of_not_mem_cons nonempty
    obtain ⟨h_first, h_others⟩ := List.forall_mem_cons.1 h
    rw [List.forall_mem_cons]
    refine ⟨fun occurs => ?_, ih others_ne h_others _⟩
    -- What is put in for the other spellings does not bring the first one back.
    exact not_infix_replaceAll first_ne.symm h_first text
      (infix_of_infix_replaceSpellings others_ne h_first occurs)

end Spellings

theorem replaceSpellings_of_not_infix {spellings : List Text} (letter : Char) {text : Text}
    (h : ∀ spelling ∈ spellings, ¬ spelling <:+: text) :
    replaceSpellings spellings letter text = text := by
  induction spellings with
  | nil => rfl
  | cons first spellings ih =>
    obtain ⟨h_first, h_others⟩ := List.forall_mem_cons.1 h
    rw [replaceSpellings, List.foldl_cons, replaceAll_of_not_infix _ h_first]
    exact ih h_others

/-- The spellings of `ω` that are looked for. -/
def soughtOmegas (options : Options) : List Text := if options.omega then omegaSpellings else []

/-- The spellings of `Ω` that are looked for. -/
def soughtBigOmegas (options : Options) : List Text :=
  if options.bigOmega then bigOmegaSpellings else []

/-- All the spellings that are looked for. -/
def sought (options : Options) : List Text :=
  oneSpellings ++ (soughtOmegas options ++ soughtBigOmegas options)

theorem abbreviateConstants_eq (options : Options) (text : Text) :
    abbreviateConstants options text =
      replaceSpellings (soughtBigOmegas options) 'Ω'
        (replaceSpellings (soughtOmegas options) 'ω' (replaceSpellings oneSpellings '1' text)) := by
  unfold abbreviateConstants soughtOmegas soughtBigOmegas
  cases options.omega <;> cases options.bigOmega <;> rfl

/-! ## §3 Digits in spellings -/

/-- Whether each digit of a text is `0` or `1` and has a character behind it that is no digit. -/
def hasLoneDigits : Text → Bool
  | [] => true
  | [c] => !c.isDigit
  | c :: d :: rest =>
    (!c.isDigit || ((c = '0' || c = '1') && !d.isDigit)) && hasLoneDigits (d :: rest)

theorem hasLoneDigits_of_cons {c : Char} {rest : Text} (h : hasLoneDigits (c :: rest) = true) :
    hasLoneDigits rest = true := by
  cases rest with
  | nil => rfl
  | cons d rest =>
    rw [hasLoneDigits, Bool.and_eq_true] at h
    exact h.2

theorem lone_digit {c : Char} {rest : Text} (lone : hasLoneDigits (c :: rest) = true)
    (digit : c.isDigit = true) :
    (c = '0' ∨ c = '1') ∧ ∃ d after, rest = d :: after ∧ d.isDigit = false := by
  cases rest with
  | nil => simp [hasLoneDigits, digit] at lone
  | cons d after =>
    simp only [hasLoneDigits, digit, Bool.not_true, Bool.false_or, Bool.and_eq_true,
      Bool.or_eq_true, decide_eq_true_eq, Bool.not_eq_true'] at lone
    exact ⟨lone.1.1, d, after, rfl, lone.1.2⟩

/-- A text such as the spelling of a constant. -/
structure SpellingLike (text : Text) : Prop where
  head : text.head? = some '亞'
  lone : hasLoneDigits text = true
  no_omega : 'ω' ∉ text
  no_bigOmega : 'Ω' ∉ text

theorem SpellingLike.ne_nil {text : Text} (h : SpellingLike text) : text ≠ [] := by
  rintro rfl
  cases h.head

theorem spellingLike_of_mem_sought {options : Options} {spelling : Text}
    (h : spelling ∈ sought options) : SpellingLike spelling := by
  have all : ∀ text ∈ oneSpellings ++ (omegaSpellings ++ bigOmegaSpellings),
      text.head? = some '亞' ∧ hasLoneDigits text = true ∧ 'ω' ∉ text ∧ 'Ω' ∉ text := by
    decide
  have listed : spelling ∈ oneSpellings ++ (omegaSpellings ++ bigOmegaSpellings) := by
    simp only [sought, soughtOmegas, soughtBigOmegas, List.mem_append] at h ⊢
    refine h.imp_right (Or.imp ?_ ?_)
    all_goals
      split
      · exact id
      · simp
  obtain ⟨head, lone, no_omega, no_bigOmega⟩ := all spelling listed
  exact ⟨head, lone, no_omega, no_bigOmega⟩

theorem one_notMem_of_mem_oneSpellings : ∀ spelling ∈ oneSpellings, '1' ∉ spelling := by
  decide

/-- No spelling that is looked for is left. -/
theorem not_infix_abbreviateConstants (options : Options) (text : Text) :
    ∀ spelling ∈ sought options, ¬ spelling <:+: abbreviateConstants options text := by
  have like {spelling : Text} : spelling ∈ sought options → SpellingLike spelling :=
    spellingLike_of_mem_sought
  have nonempty {spellings : List Text} (sub : spellings ⊆ sought options) : [] ∉ spellings :=
    fun mem => (like (sub mem)).ne_nil rfl
  have ones_sub : oneSpellings ⊆ sought options := List.subset_append_left _ _
  have omegas_sub : soughtOmegas options ⊆ sought options :=
    List.subset_append_of_subset_right _ (List.subset_append_left _ _)
  have bigOmegas_sub : soughtBigOmegas options ⊆ sought options :=
    List.subset_append_of_subset_right _ (List.subset_append_right _ _)
  intro spelling mem occurs
  rw [abbreviateConstants_eq] at occurs
  rcases List.mem_append.1 mem with one | mem'
  · -- Neither letter that is put in later brings a spelling back.
    have before_bigOmegas := infix_of_infix_replaceSpellings (nonempty bigOmegas_sub)
      (like mem).no_bigOmega occurs
    have before_omegas := infix_of_infix_replaceSpellings (nonempty omegas_sub)
      (like mem).no_omega before_bigOmegas
    exact not_infix_replaceSpellings (nonempty ones_sub) one_notMem_of_mem_oneSpellings _
      spelling one before_omegas
  rcases List.mem_append.1 mem' with omega | bigOmega
  · have before_bigOmegas := infix_of_infix_replaceSpellings (nonempty bigOmegas_sub)
      (like mem).no_bigOmega occurs
    exact not_infix_replaceSpellings (nonempty omegas_sub)
      (fun _ mem => (like (omegas_sub mem)).no_omega) _ spelling omega before_bigOmegas
  · exact not_infix_replaceSpellings (nonempty bigOmegas_sub)
      (fun _ mem => (like (bigOmegas_sub mem)).no_bigOmega) _ spelling bigOmega occurs

/-! ## §4 Numbers in the place of runs -/

/-- The number of a run is a digit other than `0` and `1`, or it has two digits at least. -/
theorem decimal_of_two_le {n : Nat} (several : 2 ≤ n) :
    (∃ c, Text.decimal n = [c] ∧ c ≠ '0' ∧ c ≠ '1') ∨
      ∃ c d rest, Text.decimal n = c :: d :: rest := by
  have digits_ne : Text.decimal n ≠ [] := Nat.toDigits_ne_nil
  have digit_ne : ∀ d < 10, 2 ≤ d → d.digitChar ≠ '0' ∧ d.digitChar ≠ '1' := by
    decide
  by_cases small : n < 10
  · exact .inl ⟨n.digitChar, Nat.toDigits_of_lt_base small, digit_ne n small several⟩
  · have long : 1 < (Text.decimal n).length := by
      rw [← Nat.not_le]
      exact fun short => small ((Nat.length_toDigits_le_iff (by decide) (by decide)).1 short)
    match eq : Text.decimal n with
    | [] => exact absurd eq digits_ne
    | [c] => simp [eq] at long
    | c :: d :: rest => exact .inr ⟨c, d, rest, rfl⟩

/-- Nothing with lone digits begins together with the number of a run. -/
theorem eq_nil_of_prefix_decimal {n : Nat} (several : 2 ≤ n) {pattern after : Text}
    (lone : hasLoneDigits pattern = true) (occurs : pattern <+: Text.decimal n ++ after) :
    pattern = [] := by
  have digit : ∀ c ∈ Text.decimal n, c.isDigit = true := fun _ mem => isDigit_of_mem_decimal mem
  cases pattern with
  | nil => rfl
  | cons c pattern =>
    exfalso
    rcases decimal_of_two_le several with ⟨d, eq, not_zero, not_one⟩ | ⟨d, d', rest, eq⟩
    · -- The only digit of the number is no digit of the pattern.
      rw [eq, List.singleton_append, List.cons_prefix_cons] at occurs
      obtain ⟨rfl, _⟩ := occurs
      obtain ⟨zero_or_one, _⟩ := lone_digit lone (digit c (by simp [eq]))
      exact zero_or_one.elim not_zero not_one
    · -- The second digit of the number stands where the pattern has no digit.
      rw [eq, List.cons_append, List.cons_append, List.cons_prefix_cons] at occurs
      obtain ⟨rfl, behind⟩ := occurs
      obtain ⟨_, e, pattern, rfl, no_digit⟩ := lone_digit lone (digit c (by simp [eq]))
      obtain ⟨rfl, _⟩ := List.cons_prefix_cons.1 behind
      exact ne_true_of_eq_false no_digit (digit e (by simp [eq]))

/-- What stands at the front once runs are collapsed stood there before. -/
theorem prefix_of_prefix_countRuns {pattern text : Text} (lone : hasLoneDigits pattern = true)
    (occurs : pattern <+: countRuns text) : pattern <+: text := by
  have kept (c : Char) (rest : Text)
      (ih : ∀ {pattern : Text}, hasLoneDigits pattern = true → pattern <+: countRuns rest →
        pattern <+: rest)
      {pattern : Text} (lone : hasLoneDigits pattern = true)
      (occurs : pattern <+: c :: countRuns rest) : pattern <+: c :: rest := by
    cases pattern with
    | nil => exact List.nil_prefix
    | cons d pattern =>
      obtain ⟨same, behind⟩ := List.cons_prefix_cons.1 occurs
      rw [List.cons_prefix_cons]
      exact ⟨same, ih (hasLoneDigits_of_cons lone) behind⟩
  fun_induction countRuns text generalizing pattern with
  | case1 => exact occurs
  | case2 rest after run ih => exact kept '1' rest ih lone occurs
  | case3 rest n after run ih =>
    rw [eq_nil_of_prefix_decimal (by omega) lone occurs]
    exact List.nil_prefix
  | case4 c rest other ih => exact kept c rest ih lone occurs

/-- What begins with no digit does not begin within a number. -/
theorem infix_of_infix_digits {c : Char} (no_digit : c.isDigit = false) {pattern digits after : Text}
    (digit : ∀ d ∈ digits, d.isDigit = true) (occurs : c :: pattern <:+: digits ++ after) :
    c :: pattern <:+: after := by
  induction digits with
  | nil => exact occurs
  | cons d digits ih =>
    obtain ⟨first, others⟩ := List.forall_mem_cons.1 digit
    rw [List.cons_append, List.infix_cons_iff] at occurs
    rcases occurs with front | behind
    · obtain ⟨rfl, _⟩ := List.cons_prefix_cons.1 front
      rw [no_digit] at first
      cases first
    · exact ih others behind

/-- What occurs once runs are collapsed occurred before, if its digits are alone. -/
theorem infix_of_infix_countRuns {c : Char} (no_digit : c.isDigit = false) {pattern text : Text}
    (lone : hasLoneDigits (c :: pattern) = true) (occurs : c :: pattern <:+: countRuns text) :
    c :: pattern <:+: text := by
  fun_induction countRuns text with
  | case1 => exact occurs
  | case2 rest after run ih =>
    have no_run : (plusOnes rest).1 = 0 := by rw [run]
    have whole := countRuns_one_of_no_run no_run
    rw [List.infix_cons_iff, ← whole] at occurs
    rw [List.infix_cons_iff]
    exact occurs.imp (prefix_of_prefix_countRuns lone) ih
  | case3 rest n after run ih =>
    have behind := infix_of_infix_digits no_digit (fun _ mem => isDigit_of_mem_decimal mem) occurs
    -- What comes after the run is a part of the text.
    have part := one_cons_eq_runText rest
    rw [run] at part
    rw [part]
    exact (ih behind).trans (List.suffix_append _ after).isInfix
  | case4 d rest other ih =>
    have whole := countRuns_cons_of_ne other rest
    rw [List.infix_cons_iff, ← whole] at occurs
    rw [List.infix_cons_iff]
    exact occurs.imp (prefix_of_prefix_countRuns lone) ih

theorem SpellingLike.infix_of_infix_collapseRuns {spelling text : Text} (h : SpellingLike spelling)
    (occurs : spelling <:+: collapseRuns text) : spelling <:+: text := by
  cases spelling with
  | nil => exact List.nil_infix
  | cons c rest =>
    have no_digit : c.isDigit = false := by
      cases h.head
      decide
    rw [collapseRuns_eq_countRuns] at occurs
    exact infix_of_infix_countRuns no_digit h.lone occurs

/-! ## §5 Shortened texts -/

theorem abbreviate_of_not_tex {options : Options} (h : options.tex = false) (text : Text) :
    abbreviate options text = collapseRuns (abbreviateConstants options text) := by
  rw [abbreviate, if_neg (ne_true_of_eq_false h)]

/-- A text without runs and spellings is as short as can be. -/
theorem abbreviate_of_not_infix {options : Options} (h : options.tex = false) {text : Text}
    (no_run : ¬ runText 2 <:+: text) (no_spelling : ∀ spelling ∈ sought options,
      ¬ spelling <:+: text) : abbreviate options text = text := by
  simp only [sought, List.forall_mem_append] at no_spelling
  obtain ⟨no_one, no_omega, no_bigOmega⟩ := no_spelling
  rw [abbreviate_of_not_tex h, abbreviateConstants_eq, replaceSpellings_of_not_infix '1' no_one,
    replaceSpellings_of_not_infix 'ω' no_omega, replaceSpellings_of_not_infix 'Ω' no_bigOmega,
    collapseRuns_of_no_run ((firstRun?_eq_none_iff text).2 no_run)]

/-- **Shortening saturates**, for any text.  The loop that collapses runs ends, and what it leaves is
what a single pass makes of the text.  The shortened text has no run in it and no spelling that is
looked for, so it cannot be shortened further. -/
theorem abbreviate_saturates {options : Options} (h : options.tex = false) (text : Text) :
    (∀ result, Loop (abbreviateConstants options text) result ↔ result = abbreviate options text) ∧
    (∀ result, OnePass (abbreviateConstants options text) result ↔
      result = abbreviate options text) ∧
    ¬ runText 2 <:+: abbreviate options text ∧
    (∀ spelling ∈ sought options, ¬ spelling <:+: abbreviate options text) ∧
    abbreviate options (abbreviate options text) = abbreviate options text := by
  have eq := abbreviate_of_not_tex h text
  have no_run : ¬ runText 2 <:+: abbreviate options text := by
    rw [eq]
    exact no_run_collapseRuns _
  have no_spelling : ∀ spelling ∈ sought options, ¬ spelling <:+: abbreviate options text := by
    intro spelling mem occurs
    rw [eq] at occurs
    exact not_infix_abbreviateConstants options text spelling mem
      ((spellingLike_of_mem_sought mem).infix_of_infix_collapseRuns occurs)
  have again := abbreviate_of_not_infix h no_run no_spelling
  refine ⟨?_, ?_, no_run, no_spelling, again⟩
  · rw [eq]
    exact loop_iff _
  · rw [eq]
    exact onePass_iff _

/-- A run that comes about by abbreviating ones, and one behind a digit. -/
theorem abbreviate_saturates_abbreviated :
    let text := "亞(亞(0)+1+1)+11+1".toList
    let result := abbreviate Options.abbreviated text
    Options.abbreviated.tex = false ∧
      Loop (abbreviateConstants Options.abbreviated text) result ∧
      OnePass (abbreviateConstants Options.abbreviated text) result ∧
      ¬ runText 2 <:+: result ∧
      (∀ spelling ∈ sought Options.abbreviated, ¬ spelling <:+: result) ∧
      abbreviate Options.abbreviated result = result := by
  obtain ⟨loop, pass, saturated⟩ :=
    @abbreviate_saturates Options.abbreviated rfl "亞(亞(0)+1+1)+11+1".toList
  exact ⟨rfl, (loop _).2 rfl, (pass _).2 rfl, saturated⟩

end Collapsing.Display
