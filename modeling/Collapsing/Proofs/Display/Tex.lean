import Collapsing.Proofs.Display.Runs

/-!
# TeX source

The letters of the notation become TeX commands before runs of ones are collapsed.  The two steps do
not touch each other, in any text: a command has no `1` in it and begins with no `+`, so it neither
belongs to a run nor joins two ones to a run; and a number has no letter in it.  So a shortened text
may just as well be turned into TeX source at the end.

## Main statements

- `plusOnes_toTex`: the ones that follow a one are the same in TeX source;
- `collapseRuns_toTex`: collapsing runs and writing commands may change places;
- `abbreviate_eq_markup`: TeX commands may be left to the end.
-/

namespace Collapsing.Display

/-! ## §1 Commands -/

@[simp] theorem toTex_nil : toTex [] = [] := rfl

theorem toTex_cons (c : Char) (rest : Text) : toTex (c :: rest) = texCommand c ++ toTex rest :=
  List.flatMap_cons

theorem toTex_append (s t : Text) : toTex (s ++ t) = toTex s ++ toTex t :=
  List.flatMap_append

theorem texCommand_eq_or (c : Char) :
    texCommand c = [c] ∨ ∃ command, texCommand c = '\\' :: command := by
  unfold texCommand
  split
  · exact .inr ⟨_, rfl⟩
  · exact .inr ⟨_, rfl⟩
  · exact .inr ⟨_, rfl⟩
  · exact .inl rfl

theorem texCommand_of_isDigit {c : Char} (h : c.isDigit = true) : texCommand c = [c] := by
  unfold texCommand
  split
  · cases h
  · cases h
  · cases h
  · rfl

theorem one_notMem_texCommand {c : Char} (h : c ≠ '1') : '1' ∉ texCommand c := by
  unfold texCommand
  split
  · decide
  · decide
  · decide
  · rw [List.mem_singleton]
    exact h.symm

theorem toTex_cons_of_plain {c : Char} (h : texCommand c = [c]) (rest : Text) :
    toTex (c :: rest) = c :: toTex rest := by
  rw [toTex_cons, h, List.singleton_append]

/-- Digits stand for themselves. -/
theorem toTex_digits {text : Text} (digit : ∀ c ∈ text, c.isDigit = true) : toTex text = text := by
  induction text with
  | nil => rfl
  | cons c rest ih =>
    obtain ⟨first, others⟩ := List.forall_mem_cons.1 digit
    rw [toTex_cons_of_plain (texCommand_of_isDigit first), ih others]

theorem toTex_decimal (n : Nat) : toTex (Text.decimal n) = Text.decimal n :=
  toTex_digits fun _ mem => isDigit_of_mem_decimal mem

/-- What TeX source begins with, if it is no command, is what the text begins with. -/
theorem exists_of_toTex_eq_cons {text after : Text} {d : Char} (ne : d ≠ '\\')
    (h : toTex text = d :: after) : ∃ rest, text = d :: rest ∧ toTex rest = after := by
  cases text with
  | nil => cases h
  | cons c rest =>
    rw [toTex_cons] at h
    rcases texCommand_eq_or c with plain | ⟨command, eq⟩
    · rw [plain] at h
      cases h
      exact ⟨rest, rfl, rfl⟩
    · rw [eq] at h
      cases h
      exact absurd rfl ne

/-! ## §2 Runs in TeX source -/

theorem plusOnes_toTex (text : Text) :
    plusOnes (toTex text) = ((plusOnes text).1, toTex (plusOnes text).2) := by
  fun_induction plusOnes text with
  | case1 rest n after pair ih =>
    rw [pair] at ih
    rw [toTex_cons_of_plain rfl, toTex_cons_of_plain rfl, plusOnes, ih]
  | case2 text no_one =>
    apply plusOnes.eq_2
    intro after eq
    obtain ⟨tail, rfl, eq_tail⟩ := exists_of_toTex_eq_cons (by decide) eq
    obtain ⟨rest, rfl, _⟩ := exists_of_toTex_eq_cons (by decide) eq_tail
    exact no_one rest rfl

theorem countRuns_append_of_no_one {skipped : Text} (h : '1' ∉ skipped) (rest : Text) :
    countRuns (skipped ++ rest) = skipped ++ countRuns rest := by
  induction skipped with
  | nil => rfl
  | cons c skipped ih =>
    have ne : c ≠ '1' := fun eq => h (eq ▸ List.mem_cons_self)
    have others : '1' ∉ skipped := fun mem => h (List.mem_cons_of_mem c mem)
    rw [List.cons_append, countRuns_cons_of_ne ne, ih others, List.cons_append]

theorem countRuns_toTex (text : Text) : countRuns (toTex text) = toTex (countRuns text) := by
  fun_induction countRuns text with
  | case1 => rw [toTex_nil, countRuns]
  | case2 rest after run ih =>
    have no_run : (plusOnes (toTex rest)).1 = 0 := by rw [plusOnes_toTex, run]
    rw [toTex_cons_of_plain rfl, countRuns_one_of_no_run no_run, ih, toTex_cons_of_plain rfl]
  | case3 rest n after run ih =>
    have same_run : plusOnes (toTex rest) = (n + 1, toTex after) := by rw [plusOnes_toTex, run]
    rw [toTex_cons_of_plain rfl, countRuns_one_of_run same_run, ih, toTex_append, toTex_decimal]
  | case4 c rest other ih =>
    rw [toTex_cons, countRuns_append_of_no_one (one_notMem_texCommand other), ih, toTex_cons]

/-- **TeX source last**: it makes no difference whether runs of ones are collapsed before or after
the letters have become commands. -/
theorem collapseRuns_toTex (text : Text) : collapseRuns (toTex text) = toTex (collapseRuns text) := by
  rw [collapseRuns_eq_countRuns, collapseRuns_eq_countRuns, countRuns_toTex]

/-! ## §3 TeX source as the flags ask for it -/

/-- The text, as TeX source if the flags ask for it. -/
def markup (options : Options) (text : Text) : Text := if options.tex then toTex text else text

theorem markup_append (options : Options) (s t : Text) :
    markup options (s ++ t) = markup options s ++ markup options t := by
  unfold markup
  split
  · exact toTex_append s t
  · rfl

theorem markup_cons_of_plain (options : Options) {c : Char} (h : texCommand c = [c]) (rest : Text) :
    markup options (c :: rest) = c :: markup options rest := by
  unfold markup
  split
  · exact toTex_cons_of_plain h rest
  · rfl

theorem markup_digits (options : Options) {text : Text} (digit : ∀ c ∈ text, c.isDigit = true) :
    markup options text = text := by
  unfold markup
  split
  · exact toTex_digits digit
  · rfl

@[simp] theorem markup_nil (options : Options) : markup options [] = [] :=
  markup_digits options (by simp)

/-- Shortening a text, with the commands put in at the end. -/
theorem abbreviate_eq_markup (options : Options) (text : Text) :
    abbreviate options text = markup options (collapseRuns (abbreviateConstants options text)) := by
  rw [abbreviate, markup]
  split
  · exact collapseRuns_toTex _
  · rfl

end Collapsing.Display
