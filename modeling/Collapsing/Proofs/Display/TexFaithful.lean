import Collapsing.Proofs.Display.Readable

/-!
# TeX source can be told apart

TeX source cannot be read back, but no two terms have the same.  The text that it is made from is
read back, and so it has no backslash in it; and a text without backslashes can be recovered from its
TeX source, since each command begins with a backslash and no command is the beginning of another.

## Main statements

- `toTex_eq_replaceAll`: writing commands is three replacements, one letter after the other;
- `eq_of_prefix_texCommand`, `toTex_inj`: TeX source determines the text that it is made from;
- `backslash_notMem_printed`: the text of a term has no backslash in it;
- `tex_faithful`: TeX source is made from the text shown without TeX, and determines the term.
-/

namespace Collapsing.Display

open Reader

/-! ## §1 Three replacements -/

/-- Replacing a character does not look at what stands beside it. -/
theorem replaceAll_singleton (c : Char) (new text : Text) :
    Text.replaceAll [c] new text = text.flatMap fun d => if d = c then new else [d] := by
  induction text with
  | nil => rfl
  | cons d rest ih =>
    rw [List.flatMap_cons, ← ih]
    by_cases same : d = c
    · subst same
      rw [if_pos rfl, Text.replaceAll_of_isPrefixOf new (List.cons_ne_nil d []) (by simp)]
      rfl
    · have no_match : ¬ [c] <+: d :: rest := fun occurs =>
        same (List.cons_prefix_cons.1 occurs).1.symm
      rw [if_neg same, replaceAll_cons_of_no_match new no_match, List.singleton_append]

/-- The letters that have commands. -/
theorem letter_of_texCommand_ne {c : Char} (h : texCommand c ≠ [c]) :
    c = '亞' ∨ c = 'ω' ∨ c = 'Ω' := by
  unfold texCommand at h
  split at h
  · exact .inl rfl
  · exact .inr (.inl rfl)
  · exact .inr (.inr rfl)
  · exact absurd rfl h

/-- The commands may be put in for one letter after the other, because none has a letter in it that
is replaced after its own. -/
theorem toTex_eq_replaceAll (text : Text) :
    toTex text =
      Text.replaceAll ['Ω'] "\\Omega".toList (Text.replaceAll ['ω'] "\\omega".toList
        (Text.replaceAll ['亞'] "\\textrm\x7b亞\x7d".toList text)) := by
  simp only [replaceAll_singleton, List.flatMap_assoc, toTex]
  congr 1
  funext c
  by_cases letter : c = '亞' ∨ c = 'ω' ∨ c = 'Ω'
  · rcases letter with rfl | rfl | rfl <;> decide
  · have plain : texCommand c = [c] :=
      Decidable.byContradiction fun command => letter (letter_of_texCommand_ne command)
    rw [not_or, not_or] at letter
    obtain ⟨head, omega, bigOmega⟩ := letter
    simp only [plain, if_neg head, if_neg omega, if_neg bigOmega, List.flatMap_singleton]

/-! ## §2 Recovering a text from its TeX source -/

/-- No command is the beginning of another. -/
theorem eq_of_prefix_texCommand {c d : Char} (hc : texCommand c ≠ [c]) (hd : texCommand d ≠ [d])
    (h : texCommand c <+: texCommand d) : c = d := by
  revert h
  rcases letter_of_texCommand_ne hc with rfl | rfl | rfl <;>
    rcases letter_of_texCommand_ne hd with rfl | rfl | rfl <;> decide

theorem eq_of_texCommand_append {c d : Char} (hc : texCommand c ≠ [c]) (hd : texCommand d ≠ [d])
    {s t : Text} (h : texCommand c ++ s = texCommand d ++ t) : c = d := by
  rcases List.prefix_or_prefix_of_prefix ⟨s, h⟩ (List.prefix_append _ t) with front | front
  · exact eq_of_prefix_texCommand hc hd front
  · exact (eq_of_prefix_texCommand hd hc front).symm

theorem eq_nil_of_toTex_eq_nil {text : Text} (h : toTex text = []) : text = [] := by
  cases text with
  | nil => rfl
  | cons c rest =>
    rw [toTex_cons, List.append_eq_nil_iff] at h
    rcases texCommand_eq_or c with plain | ⟨command, eq⟩
    · simp [plain] at h
    · simp [eq] at h

theorem toTex_inj {s t : Text} (hs : '\\' ∉ s) (ht : '\\' ∉ t) (h : toTex s = toTex t) : s = t := by
  induction s generalizing t with
  | nil => exact (eq_nil_of_toTex_eq_nil h.symm).symm
  | cons c s ih =>
    cases t with
    | nil => exact eq_nil_of_toTex_eq_nil h
    | cons d t =>
      obtain ⟨hc, hs_rest⟩ := List.ne_and_not_mem_of_not_mem_cons hs
      obtain ⟨hd, ht_rest⟩ := List.ne_and_not_mem_of_not_mem_cons ht
      -- It is enough that the first characters are the same.
      have rest (same : c = d) : c :: s = d :: t := by
        subst same
        rw [toTex_cons, toTex_cons, List.append_right_inj] at h
        rw [ih hs_rest ht_rest h]
      apply rest
      by_cases plain_c : texCommand c = [c]
      · rw [toTex_cons_of_plain plain_c] at h
        obtain ⟨_, eq, _⟩ := exists_of_toTex_eq_cons hc.symm h.symm
        exact (List.cons.inj eq).1.symm
      by_cases plain_d : texCommand d = [d]
      · rw [toTex_cons_of_plain plain_d] at h
        obtain ⟨_, eq, _⟩ := exists_of_toTex_eq_cons hd.symm h
        exact (List.cons.inj eq).1
      rw [toTex_cons, toTex_cons] at h
      exact eq_of_texCommand_append plain_c plain_d h

/-! ## §3 Texts that are read have no backslash -/

theorem backslash_notMem_of_splits {text : Text} {tokens : List Token}
    (split : Splits text tokens) : '\\' ∉ text := by
  induction split with
  | nil => exact List.not_mem_nil
  | skipped h _ ih =>
    refine List.not_mem_cons_of_ne_of_not_mem ?_ ih
    rintro rfl
    cases h
  | letter h _ ih =>
    refine List.not_mem_cons_of_ne_of_not_mem ?_ ih
    rintro rfl
    exact absurd (mem_letters h) (by decide)
  | number _ digit _ _ ih =>
    rw [List.mem_append, not_or]
    refine ⟨fun mem => ?_, ih⟩
    cases digit _ mem

theorem backslash_notMem_printed (options : Options) (t : Term) : '\\' ∉ printed options t := by
  obtain ⟨_, split, _⟩ := (read_eq_ok_iff_derivation _ t).1 (reads_printed options t).read
  exact backslash_notMem_of_splits split

/-! ## §4 TeX source of terms -/

theorem formatOutput_of_tex {options : Options} (h : options.tex = true) (t : Term) :
    formatOutput options t = '$' :: (toTex (printed options t) ++ ['$']) := by
  rw [formatOutput, present, if_pos h, render_eq_markup, markup, if_pos h, List.cons_append]

theorem formatOutput_inj_of_tex {options : Options} (h : options.tex = true) {s t : Term}
    (eq : formatOutput options s = formatOutput options t) : s = t := by
  rw [formatOutput_of_tex h, formatOutput_of_tex h, List.cons_inj_right, List.append_left_inj] at eq
  -- The source gives back the text, and the text is read as either term.
  have same : printed options s = printed options t :=
    toTex_inj (backslash_notMem_printed options s) (backslash_notMem_printed options t) eq
  have read_s := (reads_printed options s).read
  rw [same, (reads_printed options t).read] at read_s
  cases read_s
  rfl

/-- **TeX source is faithful**.  For any text and all flags, shortening it to TeX source comes to
shortening it without TeX and putting commands for the letters, one letter after the other; and
whatever the other flags are, terms that are printed with the same TeX source are the same. -/
theorem tex_faithful :
    (∀ (options : Options) (text : Text),
      abbreviate { options with tex := true } text =
        toTex (abbreviate { options with tex := false } text)) ∧
    (∀ text : Text, toTex text =
      Text.replaceAll ['Ω'] "\\Omega".toList (Text.replaceAll ['ω'] "\\omega".toList
        (Text.replaceAll ['亞'] "\\textrm\x7b亞\x7d".toList text))) ∧
    ∀ options : Options, options.tex = true → ∀ s t : Term,
      formatOutput options s = formatOutput options t → s = t := by
  refine ⟨?_, toTex_eq_replaceAll, fun options h s t => formatOutput_inj_of_tex h⟩
  intro options text
  exact collapseRuns_toTex (abbreviateConstants options text)

/-- One sum, put together in two ways. -/
theorem tex_faithful_sums :
    let options : Options := { Options.abbreviated with tex := true }
    options.tex = true ∧
      formatOutput options (.numeral 2 + .omega) = formatOutput options (.one + (.one + .omega)) ∧
      Term.numeral 2 + .omega = Term.one + (.one + .omega) :=
  ⟨rfl, rfl, tex_faithful.2.2 { Options.abbreviated with tex := true } rfl _ _ rfl⟩

end Collapsing.Display
