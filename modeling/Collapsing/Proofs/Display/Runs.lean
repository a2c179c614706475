import Collapsing.Display.Abbreviation

/-!
# Runs of ones in one pass

The last step of shortening a text replaces the leftmost run `1+1+…+1` by its number and starts
again from the front.  It never has to look back: neither a number nor what stands before it can
form a new run with what follows.  So a single pass from left to right does the same.

## Main statements

- `collapseRuns_eq_countRuns`: repeated search and a single pass agree on every text.
-/

namespace Collapsing.Display

/-! ## §1 The single pass -/

theorem length_after_plusOnes_le (text : Text) : (plusOnes text).2.length ≤ text.length := by
  have count := length_plusOnes text
  omega

/-- The text with each run of ones replaced by its number, in one pass. -/
def countRuns : Text → Text
  | [] => []
  | c :: rest =>
    if c = '1' then
      match _ : plusOnes rest with
      | (0, _) => c :: countRuns rest
      | (n + 1, after) => Text.decimal (n + 2) ++ countRuns after
    else c :: countRuns rest
termination_by text => text.length
decreasing_by
  · simp
  · rename_i run
    have shorter := length_after_plusOnes_le rest
    rw [run] at shorter
    exact Nat.lt_succ_of_le shorter
  · simp

theorem countRuns_cons_of_ne {c : Char} (h : c ≠ '1') (rest : Text) :
    countRuns (c :: rest) = c :: countRuns rest := by
  rw [countRuns, if_neg h]

theorem countRuns_one_of_no_run {rest : Text} (h : (plusOnes rest).1 = 0) :
    countRuns ('1' :: rest) = '1' :: countRuns rest := by
  rw [countRuns, if_pos rfl]
  split
  · rfl
  · simp_all

theorem countRuns_one_of_run {rest after : Text} {n : Nat} (h : plusOnes rest = (n + 1, after)) :
    countRuns ('1' :: rest) = Text.decimal (n + 2) ++ countRuns after := by
  rw [countRuns, if_pos rfl]
  split <;> simp_all

/-! ## §2 Where a run ends -/

theorem plusOnes_eq_zero_iff (text : Text) :
    (plusOnes text).1 = 0 ↔ ∀ rest, text ≠ '+' :: '1' :: rest := by
  fun_cases plusOnes text with
  | case1 rest n after pair => simp
  | case2 _ no_one => simpa using no_one

/-- The ones that follow are all counted. -/
theorem plusOnes_after (text : Text) : (plusOnes (plusOnes text).2).1 = 0 := by
  fun_induction plusOnes text with
  | case1 rest n after pair ih =>
    rw [pair] at ih
    exact ih
  | case2 text no_one =>
    rw [plusOnes_eq_zero_iff]
    exact no_one

/-- A one makes a number with the ones that follow it. -/
theorem countRuns_one (text : Text) :
    countRuns ('1' :: text) =
      Text.decimal ((plusOnes text).1 + 1) ++ countRuns (plusOnes text).2 := by
  cases run : plusOnes text with
  | mk n after =>
    cases n with
    | succ n => exact countRuns_one_of_run run
    | zero =>
      have no_run : (plusOnes text).1 = 0 := by rw [run]
      have whole := plusOnes.eq_2 text ((plusOnes_eq_zero_iff text).1 no_run)
      have digit : Text.decimal 1 = ['1'] := by decide
      rw [whole] at run
      cases run
      rw [countRuns_one_of_no_run no_run, digit, List.cons_append, List.nil_append]

theorem plusOnes_of_head_ne {c : Char} (h : c ≠ '+') (rest : Text) :
    (plusOnes (c :: rest)).1 = 0 := by
  rw [plusOnes_eq_zero_iff]
  rintro rest' ⟨⟩
  exact h rfl

theorem isDigit_of_mem_decimal {n : Nat} {c : Char} (h : c ∈ Text.decimal n) :
    c.isDigit = true :=
  Nat.isDigit_of_mem_toDigits (by decide) (by decide) h

/-- A number that is not followed by `+1` forms no run. -/
theorem countRuns_digits {digits after : Text} (digit : ∀ c ∈ digits, c.isDigit = true)
    (h : (plusOnes after).1 = 0) : countRuns (digits ++ after) = digits ++ countRuns after := by
  induction digits with
  | nil => rfl
  | cons c digits ih =>
    obtain ⟨_, others⟩ := List.forall_mem_cons.1 digit
    rw [List.cons_append, List.cons_append, ← ih others]
    by_cases one : c = '1'
    · subst one
      apply countRuns_one_of_no_run
      cases digits with
      | nil => exact h
      | cons d digits =>
        apply plusOnes_of_head_ne
        rintro rfl
        cases others '+' List.mem_cons_self
    · exact countRuns_cons_of_ne one _

/-! ## §3 The first run -/

theorem countRuns_of_no_run {before text : Text} (h : findRun before text = none) :
    countRuns text = text := by
  induction text generalizing before with
  | nil => rw [countRuns]
  | cons c rest ih =>
    rw [findRun] at h
    split at h
    · rename_i one
      subst one
      split at h
      · rename_i pair
        rw [countRuns_one_of_no_run (by rw [pair]), ih h]
      · cases h
    · rename_i other
      rw [countRuns_cons_of_ne other, ih h]

/-- The pass goes over the text whatever digit comes after it. -/
def IsPassed (skipped : Text) : Prop :=
  ∀ d rest, d.isDigit = true → countRuns (skipped ++ d :: rest) = skipped ++ countRuns (d :: rest)

theorem isPassed_cons_of_ne {c : Char} {skipped : Text} (h : c ≠ '1') (passed : IsPassed skipped) :
    IsPassed (c :: skipped) := by
  intro d rest digit
  rw [List.cons_append, countRuns_cons_of_ne h, passed d rest digit, List.cons_append]

/-- A one is passed over if no `+1` comes after it. -/
theorem isPassed_one {skipped rest : Text} (passed : IsPassed skipped)
    (h : (plusOnes (skipped ++ '1' :: rest)).1 = 0) : IsPassed ('1' :: skipped) := by
  intro d rest' digit
  have no_run : (plusOnes (skipped ++ d :: rest')).1 = 0 := by
    rw [plusOnes_eq_zero_iff] at h ⊢
    intro tail eq
    -- Only the first two characters matter, and the digit is none of them but perhaps the second.
    match skipped with
    | [] =>
      cases eq
      cases digit
    | [c] =>
      cases eq
      exact h rest rfl
    | c :: c' :: skipped =>
      cases eq
      exact h _ rfl
  rw [List.cons_append, countRuns_one_of_no_run no_run, passed d rest' digit, List.cons_append]

/-- What the search finds: a text that is passed over, and behind it a one with `+1` after it. -/
theorem exists_of_findRun {before text : Text} {run : Run} (h : findRun before text = some run) :
    ∃ skipped rest n, text = skipped ++ '1' :: rest ∧ run.before = before.reverse ++ skipped ∧
      plusOnes rest = (n + 1, run.after) ∧ run.ones = n + 2 ∧ IsPassed skipped := by
  induction text generalizing before with
  | nil => cases h
  | cons c rest ih =>
    rw [findRun] at h
    split at h
    · rename_i one
      subst one
      split at h
      · rename_i after pair
        obtain ⟨skipped, rest', n, rfl, eq_before, found, ones, passed⟩ := ih h
        refine ⟨'1' :: skipped, rest', n, rfl, ?_, found, ones, isPassed_one passed (by rw [pair])⟩
        rw [eq_before, List.reverse_cons, List.append_assoc, List.singleton_append]
      · rename_i n after pair
        cases h
        refine ⟨[], rest, n, rfl, ?_, pair, rfl, ?_⟩
        · rw [List.append_nil]
        · intro d rest digit
          rfl
    · rename_i other
      obtain ⟨skipped, rest', n, rfl, eq_before, found, ones, passed⟩ := ih h
      refine ⟨c :: skipped, rest', n, rfl, ?_, found, ones, isPassed_cons_of_ne other passed⟩
      rw [eq_before, List.reverse_cons, List.append_assoc, List.singleton_append]

/-- Replacing the first run does not change what the pass makes of the text. -/
theorem countRuns_collapse {text : Text} {run : Run} (h : firstRun? text = some run) :
    countRuns run.collapse = countRuns text := by
  obtain ⟨skipped, rest, n, rfl, eq_before, found, ones, passed⟩ := exists_of_findRun h
  have maximal : (plusOnes run.after).1 = 0 := by
    have after := plusOnes_after rest
    rwa [found] at after
  have number : countRuns (Text.decimal (n + 2) ++ run.after) =
      Text.decimal (n + 2) ++ countRuns run.after :=
    countRuns_digits (fun _ mem => isDigit_of_mem_decimal mem) maximal
  obtain ⟨d, digits, eq⟩ : ∃ d digits, Text.decimal (n + 2) = d :: digits :=
    List.exists_cons_of_ne_nil Nat.toDigits_ne_nil
  have digit : d.isDigit = true := isDigit_of_mem_decimal (eq ▸ List.mem_cons_self)
  calc countRuns run.collapse
      = countRuns (skipped ++ (Text.decimal (n + 2) ++ run.after)) := by
        rw [Run.collapse, eq_before, ones, List.reverse_nil, List.nil_append, List.append_assoc]
    _ = skipped ++ countRuns (Text.decimal (n + 2) ++ run.after) := by
        rw [eq, List.cons_append, passed d _ digit]
    _ = skipped ++ countRuns ('1' :: rest) := by rw [number, countRuns_one_of_run found]
    _ = countRuns (skipped ++ '1' :: rest) := (passed '1' rest rfl).symm

/-- **Collapsing runs in one pass**: searching again and again for the leftmost run comes to the
same as one pass over the text. -/
theorem collapseRuns_eq_countRuns (text : Text) : collapseRuns text = countRuns text := by
  fun_induction collapseRuns text with
  | case1 text none => exact (countRuns_of_no_run none).symm
  | case2 text run found ih => rw [ih, countRuns_collapse found]

end Collapsing.Display
