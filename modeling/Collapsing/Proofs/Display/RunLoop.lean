import Collapsing.Proofs.Display.Runs

/-!
# The loop that collapses runs

Runs of ones are collapsed in a loop.  In each round the leftmost run `1+1+…+1` is searched for, as
long as it goes; then the first place of the text at which the same characters stand is replaced by
the number of ones; and the loop ends when no run is found.  The two searches of a round find the same
place, because whatever stands further to the left and looks like the run begins a run there.

The loop ends for every text, and it comes to the same as a single pass that replaces each run where
it meets it.

## Main statements

- `firstRun?_eq_some_iff`, `firstRun?_eq_none_iff`: the search for a run;
- `collapseFirst_eq`: a round of the loop;
- `loop_iff`, `onePass_iff`: the loop and the single pass.
-/

namespace Collapsing

/-! ## §1 Replacing the first occurrence -/

namespace Text

/-- The text with the first occurrence of `old`, if there is one, replaced by `new`. -/
def replaceFirst (old new : Text) : Text → Text
  | [] => []
  | c :: rest =>
    if old.isPrefixOf (c :: rest) then new ++ (c :: rest).drop old.length
    else c :: replaceFirst old new rest

/-- An occurrence is replaced if none begins further to the left. -/
theorem replaceFirst_append {old before after : Text} (new : Text) (nonempty : old ≠ [])
    (first : ∀ before' after', before ++ (old ++ after) = before' ++ (old ++ after') →
      before.length ≤ before'.length) :
    replaceFirst old new (before ++ (old ++ after)) = before ++ (new ++ after) := by
  induction before with
  | nil =>
    obtain ⟨c, rest, eq⟩ := List.exists_cons_of_ne_nil (List.append_ne_nil_of_left_ne_nil nonempty after)
    have here : old.isPrefixOf (c :: rest) = true := by
      rw [List.isPrefixOf_iff_prefix, ← eq]
      exact List.prefix_append old after
    rw [List.nil_append, List.nil_append, eq, replaceFirst, if_pos here, ← eq, List.drop_left]
  | cons c before ih =>
    have not_here : ¬ old.isPrefixOf (c :: (before ++ (old ++ after))) = true := by
      rw [List.isPrefixOf_iff_prefix]
      rintro ⟨after', eq⟩
      have left := first [] after' eq.symm
      simp at left
    rw [List.cons_append, replaceFirst, if_neg not_here, ih]
    · rfl
    · intro before' after' eq
      have left := first (c :: before') after' (congrArg (c :: ·) eq)
      simpa using left

end Text

namespace Display

/-! ## §2 Runs -/

/-- The run `1+1+…+1` with the given number of ones. -/
def runText : (ones : Nat) → Text
  | 0 => []
  | 1 => ['1']
  | ones + 2 => '1' :: '+' :: runText (ones + 1)

theorem exists_runText_succ (ones : Nat) : ∃ rest, runText (ones + 1) = '1' :: rest := by
  cases ones <;> exact ⟨_, rfl⟩

theorem count_runText (ones : Nat) : (runText ones).count '1' = ones := by
  fun_induction runText ones with
  | case1 => rfl
  | case2 => rfl
  | case3 ones ih => simp [ih]

/-- A run of several ones begins with `1+1`. -/
theorem runText_two_prefix {ones : Nat} (several : 2 ≤ ones) : runText 2 <+: runText ones := by
  obtain ⟨ones, rfl⟩ := Nat.exists_eq_add_of_le' several
  obtain ⟨rest, eq⟩ := exists_runText_succ ones
  have whole : runText (ones + 2) = '1' :: '+' :: runText (ones + 1) := rfl
  rw [whole, eq]
  exact ⟨rest, rfl⟩

theorem plusOnes_eq_zero_iff_not_prefix (text : Text) :
    (plusOnes text).1 = 0 ↔ ¬ ['+', '1'] <+: text := by
  rw [plusOnes_eq_zero_iff]
  constructor
  · rintro h ⟨rest, rfl⟩
    exact h rest rfl
  · rintro h rest rfl
    exact h ⟨rest, rfl⟩

/-- A run begins at a one that `+1` follows. -/
theorem runText_two_prefix_cons_iff (c : Char) (rest : Text) :
    runText 2 <+: c :: rest ↔ c = '1' ∧ (plusOnes rest).1 ≠ 0 := by
  rw [ne_eq, plusOnes_eq_zero_iff_not_prefix, Decidable.not_not, runText, List.cons_prefix_cons,
    eq_comm]
  rfl

/-- A one and the ones that follow it are a run. -/
theorem one_cons_eq_runText (text : Text) :
    '1' :: text = runText ((plusOnes text).1 + 1) ++ (plusOnes text).2 := by
  fun_induction plusOnes text with
  | case1 rest n after pair ih =>
    rw [pair] at ih
    rw [runText, List.cons_append, List.cons_append, ← ih]
  | case2 => rfl

/-- The ones that follow a one are those of the run, if the run goes on no further. -/
theorem plusOnes_of_one_cons {text after : Text} {n : Nat}
    (h : '1' :: text = runText (n + 1) ++ after) (longest : ¬ ['+', '1'] <+: after) :
    plusOnes text = (n, after) := by
  induction n generalizing text with
  | zero =>
    cases h
    rw [← plusOnes_eq_zero_iff_not_prefix, plusOnes_eq_zero_iff] at longest
    exact plusOnes.eq_2 _ longest
  | succ n ih =>
    obtain ⟨rest, eq⟩ := exists_runText_succ n
    rw [runText, List.cons_append, List.cons_append, eq] at h
    cases h
    rw [List.cons_append, plusOnes, ih (by rw [eq, List.cons_append])]

/-! ## §3 The search for a run -/

/-- What a search for a run finds: no run begins further to the left, and the run is as long as
possible. -/
structure IsFirstRun (text : Text) (run : Run) : Prop where
  text_eq : text = run.before ++ (runText run.ones ++ run.after)
  several : 2 ≤ run.ones
  leftmost : ∀ before after, text = before ++ (runText 2 ++ after) →
    run.before.length ≤ before.length
  longest : ¬ ['+', '1'] <+: run.after

theorem findRun_eq_none_iff (before text : Text) :
    findRun before text = none ↔ ¬ runText 2 <:+: text := by
  induction text generalizing before with
  | nil => simp [findRun, runText]
  | cons c rest ih =>
    rw [List.infix_cons_iff, runText_two_prefix_cons_iff, not_or, findRun]
    split
    · split
      · rename_i one _ after pair
        simp [pair, ih]
      · rename_i one _ n after pair
        simp [one, pair]
    · rename_i other
      simp [other, ih]

theorem firstRun?_eq_none_iff (text : Text) : firstRun? text = none ↔ ¬ runText 2 <:+: text :=
  findRun_eq_none_iff [] text

/-- The search does not go past a place where a run begins. -/
theorem length_before_le_of_findRun {before text : Text} {run : Run}
    (h : findRun before text = some run) {before' after' : Text}
    (occurs : text = before' ++ (runText 2 ++ after')) :
    run.before.length ≤ before.length + before'.length := by
  induction text generalizing before before' with
  | nil => cases h
  | cons c rest ih =>
    -- Where no run begins, the occurrence is further to the right, and the search goes on.
    have skip (no_run : ¬ runText 2 <+: c :: rest) (h : findRun (c :: before) rest = some run) :
        run.before.length ≤ before.length + before'.length := by
      cases before' with
      | nil => exact absurd ⟨after', occurs.symm⟩ no_run
      | cons d before' =>
        cases occurs
        have bound := ih h rfl
        simp only [List.length_cons] at bound ⊢
        omega
    rw [runText_two_prefix_cons_iff] at skip
    rw [findRun] at h
    split at h
    · split at h
      · rename_i pair
        exact skip (by simp [pair]) h
      · cases h
        simp
    · rename_i other
      exact skip (by simp [other]) h

theorem isFirstRun_of_firstRun? {text : Text} {run : Run} (h : firstRun? text = some run) :
    IsFirstRun text run := by
  obtain ⟨skipped, rest, n, eq_text, eq_before, found, ones, _⟩ := exists_of_findRun h
  rw [List.reverse_nil, List.nil_append] at eq_before
  refine ⟨?_, by omega, ?_, ?_⟩
  · rw [eq_text, one_cons_eq_runText, found, eq_before, ones]
  · intro before after occurs
    simpa using length_before_le_of_findRun h occurs
  · have maximal := plusOnes_after rest
    rwa [found, plusOnes_eq_zero_iff_not_prefix] at maximal

/-- The run that is found, as a one and the ones that follow it. -/
theorem IsFirstRun.exists_plusOnes {text : Text} {run : Run} (h : IsFirstRun text run) :
    ∃ rest n, text = run.before ++ '1' :: rest ∧ plusOnes rest = (n + 1, run.after) ∧
      run.ones = n + 2 := by
  obtain ⟨n, ones⟩ := Nat.exists_eq_add_of_le' h.several
  obtain ⟨rest, eq⟩ := exists_runText_succ (n + 1)
  have eq_text := h.text_eq
  rw [ones, eq] at eq_text
  refine ⟨rest ++ run.after, n, eq_text, ?_, ones⟩
  exact plusOnes_of_one_cons (by rw [eq, List.cons_append]) h.longest

theorem IsFirstRun.exists_occurrence {text : Text} {run : Run} (h : IsFirstRun text run) :
    ∃ after, text = run.before ++ (runText 2 ++ after) := by
  obtain ⟨more, eq⟩ := runText_two_prefix h.several
  refine ⟨more ++ run.after, ?_⟩
  rw [← List.append_assoc (runText 2), eq]
  exact h.text_eq

/-- A text has one first run at most. -/
theorem IsFirstRun.unique {text : Text} {run run' : Run} (h : IsFirstRun text run)
    (h' : IsFirstRun text run') : run = run' := by
  -- Neither begins to the right of the other, and what follows the first one decides the rest.
  obtain ⟨rest, n, eq_text, found, ones⟩ := h.exists_plusOnes
  obtain ⟨rest', n', eq_text', found', ones'⟩ := h'.exists_plusOnes
  obtain ⟨after, occurs⟩ := h.exists_occurrence
  obtain ⟨after', occurs'⟩ := h'.exists_occurrence
  have same_length : run.before.length = run'.before.length :=
    Nat.le_antisymm (h.leftmost _ after' occurs') (h'.leftmost _ after occurs)
  obtain ⟨same_before, same_rest⟩ := List.append_inj (eq_text.symm.trans eq_text') same_length
  cases same_rest
  rw [found] at found'
  cases run
  cases run'
  simp_all

/-- **The search for a run** finds the first run, and nothing if there is none. -/
theorem firstRun?_eq_some_iff (text : Text) (run : Run) :
    firstRun? text = some run ↔ IsFirstRun text run := by
  refine ⟨isFirstRun_of_firstRun?, fun h => ?_⟩
  cases found : firstRun? text with
  | none =>
    obtain ⟨after, occurs⟩ := h.exists_occurrence
    have no_run := (firstRun?_eq_none_iff text).1 found
    exact absurd ⟨run.before, after, by rw [List.append_assoc, ← occurs]⟩ no_run
  | some run' => rw [(isFirstRun_of_firstRun? found).unique h]

/-! ## §4 The loop -/

/-- One round: the first place at which the characters of the run stand is replaced by the number of
its ones. -/
def collapseFirst (run : Run) (text : Text) : Text :=
  Text.replaceFirst (runText run.ones) (Text.decimal ((runText run.ones).count '1')) text

/-- What the loop makes of a text. -/
inductive Loop : Text → Text → Prop where
  /-- No run is found, and the loop ends. -/
  | done {text : Text} (no_run : ¬ runText 2 <:+: text) : Loop text text
  /-- A run is found, and there is another round. -/
  | round {text result : Text} {run : Run} (found : IsFirstRun text run)
      (next : Loop (collapseFirst run text) result) : Loop text result

/-- What a round replaces is the run that has been found. -/
theorem collapseFirst_eq {text : Text} {run : Run} (h : IsFirstRun text run) :
    collapseFirst run text = run.collapse := by
  obtain ⟨more, eq⟩ := runText_two_prefix h.several
  have nonempty : runText run.ones ≠ [] := by
    rw [← eq]
    exact List.cons_ne_nil _ _
  have first (before' after' : Text)
      (occurs : run.before ++ (runText run.ones ++ run.after) =
        before' ++ (runText run.ones ++ after')) : run.before.length ≤ before'.length := by
    -- The same characters further to the left would be a run there.
    rw [← h.text_eq, ← eq, List.append_assoc (runText 2)] at occurs
    exact h.leftmost before' _ occurs
  rw [collapseFirst, count_runText, h.text_eq, Text.replaceFirst_append _ nonempty first,
    Run.collapse, List.append_assoc]

/-- **The loop ends**, for every text, with its runs collapsed. -/
theorem loop_iff (text result : Text) : Loop text result ↔ result = collapseRuns text := by
  constructor
  · intro loop
    induction loop with
    | done no_run => rw [collapseRuns_of_no_run ((firstRun?_eq_none_iff _).2 no_run)]
    | round found _ ih =>
      rw [ih, collapseFirst_eq found,
        collapseRuns_of_firstRun? ((firstRun?_eq_some_iff _ _).2 found)]
  · rintro rfl
    fun_induction collapseRuns text with
    | case1 text none => exact .done ((firstRun?_eq_none_iff text).1 none)
    | case2 text run found ih =>
      have first := isFirstRun_of_firstRun? found
      refine .round first ?_
      rw [collapseFirst_eq first]
      exact ih

theorem no_run_collapseRuns (text : Text) : ¬ runText 2 <:+: collapseRuns text := by
  fun_induction collapseRuns text with
  | case1 text none => exact (firstRun?_eq_none_iff text).1 none
  | case2 text run found ih => exact ih

/-! ## §5 The single pass -/

/-- What a single pass from left to right makes of a text, if it replaces each run that it meets, as
long as the run goes, by the number of its ones. -/
inductive OnePass : Text → Text → Prop where
  | nil : OnePass [] []
  /-- A character at which no run begins is kept. -/
  | kept {c : Char} {rest result : Text} (no_run : ¬ runText 2 <+: c :: rest)
      (pass : OnePass rest result) : OnePass (c :: rest) (c :: result)
  /-- The pass goes on behind a run. -/
  | counted {ones : Nat} {after result : Text} (several : 2 ≤ ones)
      (longest : ¬ ['+', '1'] <+: after) (pass : OnePass after result) :
      OnePass (runText ones ++ after) (Text.decimal ones ++ result)

theorem onePass_iff (text result : Text) : OnePass text result ↔ result = collapseRuns text := by
  rw [collapseRuns_eq_countRuns]
  constructor
  · intro pass
    induction pass with
    | nil => rw [countRuns]
    | @kept c rest result no_run _ ih =>
      rw [runText_two_prefix_cons_iff, not_and, Decidable.not_not] at no_run
      by_cases one : c = '1'
      · rw [one, countRuns_one_of_no_run (no_run one), ih]
      · rw [countRuns_cons_of_ne one, ih]
    | @counted ones after result several longest _ ih =>
      -- The run is the one that counting finds, because it goes on no further.
      obtain ⟨n, rfl⟩ := Nat.exists_eq_add_of_le' several
      obtain ⟨rest, eq⟩ := exists_runText_succ (n + 1)
      have run : plusOnes (rest ++ after) = (n + 1, after) :=
        plusOnes_of_one_cons (by rw [eq, List.cons_append]) longest
      rw [eq, List.cons_append, countRuns_one_of_run run, ih]
  · rintro rfl
    fun_induction countRuns text with
    | case1 => exact .nil
    | case2 rest after run ih =>
      refine .kept ?_ ih
      rw [runText_two_prefix_cons_iff, run]
      simp
    | case3 rest n after run ih =>
      have maximal := plusOnes_after rest
      rw [run, plusOnes_eq_zero_iff_not_prefix] at maximal
      rw [one_cons_eq_runText, run]
      exact .counted (by omega) maximal ih
    | case4 c rest other ih =>
      refine .kept ?_ ih
      rw [runText_two_prefix_cons_iff]
      exact fun both => other both.1

end Display

end Collapsing
