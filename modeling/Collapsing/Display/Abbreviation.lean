import Collapsing.Display.Writer

/-!
# Abbreviations

The full text of a term is shortened without looking at the term again:

1. each spelling of `亞(0,0)` becomes `1`;
2. if the flags ask for it, each spelling of `亞(0,1)` becomes `ω` and each spelling of
   `亞(1,0)` becomes `Ω`;
3. if the flags ask for it, the letters of the notation become TeX commands;
4. each run `1+1+…+1` becomes the number of its ones, the leftmost run first, until no run is
   left.

The last step ends because a run of `n` ones takes `2n - 1` characters and its number at most
`n`.

## Main statements

- `collapseRuns_of_firstRun?`, `collapseRuns_of_no_run`: the two steps of collapsing runs;
- `length_decimal_le`: a positive number has at most as many digits as its value.
-/

namespace Collapsing.Display

/-! ## §1 Constants -/

/-- The spellings of `亞(0,b)` with a one-letter argument, in the order in which they are
looked for. -/
def zeroSubSpellings (arg : Text) : List Text :=
  [oneOperand arg, withSubscript (braced ['0']) arg, withSubscript ['0'] arg,
   twoOperands ['0'] arg]

/-- The spellings of `1`. -/
def oneSpellings : List Text := zeroSubSpellings ['0']

/-- The spellings of `ω`, once ones have been abbreviated. -/
def omegaSpellings : List Text := zeroSubSpellings ['1']

/-- The spellings of `Ω`, once ones have been abbreviated. -/
def bigOmegaSpellings : List Text :=
  [withSubscript (braced ['1']) ['0'], withSubscript ['1'] ['0'], twoOperands ['1'] ['0']]

/-- The text with all the spellings replaced by one letter, one spelling after another. -/
def replaceSpellings (spellings : List Text) (letter : Char) (text : Text) : Text :=
  spellings.foldl (fun text spelling => Text.replaceAll spelling [letter] text) text

/-- The text with the constants abbreviated. -/
def abbreviateConstants (options : Options) (text : Text) : Text :=
  let ones := replaceSpellings oneSpellings '1' text
  let omegas := if options.omega then replaceSpellings omegaSpellings 'ω' ones else ones
  if options.bigOmega then replaceSpellings bigOmegaSpellings 'Ω' omegas else omegas

/-! ## §2 TeX -/

/-- A letter of the notation as a TeX command; other characters stand for themselves. -/
def texCommand : Char → Text
  | '亞' => ['\\', 't', 'e', 'x', 't', 'r', 'm', '\x7b', '亞', '\x7d']
  | 'ω' => ['\\', 'o', 'm', 'e', 'g', 'a']
  | 'Ω' => ['\\', 'O', 'm', 'e', 'g', 'a']
  | c => [c]

/-- The text with the letters of the notation as TeX commands. -/
def toTex (text : Text) : Text := text.flatMap texCommand

/-! ## §3 Runs of ones -/

/-- How often `+1` is repeated at the front of a text, and what comes after. -/
def plusOnes : Text → Nat × Text
  | '+' :: '1' :: rest =>
    match plusOnes rest with
    | (n, after) => (n + 1, after)
  | text => (0, text)

/-- A run `1+1+…+1` of at least two ones within a text. -/
structure Run where
  before : Text
  ones : Nat
  after : Text
  deriving DecidableEq, Repr

/-- The leftmost run of ones, as long as possible.  `before` holds the text in front of the
place where the search goes on, reversed. -/
def findRun (before : Text) : Text → Option Run
  | [] => none
  | c :: rest =>
    if c = '1' then
      match plusOnes rest with
      | (0, _) => findRun (c :: before) rest
      | (n + 1, after) => some ⟨before.reverse, n + 2, after⟩
    else findRun (c :: before) rest

/-- The leftmost run of ones in a text, as long as possible. -/
def firstRun? (text : Text) : Option Run := findRun [] text

/-- The text with its run replaced by the number of ones. -/
def Run.collapse (run : Run) : Text := run.before ++ Text.decimal run.ones ++ run.after

theorem length_plusOnes (text : Text) :
    2 * (plusOnes text).1 + (plusOnes text).2.length = text.length := by
  fun_induction plusOnes text with
  | case1 rest n after pair ih =>
    rw [pair] at ih
    simp only [List.length_cons] at ih ⊢
    omega
  | case2 => simp

/-- A run of `n` ones takes `2n - 1` characters of the text. -/
theorem length_of_findRun {before text : Text} {run : Run} (h : findRun before text = some run) :
    2 ≤ run.ones ∧
      run.before.length + (2 * run.ones - 1) + run.after.length = before.length + text.length := by
  induction text generalizing before with
  | nil => cases h
  | cons c rest ih =>
    -- Where no run begins, the search goes on behind the character.
    have skip (h : findRun (c :: before) rest = some run) :
        2 ≤ run.ones ∧ run.before.length + (2 * run.ones - 1) + run.after.length =
          before.length + (c :: rest).length := by
      have := ih h
      simp only [List.length_cons] at this ⊢
      omega
    have count := length_plusOnes rest
    simp only [findRun] at h
    split at h
    · split at h
      · exact skip h
      · rename_i n after pair
        cases h
        rw [pair] at count
        simp only [List.length_reverse, List.length_cons] at count ⊢
        omega
    · exact skip h

/-- A positive number has at most as many digits as its value. -/
theorem length_decimal_le {n : Nat} (h : 0 < n) : (Text.decimal n).length ≤ n :=
  (Nat.length_toDigits_le_iff (by decide) h).2 (Nat.lt_pow_self (by decide))

theorem length_collapse_lt {text : Text} {run : Run} (h : firstRun? text = some run) :
    run.collapse.length < text.length := by
  obtain ⟨two, count⟩ := length_of_findRun h
  have digits := length_decimal_le (n := run.ones) (by omega)
  simp only [Run.collapse, List.length_append, List.length_nil] at count ⊢
  omega

/-- The text with its runs of ones replaced by their numbers, from the left, until none is
left. -/
def collapseRuns (text : Text) : Text :=
  match _ : firstRun? text with
  | none => text
  | some run => collapseRuns run.collapse
termination_by text.length
decreasing_by exact length_collapse_lt ‹_›

theorem collapseRuns_of_no_run {text : Text} (h : firstRun? text = none) :
    collapseRuns text = text := by
  rw [collapseRuns]
  split
  · rfl
  · simp_all

theorem collapseRuns_of_firstRun? {text : Text} {run : Run} (h : firstRun? text = some run) :
    collapseRuns text = collapseRuns run.collapse := by
  rw [collapseRuns]
  split <;> simp_all

/-! ## §4 Shortened texts -/

/-- A text, shortened as the flags say. -/
def abbreviate (options : Options) (text : Text) : Text :=
  let constants := abbreviateConstants options text
  collapseRuns (if options.tex then toTex constants else constants)

/-- A shortened text as it is printed: in dollar signs if it is TeX source. -/
def present (options : Options) (text : Text) : Text :=
  if options.tex then '$' :: text ++ ['$'] else text

/-- A term as it is shown. -/
def render (options : Options) (t : Term) : Text := abbreviate options (write options t)

/-- A term as it is printed. -/
def formatOutput (options : Options) (t : Term) : Text := present options (render options t)

end Collapsing.Display
