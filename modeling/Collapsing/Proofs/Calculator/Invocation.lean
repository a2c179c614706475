import Collapsing.Calculator.CommandLine
import Mathlib.Data.List.Basic

/-!
# Command lines with display switches

A command line that asks for a calculation has three operands: an operation, `A` and `B`.  Switches
for the display flags may stand before and after them.  Such a command line is always understood,
and the operands arrive as they were given, as long as `A` and `B` do not begin with a hyphen.  Even
an empty operand arrives.

The argument follows the command line through its two stages: each text is classified, and then the
arguments are interpreted from left to right, first the switches in front, then the run of operands,
and then the switches behind.

## Main statements

- `arguments_switches`, `interpret_switches`: a row of switches in the two stages;
- `interpret_operands`: a run of three operands;
- `parse_request`: the invocation that such a command line stands for.
-/

namespace Collapsing

/-! ## §1 Flags put on one by one -/

/-- The options with the given flags put on. -/
def Options.putOn (options : Options) (flags : List Flag) : Options :=
  flags.foldl (fun options flag => options.set flag true) options

theorem Options.isOn_putOn (options : Options) (flags : List Flag) (flag : Flag) :
    (options.putOn flags).isOn flag = (decide (flag ∈ flags) || options.isOn flag) := by
  induction flags generalizing options with
  | nil => rfl
  | cons first flags ih =>
    rw [putOn, List.foldl_cons, ← putOn, ih, isOn_set]
    by_cases h : flag = first <;> simp [h]

namespace CommandLine

/-! ## §2 Switches -/

/-- The switches that put the given flags on. -/
def switches (flags : List Flag) : List Text :=
  flags.map fun flag => (LongOption.flag flag).spelling.toList

/-- The arguments that the switches are. -/
def switchArguments (flags : List Flag) : List Argument :=
  flags.map fun flag => .option (.flag flag)

theorem arguments_cons {text : Text} {argument : Argument} {texts : List Text}
    {others : List Argument} (kind : classify text = some argument) (h : text ≠ ['-', '-'])
    (rest : arguments texts = some others) :
    arguments (text :: texts) = some (argument :: others) := by
  rw [arguments, kind, rest]
  · rfl
  · exact h

theorem arguments_switches (flags : List Flag) {texts : List Text} {others : List Argument}
    (rest : arguments texts = some others) :
    arguments (switches flags ++ texts) = some (switchArguments flags ++ others) := by
  induction flags with
  | nil => exact rest
  | cons flag flags ih =>
    -- A switch that is written out belongs to one option only.
    have kind : classify (LongOption.flag flag).spelling.toList = some (.option (.flag flag)) := by
      cases flag <;> rfl
    exact arguments_cons kind (by cases flag <;> decide) ih

/-- A text that does not begin with a hyphen is an operand, also if it is empty. -/
theorem arguments_operand {text : Text} {texts : List Text} {others : List Argument}
    (hyphen : text.head? ≠ some '-') (rest : arguments texts = some others) :
    arguments (text :: texts) = some (.operand text :: others) := by
  have kind : classify text = some (.operand text) := by
    cases text with
    | nil => rfl
    | cons c text => exact classify_operand text fun eq => hyphen (by rw [eq, List.head?_cons])
  refine arguments_cons kind ?_ rest
  rintro rfl
  exact hyphen rfl

/-! ## §3 Interpretation -/

theorem interpret_switches (progress : Progress) (flags : List Flag) (rest : List Argument) :
    interpret progress (switchArguments flags ++ rest) =
      interpret { progress with
        invocation := { progress.invocation with
          options := progress.invocation.options.putOn flags } } rest := by
  induction flags generalizing progress with
  | nil => rfl
  | cons flag flags ih =>
    rw [switchArguments, List.map_cons, List.cons_append, interpret, ← switchArguments, ih]
    · rfl
    · -- A display flag is no request for help.
      intro h
      cases h

/-- An operand fills the next place if no separator stands beside it. -/
theorem takePlace_operand {text : Text} (hyphen : text.head? ≠ some '-') (run : List Argument)
    (beside : run.head? ≠ some .separator) :
    takePlace (.operand text :: run) = (some text, run) := by
  have same : run.dropWhile (· = .separator) = run := by
    cases run with
    | nil => rfl
    | cons argument run =>
      exact List.dropWhile_cons_of_neg fun eq => beside (by simpa using eq)
  have given : text ≠ ['-', '-'] := by
    rintro rfl
    exact hyphen rfl
  simp [takePlace, same, given]

/-- A run of operands ends where a row of switches begins. -/
theorem takeWhile_switchArguments (flags : List Flag) :
    (switchArguments flags).takeWhile Argument.isPositional = [] := by
  cases flags <;> rfl

theorem dropWhile_switchArguments (flags : List Flag) :
    (switchArguments flags).dropWhile Argument.isPositional = switchArguments flags := by
  cases flags <;> rfl

section Operands

variable {word a b : Text} {verb : Verb} (known : Verb.ofWord? (String.ofList word) = some verb)
  (hyphen : word.head? ≠ some '-') (hyphenA : a.head? ≠ some '-') (hyphenB : b.head? ≠ some '-')

include known hyphen hyphenA hyphenB

theorem distribute_operands {progress : Progress} (first : progress.distributed = false) :
    progress.distribute [.operand word, .operand a, .operand b] =
      some ⟨{ progress.invocation with verb, a, b }, true, progress.surplus⟩ := by
  simp only [Progress.distribute, first, takePlace_operand hyphen [.operand a, .operand b] nofun,
    takePlace_operand hyphenA [.operand b] nofun, takePlace_operand hyphenB [] nofun, known]
  simp

/-- A run of three operands gives the verb, `A` and `B`. -/
theorem interpret_operands {progress : Progress} (first : progress.distributed = false)
    (flags : List Flag) :
    interpret progress (.operand word :: .operand a :: .operand b :: switchArguments flags) =
      interpret ⟨{ progress.invocation with verb, a, b }, true, progress.surplus⟩
        (switchArguments flags) := by
  have run : (Argument.operand a :: .operand b :: switchArguments flags).takeWhile
      Argument.isPositional = [.operand a, .operand b] := by
    rw [List.takeWhile_cons_of_pos rfl, List.takeWhile_cons_of_pos rfl, takeWhile_switchArguments]
  have others : (Argument.operand a :: .operand b :: switchArguments flags).dropWhile
      Argument.isPositional = switchArguments flags := by
    rw [List.dropWhile_cons_of_pos rfl, List.dropWhile_cons_of_pos rfl, dropWhile_switchArguments]
  rw [interpret, run, others, distribute_operands known hyphen hyphenA hyphenB first]
  -- An operand is no option, of whatever kind.
  all_goals simp

/-! ## §4 Requests -/

/-- **Requests are understood**: the operands of a command line arrive as they were given, and the
options are those of the switches. -/
theorem parse_request (before after : List Flag) :
    parse (switches before ++ [word, a, b] ++ switches after) =
      .ok ⟨some verb, some a, some b, Options.putOn {} (before ++ after)⟩ := by
  have operands : arguments ([word, a, b] ++ switches after) =
      some (.operand word :: .operand a :: .operand b :: switchArguments after) := by
    have behind : arguments (switches after ++ []) = some (switchArguments after ++ []) :=
      arguments_switches after rfl
    rw [List.append_nil, List.append_nil] at behind
    exact arguments_operand hyphen (arguments_operand hyphenA (arguments_operand hyphenB behind))
  have classified := arguments_switches before operands
  rw [← List.append_assoc] at classified
  rw [parse, classified]
  dsimp only
  rw [interpret_switches, interpret_operands known hyphen hyphenA hyphenB rfl,
    ← List.append_nil (switchArguments after), interpret_switches, interpret]
  simp [Options.putOn]

end Operands

end CommandLine

end Collapsing
