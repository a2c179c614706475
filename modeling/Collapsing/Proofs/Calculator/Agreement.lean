import Collapsing.Proofs.Calculator.Invocation
import Collapsing.Proofs.Calculator.Limit
import Collapsing.Proofs.Calculator.Line

/-!
# Sessions and command lines agree

The same request can be put as a line `word A ; B` of a session and as a command line with the
operands `word`, `A` and `B`.  Both front ends arrive at the same answer, which is the text of a
result or the wording of a failure, and they differ only in how they show it: a session prints
`Output: ` before the result of a calculation, a command line reports through its exit code.  From
either of the two the answer can be told, so each determines the other.  For a hydra, where a session
prints the result as it is, this needs that no result begins like the wording of a failure.

The answer is the one without a limit of nesting.  Both front ends reach it as long as their limits
are enough.

## Main statements

- `replies_iff`: how a session shows the answer;
- `run_request`: how a command line shows it;
- `not_isErrorText_of_answer`: no result reads like the wording of a failure;
- `session_agrees_with_commandLine`: the two determine each other.
-/

namespace Collapsing

open CommandLine (Verb)

/-! ## §1 Answers -/

/-- The text of a result, or the wording of a failure. -/
abbrev Answer := Except String Text

/-- What is said of the hydra of a term: its outline, or that there is none. -/
def hydraText (t : Term) : Text :=
  match t.rows? with
  | none => Calculator.noHydra.toList
  | some rows => Row.outline rows

namespace CommandLine.Verb

/-- The answer to a request, without a limit. -/
def answer (options : Options) (a b : Text) : Verb → Answer
  | compute operation =>
    ((Request.outcome options ⟨operation, some a, some b⟩).map Success.output).mapError
      Failure.message
  | hydra => ((Reader.read a).map hydraText).mapError ReadError.message

/-- The limit of a calculator is reached by a request. -/
def Exceeds (calculator : Calculator) (a b : Text) : Verb → Prop
  | compute operation =>
    calculator.compute ⟨operation, some a, some b⟩ = .error (.stopped .tooDeep)
  | hydra => ∃ t, Reader.read a = .ok t ∧ Limited.rows? calculator.limit t = .error .tooDeep

/-- What a session prints before a result. -/
def label : Verb → Text
  | compute _ => "Output: ".toList
  | hydra => []

/-- The words for the verbs. -/
def words : List (String × Verb) :=
  [("fund", compute .fund), ("dom", compute .dom), ("lt", compute .lessThan),
    ("less_than", compute .lessThan), ("hydra", hydra)]

/-- The words are understood by both front ends, and nothing in them is in the way of finding them
on a line or among the arguments. -/
theorem of_mem_words : ∀ entry ∈ words, ofWord? entry.1 = some entry.2 ∧ entry.1.toList ≠ [] ∧
    entry.1.toList.any Text.isBlank = false ∧ entry.1.toList.head? ≠ some '-' := by
  decide

end CommandLine.Verb

section Answers

variable {calculator : Calculator} {a b : Text} {verb : Verb}

theorem compute_of_not_exceeds {operation : Operation}
    (enough : ¬ (Verb.compute operation).Exceeds calculator a b) :
    calculator.compute ⟨operation, some a, some b⟩ =
      Request.outcome calculator.options ⟨operation, some a, some b⟩ :=
  (compute_agrees calculator _).resolve_left enough

theorem hydra_of_not_exceeds (enough : ¬ Verb.hydra.Exceeds calculator a b) :
    calculator.hydra a = (Reader.read a).map hydraText := by
  cases read : Reader.read a with
  | error e =>
    rw [Calculator.hydra, read]
    rfl
  | ok t =>
    have rows : Limited.rows? calculator.limit t = .ok t.rows? :=
      ((Limited.settles_rows? t).agrees calculator.limit).resolve_right fun stopped =>
        enough ⟨t, read, stopped⟩
    simp only [Calculator.hydra, read, rows, hydraText, Except.map, bind, Except.bind]
    cases t.rows? <;> rfl

end Answers

/-! ## §2 The two front ends -/

namespace CommandLine.Verb

/-- The command that a request is in a session. -/
def command (a b : Text) : Verb → Command
  | compute operation => .compute operation a b
  | hydra => .hydra a

/-- What a session prints for an answer. -/
def shown (verb : Verb) : Answer → Text
  | .ok text => verb.label ++ text
  | .error message => errorLine message

end CommandLine.Verb

/-- The report of a command line on an answer. -/
def CommandLine.Report.ofAnswer : Answer → CommandLine.Report
  | .ok text => .ofResult text
  | .error message => .ofFailure message

/-- The calculator answers the line with the given text. -/
def Calculator.Replies (calculator : Calculator) (line text : Text) : Prop :=
  (calculator.converse [line]).1 = [text ++ ['\n']]

section FrontEnds

variable {word : String} {verb : Verb} {a b : Text}

theorem ofLine_assemble (named : (word, verb) ∈ Verb.words) (trimA : Text.trim a = a)
    (trimB : Text.trim b = b) (semicolon : ';' ∉ a) :
    Command.ofLine (Command.assemble word a b) = verb.command a b := by
  obtain ⟨known, ne_nil, solid, _⟩ := Verb.of_mem_words _ named
  have bare : Command.IsBare word := ⟨ne_nil, by simpa using solid⟩
  have first : Command.word (Command.assemble word a b) = word := Command.word_assemble bare a b
  have operandA := Command.operandA_assemble bare semicolon b
  have operandB := Command.operandB_assemble bare semicolon b
  rw [trimA] at operandA
  rw [trimB] at operandB
  -- The session has a command of its own for hydras, and looks up every other word.
  rw [Verb.ofWord?] at known
  split at known
  case isTrue is_hydra =>
    cases known
    rw [Command.ofLine_of_hydra (first.trans is_hydra), operandA, Verb.command]
  case isFalse =>
    obtain ⟨operation, is_operation, rfl⟩ := Option.map_eq_some_iff.1 known
    rw [← first] at is_operation
    rw [Command.ofLine_of_operation is_operation, operandA, operandB, Verb.command]

/-- The session's side: the answer is shown in one line. -/
theorem respond_command {calculator : Calculator} (enough : ¬ verb.Exceeds calculator a b) :
    calculator.respond (verb.command a b) =
      some ([verb.shown (verb.answer calculator.options a b)], calculator) := by
  cases verb with
  | compute operation =>
    rw [Verb.command, Calculator.respond, compute_of_not_exceeds enough, Verb.answer]
    cases Request.outcome calculator.options ⟨operation, some a, some b⟩ <;> rfl
  | hydra =>
    rw [Verb.command, Calculator.respond, hydra_of_not_exceeds enough, Verb.answer]
    cases Reader.read a <;> rfl

theorem replies_iff (named : (word, verb) ∈ Verb.words) (trimA : Text.trim a = a)
    (trimB : Text.trim b = b) (semicolon : ';' ∉ a) {calculator : Calculator}
    (enough : ¬ verb.Exceeds calculator a b) (text : Text) :
    calculator.Replies (Command.assemble word a b) text ↔
      verb.shown (verb.answer calculator.options a b) = text := by
  have answer := respond_command enough
  rw [← ofLine_assemble named trimA trimB semicolon] at answer
  rw [Calculator.Replies, Calculator.converse_of_respond [] answer]
  simp [Text.unlines, Calculator.converse]

/-- The command line's side: the exit code tells a result from a failure. -/
theorem run_request {before after : List Flag} {options : Options}
    (corresponding : ∀ flag, options.isOn flag = true ↔ flag ∈ before ++ after)
    (named : (word, verb) ∈ Verb.words) (hyphenA : a.head? ≠ some '-')
    (hyphenB : b.head? ≠ some '-') (enough : ¬ verb.Exceeds { options } a b)
    (input : List Text) :
    CommandLine.run
        (CommandLine.switches before ++ [word.toList, a, b] ++ CommandLine.switches after) input =
      .ok (.ofAnswer (verb.answer options a b)) := by
  -- All flags are off before the first switch.
  have same : Options.putOn {} (before ++ after) = options := by
    apply Options.ext_isOn
    intro flag
    have off : ({} : Options).isOn flag = false := by cases flag <;> rfl
    rw [Options.isOn_putOn, off, Bool.or_false, Bool.eq_iff_iff, decide_eq_true_eq, corresponding]
  obtain ⟨known, _, _, hyphen⟩ := Verb.of_mem_words _ named
  rw [← String.ofList_toList (s := word)] at known
  rw [CommandLine.run, CommandLine.parse_request known hyphen hyphenA hyphenB, same]
  cases verb with
  | compute operation =>
    simp only [CommandLine.Invocation.report?, CommandLine.Invocation.calculator,
      compute_of_not_exceeds enough, Verb.answer, bind, Except.bind]
    cases Request.outcome options ⟨operation, some a, some b⟩ <;> rfl
  | hydra =>
    simp only [CommandLine.Invocation.report?, CommandLine.Invocation.calculator,
      hydra_of_not_exceeds enough, Verb.answer, bind, Except.bind]
    cases Reader.read a <;> rfl

end FrontEnds

/-! ## §3 Telling the answer -/

/-- The text is the wording of a failure. -/
def IsErrorText (text : Text) : Prop := "Error: ".toList <+: text

/-- The line gets the result `x`: the reply is `Output: x`, or `x` itself for a hydra.  The wording
of a failure is no result. -/
def Calculator.GivesResult (calculator : Calculator) (line x : Text) : Verb → Prop
  | .compute _ => calculator.Replies line ("Output: ".toList ++ x)
  | .hydra => calculator.Replies line x ∧ ¬ IsErrorText x

theorem not_isErrorText_output (x : Text) : ¬ IsErrorText ("Output: ".toList ++ x) := by
  simp [IsErrorText]

theorem givesResult_iff {calculator : Calculator} {line x : Text} {verb : Verb} :
    calculator.GivesResult line x verb ↔
      calculator.Replies line (verb.label ++ x) ∧ ¬ IsErrorText (verb.label ++ x) := by
  cases verb with
  | compute operation => exact (and_iff_left (not_isErrorText_output x)).symm
  | hydra => exact Iff.rfl

/-- What is said of a hydra begins with the star of its root, or with the words that there is none. -/
theorem not_isErrorText_hydraText (t : Term) : ¬ IsErrorText (hydraText t) := by
  rw [IsErrorText, hydraText]
  cases t.rows? with
  | none => decide
  | some rows => simp [Row.outline]

/-- No result looks like a failure. -/
theorem not_isErrorText_of_answer {options : Options} {a b text : Text} {verb : Verb}
    (h : verb.answer options a b = .ok text) : ¬ IsErrorText (verb.label ++ text) := by
  cases verb with
  | compute operation => exact not_isErrorText_output text
  | hydra =>
    cases read : Reader.read a with
    | error e =>
      rw [Verb.answer, read] at h
      cases h
    | ok t =>
      rw [Verb.answer, read] at h
      cases h
      exact not_isErrorText_hydraText t

section Telling

variable {verb : Verb} {answer : Answer}
  (clear : ∀ text, answer = .ok text → ¬ IsErrorText (verb.label ++ text))

include clear

theorem shown_result_iff (x : Text) :
    verb.shown answer = verb.label ++ x ∧ ¬ IsErrorText (verb.label ++ x) ↔
      CommandLine.Report.ofAnswer answer = ⟨0, x ++ ['\n'], []⟩ := by
  cases answer with
  | ok text =>
    have result : CommandLine.Report.ofAnswer (.ok text) = ⟨0, text ++ ['\n'], []⟩ := by
      simp [CommandLine.Report.ofAnswer, CommandLine.Report.ofResult, Text.unlines]
    rw [result]
    constructor
    · rintro ⟨eq, _⟩
      rw [List.append_cancel_left eq]
    · intro eq
      have same : text = x := by simpa using eq
      subst same
      exact ⟨rfl, clear text rfl⟩
  | error message =>
    constructor
    · -- A session would have shown the wording of the failure.
      rintro ⟨eq, not_error⟩
      exact absurd ⟨message.toList, eq⟩ not_error
    · nofun

theorem shown_error_iff (m : Text) :
    verb.shown answer = "Error: ".toList ++ m ↔
      CommandLine.Report.ofAnswer answer = ⟨1, [], "Error: ".toList ++ m ++ ['\n']⟩ := by
  cases answer with
  | ok text =>
    constructor
    · intro eq
      exact absurd ⟨m, eq.symm⟩ (clear text rfl)
    · nofun
  | error message =>
    have failure : CommandLine.Report.ofAnswer (.error message) =
        ⟨1, [], errorLine message ++ ['\n']⟩ := by
      simp [CommandLine.Report.ofAnswer, CommandLine.Report.ofFailure, Text.unlines]
    rw [failure, Verb.shown]
    constructor
    · intro eq
      rw [eq]
    · intro eq
      exact List.append_cancel_right (congrArg CommandLine.Report.errors eq)

end Telling

/-! ## §4 The main statement -/

/-- **Sessions and command lines agree.**  Let `A` and `B` be trimmed and begin with no hyphen, and
let `A` hold no `;`.  As long as no limit of nesting is reached, a session answers the line
`word A ; B` with a result exactly if the command line with these operands prints it and ends with
exit code 0, and with an error exactly if the command line prints the error and ends with exit code
1.  The switches stand before and after the operands, and are those of the flags that are on. -/
theorem session_agrees_with_commandLine {word : String} {verb : Verb}
    (named : (word, verb) ∈ Verb.words) {options : Options} {before after : List Flag}
    (corresponding : ∀ flag, options.isOn flag = true ↔ flag ∈ before ++ after)
    {a b : Text} (trimA : Text.trim a = a) (trimB : Text.trim b = b)
    (hyphenA : a.head? ≠ some '-') (hyphenB : b.head? ≠ some '-') (semicolon : ';' ∉ a)
    {limit : Nat} (enough : ¬ verb.Exceeds ⟨options, limit⟩ a b)
    (enoughByDefault : ¬ verb.Exceeds { options } a b) (input : List Text) :
    (∀ x : Text,
      (Calculator.mk options limit).GivesResult (Command.assemble word a b) x verb ↔
        CommandLine.run (CommandLine.switches before ++ [word.toList, a, b] ++
          CommandLine.switches after) input = .ok ⟨0, x ++ ['\n'], []⟩) ∧
    ∀ m : Text,
      (Calculator.mk options limit).Replies (Command.assemble word a b) ("Error: ".toList ++ m) ↔
        CommandLine.run (CommandLine.switches before ++ [word.toList, a, b] ++
          CommandLine.switches after) input = .ok ⟨1, [], "Error: ".toList ++ m ++ ['\n']⟩ := by
  have replies := replies_iff named trimA trimB semicolon enough
  have clear : ∀ text, verb.answer options a b = .ok text → ¬ IsErrorText (verb.label ++ text) :=
    fun _ result => not_isErrorText_of_answer result
  rw [run_request corresponding named hyphenA hyphenB enoughByDefault input]
  refine ⟨fun x => ?_, fun m => ?_⟩
  · rw [givesResult_iff, replies, shown_result_iff clear, Except.ok.injEq]
  · rw [replies, shown_error_iff clear, Except.ok.injEq]

/-- An operand with a semicolon in it, where both front ends report the same column. -/
theorem session_agrees_with_commandLine_semicolon :
    Text.trim "A (0,w)".toList = "A (0,w)".toList ∧ Text.trim "1;2".toList = "1;2".toList ∧
    ';' ∉ "A (0,w)".toList ∧
    (Calculator.mk { omega := true } 1000).Replies "fund A (0,w) ; 1;2".toList
      ("Error: ".toList ++ "Unexpected character ';' at column 2".toList) ∧
    CommandLine.run ["--omega".toList, "fund".toList, "A (0,w)".toList, "1;2".toList] [] =
      .ok ⟨1, [], "Error: ".toList ++ "Unexpected character ';' at column 2".toList ++ ['\n']⟩ := by
  have named : ("fund", Verb.compute .fund) ∈ Verb.words := by decide
  have trimA : Text.trim "A (0,w)".toList = "A (0,w)".toList := by decide
  have trimB : Text.trim "1;2".toList = "1;2".toList := by decide
  have semicolon : ';' ∉ "A (0,w)".toList := by decide
  have corresponding : ∀ flag, Options.isOn { omega := true } flag = true ↔
      flag ∈ [Flag.omega] ++ [] := by
    intro flag
    cases flag <;> decide
  have enough : ¬ (Verb.compute .fund).Exceeds ⟨{ omega := true }, 1000⟩ "A (0,w)".toList
      "1;2".toList := by
    show ¬ Calculator.compute _ _ = _
    decide +kernel
  have reply : (Calculator.mk { omega := true } 1000).Replies "fund A (0,w) ; 1;2".toList
      ("Error: ".toList ++ "Unexpected character ';' at column 2".toList) := by
    rw [Calculator.Replies]
    decide +kernel
  have agree := (session_agrees_with_commandLine named corresponding trimA trimB (by decide)
    (by decide) semicolon enough enough []).2 "Unexpected character ';' at column 2".toList
  have line : Command.assemble "fund" "A (0,w)".toList "1;2".toList =
      "fund A (0,w) ; 1;2".toList := by decide
  have texts : CommandLine.switches [Flag.omega] ++
      ["fund".toList, "A (0,w)".toList, "1;2".toList] ++ CommandLine.switches [] =
      ["--omega".toList, "fund".toList, "A (0,w)".toList, "1;2".toList] := by decide
  rw [line, texts] at agree
  exact ⟨trimA, trimB, semicolon, reply, agree.1 reply⟩

end Collapsing
