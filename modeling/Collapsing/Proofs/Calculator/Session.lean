import Collapsing.Proofs.Calculator.Line
import Mathlib.Logic.Function.Iterate

/-!
# What a session remembers

A session answers its lines one after the other, up to the line that leaves it.  From one line to
the next it keeps the display options and nothing else, and only a line `set NAME` with the name of
a flag changes them.

One line is looked at first: what it does to the options depends on its word and its operand alone.
A whole session is then followed line by line.  It can be cut at every line that it reaches, and
what comes after the cut is the session of a calculator with the options of that moment.

## Main statements

- `exists_converse_cons`: what one line does to the calculator;
- `converse_append`: a session may be cut in two;
- `isOn_converse`: the flags at the end of a session;
- `session_keeps_options`: the session as a whole.
-/

namespace Collapsing

/-! ## §1 One line -/

/-- The flag that a command puts the other way round. -/
def Command.flag? : Command → Option Flag
  | .set name => Flag.ofName? (String.ofList name)
  | _ => none

namespace Command

/-- The line leaves the session. -/
def Leaves (line : Text) : Prop := word line = "quit" ∨ word line = "exit"

instance (line : Text) : Decidable (Leaves line) := inferInstanceAs (Decidable (_ ∨ _))

/-- The line puts the flag the other way round: its word is `set`, and its operand is the name of
the flag. -/
def Flips (flag : Flag) (line : Text) : Prop :=
  word line = "set" ∧ operandA line = flag.name.toList

instance (flag : Flag) (line : Text) : Decidable (Flips flag line) :=
  inferInstanceAs (Decidable (_ ∧ _))

theorem flag?_eq_some_iff {command : Command} {flag : Flag} :
    command.flag? = some flag ↔ command = .set flag.name.toList := by
  constructor
  · intro h
    cases command with
    | set name =>
      have named := Flag.name_of_ofName? h
      rw [named, String.toList_ofList]
    | _ => cases h
  · rintro rfl
    rw [flag?, String.ofList_toList, Flag.ofName?_name]

theorem flag?_ofLine_eq_some_iff {line : Text} {flag : Flag} :
    (ofLine line).flag? = some flag ↔ Flips flag line := by
  rw [flag?_eq_some_iff, ofLine_eq_set_iff, Flips]

end Command

namespace Calculator

open Command (ofLine Leaves Flips)

variable {calculator next : Calculator} {command : Command} {reply : List Text}

theorem respond_eq_none_iff : calculator.respond command = none ↔ command = .leave := by
  cases command with
  | hydra a => cases h : calculator.hydra a <;> simp [respond, h]
  | set name => cases h : calculator.toggle (String.ofList name) <;> simp [respond, h]
  | _ => simp [respond]

/-- An answer keeps the limit, and it flips the flag of the command, if there is one. -/
theorem respond_step (h : calculator.respond command = some (reply, next)) :
    next.limit = calculator.limit ∧
      ∀ flag, next.options.isOn flag =
        if command.flag? = some flag then !calculator.options.isOn flag
        else calculator.options.isOn flag := by
  cases command with
  | leave => cases h
  | hydra a =>
    rw [respond] at h
    split at h <;> cases h <;> exact ⟨rfl, fun _ => rfl⟩
  | set name =>
    cases named : Flag.ofName? (String.ofList name) with
    | none =>
      -- The name is refused, and the calculator stays as it is.
      simp only [respond, toggle, Options.toggle, named] at h
      cases h
      exact ⟨rfl, fun flag => by simp [Command.flag?, named]⟩
    | some flipped =>
      simp only [respond, toggle, Options.toggle, named] at h
      cases h
      refine ⟨rfl, fun flag => ?_⟩
      simp only [Command.flag?, named, Option.some.injEq, Options.isOn_flip, eq_comm]
  | _ =>
    cases h
    exact ⟨rfl, fun _ => rfl⟩

/-! ## §2 Whole sessions -/

/-- The lines of a session that are answered: those before the first one that leaves it. -/
def answered (lines : List Text) : List Text := lines.takeWhile fun line => ¬ Leaves line

theorem answered_of_leaves {line : Text} (leaves : Leaves line) (lines : List Text) :
    answered (line :: lines) = [] :=
  List.takeWhile_cons_of_neg (by simp [leaves])

theorem answered_of_stays {line : Text} (stays : ¬ Leaves line) (lines : List Text) :
    answered (line :: lines) = line :: answered lines :=
  List.takeWhile_cons_of_pos (by simp [stays])

theorem converse_cons_of_leaves {line : Text} (leaves : Leaves line) (calculator : Calculator)
    (lines : List Text) : calculator.converse (line :: lines) = ([[]], calculator) :=
  converse_leave lines (respond_eq_none_iff.2 ((Command.ofLine_eq_leave_iff line).2 leaves))

/-- A line that does not leave is answered.  The session goes on with a calculator that has the same
limit, and the same flags but for the one that the line flips. -/
theorem exists_converse_cons {line : Text} (stays : ¬ Leaves line) (calculator : Calculator) :
    ∃ (reply : Text) (next : Calculator), next.limit = calculator.limit ∧
      (∀ flag, next.options.isOn flag =
        if Flips flag line then !calculator.options.isOn flag
        else calculator.options.isOn flag) ∧
      ∀ lines, calculator.converse (line :: lines) =
        (reply :: (next.converse lines).1, (next.converse lines).2) := by
  cases h : calculator.respond (ofLine line) with
  | none => exact absurd ((Command.ofLine_eq_leave_iff line).1 (respond_eq_none_iff.1 h)) stays
  | some answer =>
    obtain ⟨limit, flags⟩ := respond_step h
    simp only [Command.flag?_ofLine_eq_some_iff] at flags
    exact ⟨Text.unlines answer.1, answer.2, limit, flags,
      fun lines => converse_of_respond lines h⟩

/-- A session that is not left goes on where its first part ends. -/
theorem converse_append {before : List Text} (stays : ∀ line ∈ before, ¬ Leaves line)
    (calculator : Calculator) (lines : List Text) :
    calculator.converse (before ++ lines) =
      ((calculator.converse before).1 ++ ((calculator.converse before).2.converse lines).1,
        ((calculator.converse before).2.converse lines).2) := by
  induction before generalizing calculator with
  | nil => rfl
  | cons line before ih =>
    obtain ⟨reply, next, _, _, eq⟩ := exists_converse_cons (stays line (.head before)) calculator
    have rest := ih (fun line mem => stays line (.tail _ mem)) next
    rw [List.cons_append, eq, eq, rest, List.cons_append]

theorem length_converse {lines : List Text} (stays : ∀ line ∈ lines, ¬ Leaves line)
    (calculator : Calculator) : (calculator.converse lines).1.length = lines.length := by
  induction lines generalizing calculator with
  | nil => rfl
  | cons line lines ih =>
    obtain ⟨reply, next, _, _, eq⟩ := exists_converse_cons (stays line (.head lines)) calculator
    have rest := ih (fun line mem => stays line (.tail _ mem)) next
    rw [eq, List.length_cons, List.length_cons, rest]

theorem limit_converse (calculator : Calculator) (lines : List Text) :
    (calculator.converse lines).2.limit = calculator.limit := by
  induction lines generalizing calculator with
  | nil => rfl
  | cons line lines ih =>
    by_cases leaves : Leaves line
    · rw [converse_cons_of_leaves leaves]
    · obtain ⟨reply, next, limit, _, eq⟩ := exists_converse_cons leaves calculator
      rw [eq, ih, limit]

/-- At the end of a session a flag has been flipped once by each answered line that flips it. -/
theorem isOn_converse (flag : Flag) (calculator : Calculator) (lines : List Text) :
    (calculator.converse lines).2.options.isOn flag =
      not^[(answered lines).countP (Flips flag ·)] (calculator.options.isOn flag) := by
  induction lines generalizing calculator with
  | nil => rfl
  | cons line lines ih =>
    by_cases leaves : Leaves line
    · rw [converse_cons_of_leaves leaves, answered_of_leaves leaves]
      rfl
    · obtain ⟨reply, next, _, step, eq⟩ := exists_converse_cons leaves calculator
      rw [eq, ih, step, answered_of_stays leaves]
      by_cases flips : Flips flag line
      · rw [if_pos flips, List.countP_cons_of_pos (by simp [flips]), Function.iterate_succ_apply]
      · rw [if_neg flips, List.countP_cons_of_neg (by simp [flips])]

/-! ## §3 One line of a session -/

/-- A line that leaves the session is the last one, and those after it have no effect. -/
theorem converse_of_leaves {before : List Text} {line : Text}
    (earlier : ∀ previous ∈ before, ¬ Leaves previous) (leaves : Leaves line)
    (calculator : Calculator) (after : List Text) :
    calculator.converse (before ++ line :: after) =
      ((calculator.converse before).1 ++ [[]], (calculator.converse before).2) := by
  rw [converse_append earlier, converse_cons_of_leaves leaves]

/-- Any other line gets the reply that a calculator gives to it which has been set up with the
options of that moment. -/
theorem exists_reply {before : List Text} {line : Text}
    (earlier : ∀ previous ∈ before, ¬ Leaves previous) (stays : ¬ Leaves line)
    (calculator : Calculator) (after : List Text) :
    ∃ reply,
      ((Calculator.mk (calculator.converse before).2.options calculator.limit).converse
        [line]).1 = [reply] ∧
      (calculator.converse (before ++ line :: after)).1[before.length]? = some reply := by
  have moment : (calculator.converse before).2 =
      ⟨(calculator.converse before).2.options, calculator.limit⟩ := by
    rw [← limit_converse calculator before]
  obtain ⟨reply, next, _, _, eq⟩ := exists_converse_cons stays (calculator.converse before).2
  refine ⟨reply, ?_, ?_⟩
  · rw [← moment, eq]
    rfl
  · -- The replies to the lines before are as many as these lines.
    rw [converse_append earlier, List.getElem?_append_right (by rw [length_converse earlier]),
      length_converse earlier, Nat.sub_self, eq, List.getElem?_cons_zero]

/-! ## §4 The main statement -/

/-- **A session remembers the options only**, and only its flips change them.  At the end each flag
has been flipped once by each line with the word `set` and the name of the flag for operand, among
the lines before the first one that leaves.  Each of these lines is answered, whether it fails or
not, as by a calculator that has been set up with the options of that moment.  Lines after the one
that leaves have no effect. -/
theorem session_keeps_options :
    (∀ (calculator : Calculator) (lines : List Text),
      (calculator.converse lines).2.limit = calculator.limit ∧
      ∀ flag : Flag, (calculator.converse lines).2.options.isOn flag =
        not^[(lines.takeWhile fun line => ¬ Leaves line).countP (Flips flag ·)]
          (calculator.options.isOn flag)) ∧
    (∀ (calculator : Calculator) (lines : List Text), (∀ line ∈ lines, ¬ Leaves line) →
      (calculator.converse lines).1.length = lines.length) ∧
    (∀ (calculator : Calculator) (before : List Text) (line : Text) (after : List Text),
      (∀ previous ∈ before, ¬ Leaves previous) → ¬ Leaves line →
      ∃ reply,
        ((Calculator.mk (calculator.converse before).2.options calculator.limit).converse
          [line]).1 = [reply] ∧
        (calculator.converse (before ++ line :: after)).1[before.length]? = some reply) ∧
    ∀ (calculator : Calculator) (before : List Text) (line : Text) (after : List Text),
      (∀ previous ∈ before, ¬ Leaves previous) → Leaves line →
      calculator.converse (before ++ line :: after) =
        ((calculator.converse before).1 ++ [[]], (calculator.converse before).2) := by
  refine ⟨fun calculator lines => ⟨limit_converse calculator lines, fun flag => ?_⟩, ?_, ?_, ?_⟩
  · exact isOn_converse flag calculator lines
  · intro calculator lines stays
    exact length_converse stays calculator
  · intro calculator before line after earlier stays
    exact exists_reply earlier stays calculator after
  · intro calculator before line after earlier leaves
    exact converse_of_leaves earlier leaves calculator after

/-- A session with a flip, a flag that does not exist, a term that cannot be read, and a flip after
the line that leaves. -/
theorem session_keeps_options_after_failures :
    (∀ previous ∈ [" set  show_omega_abbrev ;x".toList, "set omega".toList, "dom w+".toList],
      ¬ Leaves previous) ∧
    ¬ Leaves "dom A(0,w)".toList ∧ Leaves "exit now".toList ∧
    (({} : Calculator).converse
      ([" set  show_omega_abbrev ;x".toList, "set omega".toList, "dom w+".toList] ++
        ["dom A(0,w)".toList])).1[3]? = some "Output: ω\n".toList ∧
    (({} : Calculator).converse
      ([" set  show_omega_abbrev ;x".toList, "set omega".toList, "dom w+".toList] ++
        "exit now".toList :: ["set render_as_tex".toList])).2.options = { omega := true } := by
  have earlier : ∀ previous ∈
      [" set  show_omega_abbrev ;x".toList, "set omega".toList, "dom w+".toList],
      ¬ Leaves previous := by decide
  have stays : ¬ Leaves "dom A(0,w)".toList := by decide
  have leaves : Leaves "exit now".toList := by decide
  have options : (({} : Calculator).converse [" set  show_omega_abbrev ;x".toList,
      "set omega".toList, "dom w+".toList]).2.options = { omega := true } := by decide +kernel
  refine ⟨earlier, stays, leaves, ?_, ?_⟩
  · obtain ⟨reply, alone, eq⟩ := session_keeps_options.2.2.1 {} _ "dom A(0,w)".toList [] earlier
      stays
    rw [options] at alone
    have expected : ((Calculator.mk { omega := true } 1000).converse ["dom A(0,w)".toList]).1 =
        ["Output: ω\n".toList] := by decide +kernel
    have same : reply = "Output: ω\n".toList := List.singleton_inj.1 (alone.symm.trans expected)
    rwa [same] at eq
  · rw [session_keeps_options.2.2.2 {} _ "exit now".toList ["set render_as_tex".toList] earlier
      leaves]
    exact options

end Calculator

end Collapsing
