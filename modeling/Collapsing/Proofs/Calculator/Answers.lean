import Collapsing.Proofs.Calculator.Limit

/-!
# What a calculator answers

`Answers` is the table of a calculator's answers: three rows with a result and three with an error.
The rows say which fields of the report are filled and how.  They exclude each other: the error of
`A` comes first, then that of `B`, which counts for every operation, and a missing `B` is reported
last.

No row is about the calculation itself.  Below the limit of nesting a calculation on terms that have
been read never fails, so a request has a result exactly when it can be read and has the operands
that its operation needs.

## Main statements

- `answers_outcome`: the outcome without a limit is a row of the table;
- `Answers.error_eq_none_iff`: which requests have a result;
- `compute_answers`: the same for a calculator whose limit is not reached.
-/

namespace Collapsing

/-! ## §1 The table -/

/-- The reports that a request may get, one row for each kind of request. -/
inductive Answers (options : Options) (request : Request) : Report → Prop where
  /-- The element `A[B]`. -/
  | element {x y : Term} (a : request.ReadsA (.ok x)) (b : request.ReadsB (.ok y))
      (operation : request.operation = .fund) :
      Answers options request
        { output := Display.formatOutput options (x.expand y), term := some (x.expand y) }
  /-- The degree of `A`.  There may be a `B`, but it has to be readable. -/
  | degree {x : Term} (a : request.ReadsA (.ok x))
      (b : request.LacksB ∨ ∃ y, request.ReadsB (.ok y)) (operation : request.operation = .dom) :
      Answers options request
        { output := Display.formatOutput options x.degree, term := some x.degree }
  /-- Whether `A < B`. -/
  | order {x y : Term} (a : request.ReadsA (.ok x)) (b : request.ReadsB (.ok y))
      (operation : request.operation = .lessThan) :
      Answers options request
        { output := if x.lessThan y then "true".toList else "false".toList,
          truth := some (x.lessThan y) }
  /-- The error of `A`, whatever `B` is. -/
  | unreadableA {e : ReadError} (a : request.ReadsA (.error e)) :
      Answers options request { error := some e.message }
  /-- The error of `B`, whatever the operation is. -/
  | unreadableB {x : Term} {e : ReadError} (a : request.ReadsA (.ok x))
      (b : request.ReadsB (.error e)) :
      Answers options request { error := some e.message }
  /-- A missing `B` that is needed. -/
  | missingB {x : Term} (a : request.ReadsA (.ok x)) (b : request.LacksB)
      (operation : request.operation ≠ .dom) :
      Answers options request { error := some (request.operation.name ++ " needs a second term B") }

/-- The request can be read, and it has the operands that its operation needs. -/
def Request.Answerable (request : Request) : Prop :=
  (∃ x, request.ReadsA (.ok x)) ∧ (request.LacksB ∨ ∃ y, request.ReadsB (.ok y)) ∧
    (request.operation = .dom ∨ ¬ request.LacksB)

theorem Request.ReadsA.unique {request : Request} {r r' : Except ReadError Term}
    (h : request.ReadsA r) (h' : request.ReadsA r') : r = r' :=
  h.symm.trans h'

theorem Request.ReadsB.unique {request : Request} {r r' : Except ReadError Term}
    (h : request.ReadsB r) (h' : request.ReadsB r') : r = r' := by
  obtain ⟨text, b, _, rfl⟩ := h
  obtain ⟨text', b', _, rfl⟩ := h'
  rw [b] at b'
  rw [Option.some.inj b']

/-- **Success**: the rows without an error are those of the requests that have an answer. -/
theorem Answers.error_eq_none_iff {options : Options} {request : Request} {report : Report}
    (h : Answers options request report) : report.error = none ↔ request.Answerable := by
  cases h with
  | element a b operation | order a b operation =>
    exact ⟨fun _ => ⟨⟨_, a⟩, .inr ⟨_, b⟩, .inr b.not_lacksB⟩, fun _ => rfl⟩
  | degree a b operation => exact ⟨fun _ => ⟨⟨_, a⟩, b, .inl operation⟩, fun _ => rfl⟩
  | unreadableA a =>
    refine ⟨nofun, fun ⟨⟨x, a'⟩, _⟩ => ?_⟩
    cases a.unique a'
  | unreadableB a b =>
    refine ⟨nofun, fun ⟨_, present, _⟩ => ?_⟩
    rcases present with lacks | ⟨y, b'⟩
    · exact absurd lacks b.not_lacksB
    · cases b.unique b'
  | missingB a b operation =>
    refine ⟨nofun, fun ⟨_, _, needs⟩ => ?_⟩
    rcases needs with dom | present
    · exact absurd dom operation
    · exact absurd b present

/-! ## §2 Every outcome is a row of the table -/

/-- Without a limit, the outcome of a request is the row of its kind. -/
theorem answers_outcome (options : Options) (request : Request) :
    Answers options request (request.outcome options).report := by
  apply request.calculation_cases (P := fun asked => Answers options request
    (Outcome.report ((asked.map Calculation.value).map fun value => ⟨value, value.output options⟩)))
  case unreadableA => exact fun e a => .unreadableA a
  case unreadableB => exact fun x e a b => .unreadableB a b
  case missingB => exact fun x a lacks operation => .missingB a lacks operation
  case degree => exact fun x a b operation => .degree a b operation
  case expand => exact fun x y a b operation => .element a b operation
  case lessThan => exact fun x y a b operation => .order a b operation

/-- **A calculator fails exactly when it must**: unless its limit of nesting is reached, a request
has a result if and only if it can be read and has the operands that it needs, and its report is the
row of the table that belongs to it. -/
theorem compute_answers {calculator : Calculator} {request : Request}
    (enough : calculator.compute request ≠ .error (.stopped .tooDeep)) :
    ((calculator.compute request).report.error = none ↔ request.Answerable) ∧
      Answers calculator.options request (calculator.compute request).report := by
  have unlimited : calculator.compute request = request.outcome calculator.options :=
    (compute_agrees calculator request).resolve_left enough
  rw [unlimited]
  have row := answers_outcome calculator.options request
  exact ⟨row.error_eq_none_iff, row⟩

/-- A degree that is not given because of a `B` which is not even needed. -/
theorem compute_answers_needless_operand :
    (Calculator.mk {} 1000).compute ⟨.dom, some "w".toList, some "+".toList⟩ ≠
      .error (.stopped .tooDeep) ∧
    ¬ (Request.mk .dom (some "w".toList) (some "+".toList)).Answerable ∧
    Answers {} ⟨.dom, some "w".toList, some "+".toList⟩
      { error := some "Unexpected '+' at column 1" } := by
  have enough : (Calculator.mk {} 1000).compute ⟨.dom, some "w".toList, some "+".toList⟩ ≠
      .error (.stopped .tooDeep) := by decide +kernel
  have report_eq :
      ((Calculator.mk {} 1000).compute ⟨.dom, some "w".toList, some "+".toList⟩).report =
        { error := some "Unexpected '+' at column 1" } := by decide +kernel
  obtain ⟨success, row⟩ := compute_answers enough
  rw [report_eq] at success row
  refine ⟨enough, fun answerable => ?_, row⟩
  cases success.2 answerable

end Collapsing
