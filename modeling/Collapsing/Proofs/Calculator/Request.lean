import Collapsing.Calculator.Basic

/-!
# What a request asks for

A request is read before anything is calculated: `A` first, then `B` if there is one, and only then
is the operation looked at.  So there are six kinds of requests.  In three of them it is clear what
to calculate, and in the others the request is refused: because of `A`, because of `B` although `A`
can be read, or because `B` is missing although `A` can be read and the operation needs `B`.

A proof about requests goes through these kinds by `calculation_cases` and never opens the
definition.

## Main statements

- `calculation_cases`: the six kinds of requests;
- `calculation_ne_stopped`: a request is never refused for the nesting of its terms.
-/

namespace Collapsing.Request

/-! ## §1 Operands -/

/-- The operand `A` reads as the given result.  A missing `A` reads as an empty text. -/
def ReadsA (request : Request) (result : Except ReadError Term) : Prop :=
  Reader.read (request.a.getD []) = result

/-- There is an operand `B`, and it reads as the given result. -/
def ReadsB (request : Request) (result : Except ReadError Term) : Prop :=
  ∃ text, request.b = some text ∧ text ≠ [] ∧ Reader.read text = result

/-- The operand `B` is missing or empty. -/
def LacksB (request : Request) : Prop := request.b = none ∨ request.b = some []

variable {request : Request} {result : Except ReadError Term}

theorem readB_of_lacksB (h : request.LacksB) : request.readB = .ok none := by
  rcases h with b | b <;> rw [readB, b]

theorem readB_of_readsB (h : request.ReadsB result) : request.readB = result.map some := by
  obtain ⟨text, b, not_empty, rfl⟩ := h
  cases text with
  | nil => exact absurd rfl not_empty
  | cons c rest => rw [readB, b]

theorem ReadsB.not_lacksB (h : request.ReadsB result) : ¬ request.LacksB := by
  obtain ⟨text, b, not_empty, _⟩ := h
  rintro (lacks | lacks)
  · rw [b] at lacks
    cases lacks
  · rw [b] at lacks
    exact not_empty (Option.some.inj lacks)

theorem lacksB_or_readsB (request : Request) : request.LacksB ∨ ∃ result, request.ReadsB result := by
  cases b : request.b with
  | none => exact .inl (.inl b)
  | some text =>
    cases text with
    | nil => exact .inl (.inr b)
    | cons c rest => exact .inr ⟨_, c :: rest, b, by simp, rfl⟩

/-! ## §2 Kinds of requests -/

/-- What holds of each of the six kinds holds of what the request asks for. -/
theorem calculation_cases {P : Except Failure Calculation → Prop} (request : Request)
    (unreadableA : ∀ e, request.ReadsA (.error e) → P (.error (.unreadable e)))
    (unreadableB : ∀ x e, request.ReadsA (.ok x) → request.ReadsB (.error e) →
      P (.error (.unreadable e)))
    (missingB : ∀ x, request.ReadsA (.ok x) → request.LacksB → request.operation ≠ .dom →
      P (.error (.missingOperand request.operation)))
    (degree : ∀ x, request.ReadsA (.ok x) → (request.LacksB ∨ ∃ y, request.ReadsB (.ok y)) →
      request.operation = .dom → P (.ok (.degree x)))
    (expand : ∀ x y, request.ReadsA (.ok x) → request.ReadsB (.ok y) → request.operation = .fund →
      P (.ok (.expand x y)))
    (lessThan : ∀ x y, request.ReadsA (.ok x) → request.ReadsB (.ok y) →
      request.operation = .lessThan → P (.ok (.lessThan x y))) :
    P request.calculation := by
  cases a : Reader.read (request.a.getD []) with
  | error e =>
    rw [calculation, a]
    exact unreadableA e a
  | ok x =>
    rcases request.lacksB_or_readsB with lacks | ⟨_ | y, b⟩
    · rw [calculation, a, readB_of_lacksB lacks]
      cases operation : request.operation with
      | dom => exact degree x a (.inl lacks) operation
      | fund | lessThan =>
        have refused := missingB x a lacks (by simp [operation])
        rwa [operation] at refused
    · rw [calculation, a, readB_of_readsB b]
      exact unreadableB x _ a b
    · rw [calculation, a, readB_of_readsB b]
      cases operation : request.operation with
      | dom => exact degree x a (.inr ⟨y, b⟩) operation
      | fund => exact expand x y a b operation
      | lessThan => exact lessThan x y a b operation

/-- Reading a request does not depend on the limit of nesting. -/
theorem calculation_ne_stopped (request : Request) (stop : Stop) :
    request.calculation ≠ .error (.stopped stop) := by
  apply request.calculation_cases (P := fun asked => asked ≠ .error (.stopped stop)) <;> simp

end Collapsing.Request
