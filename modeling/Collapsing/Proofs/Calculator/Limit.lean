import Collapsing.Proofs.Calculator.Request
import Collapsing.Proofs.Limited.Expansion
import Collapsing.Proofs.Limited.Order
import Collapsing.Proofs.Limited.Writing
import Mathlib.Data.List.Basic

/-!
# The limit of a calculator

A calculator keeps to a limit of nesting, in the calculation and in writing its result.  The limit
decides only whether there is an answer: for each request some limit is enough, every larger one is,
and every smaller one makes the calculator say that the term is nested too deeply.  With a limit that
is enough the outcome is the one without a limit.

Reading is not limited, so a request that cannot be read, or that lacks an operand, fails in the same
way under every limit.

## Main statements

- `settles_success`: a calculation and the printing of its value settle;
- `hasThreshold_compute`: from some limit on, the outcome is the one without a limit;
- `compute_limit_harmless`: the limit never changes an answer.
-/

namespace Collapsing

open Limited

/-! ## §1 Calculations -/

theorem settles_value (calculation : Calculation) :
    Settles (fun limit => calculation.limitedValue limit) calculation.value := by
  cases calculation with
  | expand x y => exact (settles_expand x y).map Value.term
  | degree x => exact (settles_degree x).map Value.term
  | lessThan x y => exact (settles_lessThan x y).map Value.truth

theorem settles_output (options : Options) (value : Value) :
    Settles (fun limit => value.limitedOutput options limit) (value.output options) := by
  cases value with
  | term t => exact settles_formatOutput t
  | truth holds => exact .pure (truthText holds)

/-- A calculation within a limit, with the printed form of its value. -/
def Calculation.limitedSuccess (options : Options) (limit : Nat) (calculation : Calculation) :
    Limited Success := do
  let value ← calculation.limitedValue limit
  let output ← value.limitedOutput options limit
  return ⟨value, output⟩

theorem settles_success (options : Options) (calculation : Calculation) :
    Settles (fun limit => calculation.limitedSuccess options limit)
      ⟨calculation.value, calculation.value.output options⟩ :=
  (settles_value calculation).bind ((settles_output options calculation.value).bind (.pure _))

/-! ## §2 Requests -/

/-- Failures may be wrapped one by one, or once at the end. -/
theorem mapError_bind {ε ε' α β : Type} (wrap : ε → ε') (first : Except ε α)
    (next : α → Except ε β) :
    (first >>= next).mapError wrap = first.mapError wrap >>= fun a => (next a).mapError wrap := by
  cases first <;> rfl

/-- A calculator reads the request, which is not limited, and then carries out the calculation. -/
theorem compute_eq (calculator : Calculator) (request : Request) :
    calculator.compute request = request.calculation >>= fun calculation =>
      (calculation.limitedSuccess calculator.options calculator.limit).mapError .stopped := by
  simp only [Calculator.compute, Calculation.limitedSuccess, mapError_bind]
  rfl

/-- Each request has a least limit that is enough, and the limit decides nothing else. -/
theorem hasThreshold_compute (options : Options) (request : Request) :
    HasThreshold (.stopped .tooDeep) (fun limit => (Calculator.mk options limit).compute request)
      (request.outcome options) := by
  simp only [compute_eq, Request.outcome, Request.evaluate]
  cases request.calculation with
  | error e => exact .const _
  | ok calculation =>
    exact (settles_success options calculation).transport (Except.mapError Failure.stopped) rfl

theorem outcome_ne_tooDeep (options : Options) (request : Request) :
    request.outcome options ≠ .error (.stopped .tooDeep) := by
  intro h
  cases read : request.calculation with
  | error e =>
    rw [Request.outcome, Request.evaluate, read] at h
    cases h
    exact request.calculation_ne_stopped .tooDeep read
  | ok calculation =>
    rw [Request.outcome, Request.evaluate, read] at h
    cases h

/-- Under a limit there is either the failure of nesting or the outcome without a limit. -/
theorem compute_agrees (calculator : Calculator) (request : Request) :
    calculator.compute request = .error (.stopped .tooDeep) ∨
      calculator.compute request = request.outcome calculator.options :=
  ((hasThreshold_compute calculator.options request).agrees calculator.limit).symm

/-- For every request some limit is enough. -/
theorem exists_limit_enough (options : Options) (request : Request) :
    ∃ limit, (Calculator.mk options limit).compute request ≠ .error (.stopped .tooDeep) := by
  obtain ⟨limit, reached⟩ := (hasThreshold_compute options request).exists_eq
  refine ⟨limit, ?_⟩
  rw [reached]
  exact outcome_ne_tooDeep options request

/-! ## §3 The main statement -/

/-- **The limit never changes an answer.**  Under every limit the outcome is the failure of nesting,
with its wording, or the outcome without a limit; a larger limit does not turn another outcome into
this failure; and for every request some limit is enough, as some limit is for each calculation and
for printing each term. -/
theorem compute_limit_harmless :
    (Failure.stopped .tooDeep).message = "The term is too deeply nested to evaluate" ∧
    (∀ (calculator : Calculator) (request : Request),
      calculator.compute request = .error (.stopped .tooDeep) ∨
        calculator.compute request = request.outcome calculator.options) ∧
    (∀ (options : Options) (request : Request) (limit larger : Nat), limit ≤ larger →
      (Calculator.mk options limit).compute request ≠ .error (.stopped .tooDeep) →
      (Calculator.mk options larger).compute request ≠ .error (.stopped .tooDeep)) ∧
    (∀ (options : Options) (request : Request), ∃ limit,
      (Calculator.mk options limit).compute request ≠ .error (.stopped .tooDeep)) ∧
    (∀ calculation : Calculation, ∃ least, ∀ limit, least ≤ limit →
      calculation.limitedValue limit = .ok calculation.value) ∧
    ∀ (options : Options) (t : Term), ∃ least, ∀ limit, least ≤ limit →
      formatOutput options limit t = .ok (Display.formatOutput options t) := by
  refine ⟨rfl, compute_agrees, ?_, exists_limit_enough, ?_, ?_⟩
  · intro options request limit larger le enough
    rwa [(hasThreshold_compute options request).eq_of_le le enough]
  · intro calculation
    exact (settles_value calculation).eventually
  · intro options t
    exact (settles_formatOutput t).eventually

/-- A tower of two storeys, which a limit of 5 cuts off and a limit of 6 does not. -/
theorem compute_limit_harmless_tower :
    (Calculator.mk {} 5).compute ⟨.fund, some "A(0,A(2,0))".toList, some "1".toList⟩ =
      .error (.stopped .tooDeep) ∧
    6 ≤ 1000 ∧
    (Calculator.mk {} 6).compute ⟨.fund, some "A(0,A(2,0))".toList, some "1".toList⟩ ≠
      .error (.stopped .tooDeep) ∧
    (Calculator.mk {} 1000).compute ⟨.fund, some "A(0,A(2,0))".toList, some "1".toList⟩ ≠
      .error (.stopped .tooDeep) := by
  have enough : (Calculator.mk {} 6).compute
      ⟨.fund, some "A(0,A(2,0))".toList, some "1".toList⟩ ≠ .error (.stopped .tooDeep) := by
    decide +kernel
  refine ⟨by decide +kernel, by decide, enough, ?_⟩
  exact compute_limit_harmless.2.2.1 {} _ 6 1000 (by decide) enough

end Collapsing
