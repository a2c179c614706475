import Collapsing.Proofs.Limited.Expansion
import Collapsing.Proofs.Limited.Order
import Collapsing.Proofs.Raw.Evaluation
import Collapsing.Proofs.Reader.Grammar
import Collapsing.Term.Order

/-!
# Values of raw evaluations

On raw forms of terms, the order, degrees, elements of fundamental sequences, largest terms and the
values of derivations all come out: from some budget on as the value that they have for terms, and
with less as a failure for want of levels.  In particular none of them is refused by a check.

## Main statements

- `reaches_lessThan`, `reaches_degree`, `reaches_expand`, `reaches_largest`: evaluations with a
  budget;
- `SumTree.build_raw`: the term that is built from a derivation.
-/

namespace Collapsing

namespace RawTerm

/-! ## §1 Outcomes -/

/-- From some budget on the evaluation has the given outcome, and below it the steps are nested too
deeply. -/
abbrev Reaches {α : Type} (eval : (budget : Nat) → Attempt α) (outcome : Attempt α) : Prop :=
  HasThreshold .tooDeep eval outcome

/-- A raw evaluation that does what a settling evaluation does has the raw form of its value. -/
theorem Reaches.of_settles {α β : Type} {form : α → β} {eval : Nat → Limited α}
    {eval' : Nat → Attempt β} {a : α} (same : ∀ budget, eval' budget = (eval budget).attempt form)
    (h : Limited.Settles eval a) : Reaches eval' (.ok (form a)) := by
  obtain rfl : eval' = fun budget => (eval budget).attempt form := funext same
  exact h.transport (Limited.attempt form) rfl

theorem reaches_lessThan (s t : Term) :
    Reaches (fun budget => lessThan budget s.raw t.raw) (.ok (s.lessThan t)) := by
  show Reaches _ (.ok (id (s.lessThan t)))
  exact .of_settles (fun budget => lessThan_raw budget s t) (Limited.settles_lessThan s t)

theorem reaches_degree (t : Term) :
    Reaches (fun budget => degree budget t.raw) (.ok t.degree.raw) :=
  .of_settles (fun budget => degree_raw budget t) (Limited.settles_degree t)

theorem reaches_expand (x y : Term) :
    Reaches (fun budget => expand budget x.raw y.raw) (.ok (x.expand y).raw) :=
  .of_settles (fun budget => expand_raw budget x y) (Limited.settles_expand x y)

/-! ## §2 The largest of some terms -/

/-- The larger of two terms, and the first one if they are equal. -/
def larger (budget : Nat) (σ τ : RawTerm) : Attempt RawTerm := do
  if ← lessThan budget σ τ then return τ else return σ

/-- The largest of a list of terms; the empty list has none. -/
def largest (budget : Nat) : List RawTerm → Attempt RawTerm
  | [] => throw (.refused .noTerms)
  | τ :: τs => τs.foldlM (larger budget) τ

theorem reaches_larger (s t : Term) :
    Reaches (fun budget => larger budget s.raw t.raw) (.ok (s.max t).raw) := by
  apply (reaches_lessThan s t).bind
  show Reaches (fun _ => if s.lessThan t = true then .ok t.raw else .ok s.raw)
    (.ok (if s.lessThan t = true then t else s).raw)
  split
  · exact .const _
  · exact .const _

theorem reaches_foldlM_larger (ts : List Term) (t : Term) :
    Reaches (fun budget => (ts.map Term.raw).foldlM (larger budget) t.raw)
      (.ok (ts.foldl Term.max t).raw) := by
  induction ts generalizing t with
  | nil => exact .const _
  | cons t' ts ih =>
    simp only [List.map_cons, List.foldlM_cons, List.foldl_cons]
    exact (reaches_larger t t').bind (ih (t.max t'))

theorem reaches_largest (ts : List Term) :
    Reaches (fun budget => largest budget (ts.map Term.raw))
      (checked ((Term.largest? ts).map Term.raw)) := by
  cases ts with
  | nil => exact .const _
  | cons t ts => exact reaches_foldlM_larger ts t

end RawTerm

/-! ## §3 Texts -/

namespace Reader

mutual

/-- The addends of a derivation, from left to right, are built and added to `before`. -/
def SumTree.buildFrom (before : RawTerm) : SumTree → Except TermError RawTerm
  | .last addend => do RawTerm.plus before (← addend.build)
  | .more addend rest => do rest.buildFrom (← RawTerm.plus before (← addend.build))

/-- The term that is built from an addend. -/
def AddendTree.build : AddendTree → Except TermError RawTerm
  | .number value => RawTerm.numeral? value
  | .omega => return .omega
  | .bigOmega => return .bigOmega
  | .oneOperand arg => return .psi .zero (← arg.buildFrom .zero)
  | .twoOperands sub arg => return .psi (← sub.buildFrom .zero) (← arg.buildFrom .zero)
  | .withSubscript sub arg => return .psi (← sub.build) (← arg.buildFrom .zero)

/-- The term that is built from a subscript. -/
def SubscriptTree.build : SubscriptTree → Except TermError RawTerm
  | .braced _ sum => sum.buildFrom .zero
  | .bare _ sum => sum.buildFrom .zero

end

/-- The term that is built from a text with the given derivation. -/
def SumTree.build (sum : SumTree) : Except TermError RawTerm := sum.buildFrom .zero

mutual

theorem SumTree.buildFrom_raw (sum : SumTree) (before : Term) :
    sum.buildFrom before.raw = .ok (sum.valueFrom before).raw := by
  match sum with
  | .last addend =>
    rw [SumTree.buildFrom, addend.build_raw, SumTree.valueFrom]
    exact RawTerm.plus_raw before addend.value
  | .more addend rest =>
    rw [SumTree.buildFrom, addend.build_raw, SumTree.valueFrom,
      ← rest.buildFrom_raw (before + addend.value)]
    show (RawTerm.plus before.raw addend.value.raw >>= fun before => rest.buildFrom before) = _
    rw [RawTerm.plus_raw]
    rfl

theorem AddendTree.build_raw (addend : AddendTree) : addend.build = .ok addend.value.raw := by
  match addend with
  | .number value => exact RawTerm.numeral?_raw value
  | .omega => rfl
  | .bigOmega => rfl
  | .oneOperand arg =>
    rw [AddendTree.build, ← Term.raw_zero, arg.buildFrom_raw]
    rfl
  | .twoOperands sub arg =>
    rw [AddendTree.build, ← Term.raw_zero, sub.buildFrom_raw, arg.buildFrom_raw]
    rfl
  | .withSubscript sub arg =>
    rw [AddendTree.build, ← Term.raw_zero, sub.build_raw, arg.buildFrom_raw]
    rfl

theorem SubscriptTree.build_raw (sub : SubscriptTree) : sub.build = .ok sub.value.raw := by
  match sub with
  | .braced _ sum => exact sum.buildFrom_raw .zero
  | .bare _ sum => exact sum.buildFrom_raw .zero

end

theorem SumTree.build_raw (sum : SumTree) : sum.build = .ok sum.value.raw :=
  sum.buildFrom_raw .zero

end Reader

end Collapsing
