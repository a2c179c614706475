import Collapsing.Limited.Stop
import Collapsing.Term.Expansion

/-!
# Limited evaluation: terms

Equality, order, degree and expansion, each with a budget of nested steps.  A step into a
part of a term, or to the predecessor of an index, spends one level; comparing with one of
the constants `0`, `1` and `ω` is free.  Only the steps that are really made count: an
operand that does not matter for the answer costs nothing.

Where the budget suffices, the results are those of the unlimited functions.
-/

namespace Collapsing.Limited

/-! ## §1 Equality -/

/-- Whether two terms are equal.  The addends of a sum are compared in turn. -/
def equal : (budget : Nat) → Term → Term → Limited Bool
  | 0, _, _ => throw .tooDeep
  | budget + 1, s, t =>
    match s, t with
    | .zero, .zero => return true
    | .psi sub arg, .psi sub' arg' => do
      if ← equal budget sub sub' then equal budget arg arg' else return false
    | .cons _ _ (.cons ..), .cons _ _ (.cons ..) => addendwise (equal budget) s t
    | _, _ => return false
where
  /-- Whether two terms have as many addends, and all of them agree. -/
  addendwise (agree : Term → Term → Limited Bool) : Term → Term → Limited Bool
    | .zero, .zero => return true
    | .cons sub arg rest, .cons sub' arg' rest' => do
      if ← agree (.psi sub arg) (.psi sub' arg') then addendwise agree rest rest'
      else return false
    | _, _ => return false

/-! ## §2 Order -/

/-- Whether `s` lies below `t`.  A principal term is compared with a sum through the first
addend of the sum, and two sums with equal first addends through what remains. -/
def lessThan : (budget : Nat) → Term → Term → Limited Bool
  | 0, _, _ => throw .tooDeep
  | _ + 1, .zero, t => return t ≠ .zero
  | _ + 1, .cons .., .zero => return false
  | budget + 1, .psi sub arg, .psi sub' arg' => do
    if ← lessThan budget sub sub' then return true
    else if ← equal budget sub sub' then lessThan budget arg arg'
    else return false
  | budget + 1, .psi sub arg, .cons sub' arg' (.cons ..) => do
    if ← equal budget (.psi sub arg) (.psi sub' arg') then return true
    else lessThan budget (.psi sub arg) (.psi sub' arg')
  | budget + 1, .cons sub arg (.cons ..), .psi sub' arg' =>
    lessThan budget (.psi sub arg) (.psi sub' arg')
  | budget + 1, .cons sub arg (.cons s a r), .cons sub' arg' (.cons s' a' r') => do
    if ← lessThan budget (.psi sub arg) (.psi sub' arg') then return true
    else if ← equal budget (.psi sub arg) (.psi sub' arg') then
      lessThan budget (.cons s a r) (.cons s' a' r')
    else return false

/-! ## §3 Degree -/

/-- The degree of a term. -/
def degree : (budget : Nat) → Term → Limited Term
  | 0, _ => throw .tooDeep
  | _ + 1, .zero => return .zero
  | budget + 1, .cons _ _ (.cons sub arg rest) => degree budget (Term.lastAddend sub arg rest)
  | budget + 1, .psi sub arg => do
    let degSub ← degree budget sub
    let degArg ← degree budget arg
    if degArg = .zero then
      if degSub = .zero ∨ degSub = .one then return .psi sub arg else return degSub
    else return .omega

/-! ## §4 Expansion -/

/-- The element `x[y]` of the fundamental sequence of `x`. -/
def expand : (budget : Nat) → (x y : Term) → Limited Term
  | 0, _, _ => throw .tooDeep
  | _ + 1, .zero, _ => return .zero
  | budget + 1, .cons sub arg (.cons sub' arg' rest), y => do
    let last ← expand budget (Term.lastAddend sub' arg' rest) y
    return (Term.cons sub arg (.cons sub' arg' rest)).dropLast + last
  | budget + 1, .psi sub arg, y => do
    let degSub ← degree budget sub
    let degArg ← degree budget arg
    match degArg with
    | .zero =>
      -- The argument is `0`, and the subscript decides.
      match degSub with
      | .zero => return .zero
      | .one => return y
      | _ => return .psi (← expand budget sub y) arg
    | .one =>
      -- One more copy of `亞(sub, arg[0])` for each step of the index.
      if (← degree budget y) = .one then
        let index ← expand budget y .zero
        let left ← expand budget (.psi sub arg) index
        return left + .psi sub (← expand budget arg .zero)
      else return .zero
    | .omega => return .psi sub (← expand budget arg y)
    | .psi c _ =>
      -- One more nesting into the argument for each step of the index.
      if (← degree budget y) = .one then
        let index ← expand budget y .zero
        match ← expand budget (.psi sub arg) index with
        | .psi _ γ =>
          let inner ← expand budget c .zero
          return .psi sub (← expand budget arg (.psi inner γ))
        | element => throw (.irregularElement (.psi sub arg) index element)
      else
        let inner ← expand budget c .zero
        return .psi sub (← expand budget arg (.psi inner .zero))
    | degArg => throw (.irregularDegree arg degArg)

end Collapsing.Limited
