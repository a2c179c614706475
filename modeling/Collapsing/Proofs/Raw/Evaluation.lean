import Collapsing.Limited.Term
import Collapsing.Proofs.Raw.Basic
import Collapsing.Reader.Error

/-!
# Evaluation of raw terms

Equality, order, degree and expansion of raw terms.  Nothing is known of the terms here, so whatever
is taken out of a sum is looked for, and whatever is put together again goes through the checks of
`sum?`.  An evaluation can therefore fail where the limited evaluation of terms cannot: because an
addend is missing, or because a check refuses a sum.

On raw forms of terms neither happens.  Under every budget the evaluation does what limited
evaluation does, step by step, and what is put together is the raw form of what limited evaluation
has in its place.

## Main statements

- `lessThan_raw`, `degree_raw`, `expand_raw`: evaluation of raw forms.
-/

namespace Collapsing

/-! ## §1 Attempts -/

/-- Why an evaluation of raw terms fails. -/
inductive Fault where
  /-- The steps are nested too deeply. -/
  | tooDeep
  /-- The degree of an argument is neither `0`, `1`, `ω` nor a principal term. -/
  | irregularDegree (arg degree : RawTerm)
  /-- An element of a fundamental sequence that is taken apart is not a principal term. -/
  | irregularElement (x index element : RawTerm)
  /-- An addend of an empty sum is asked for. -/
  | noAddend
  /-- A check refuses the request for a term. -/
  | refused (e : TermError)
  /-- A text cannot be read. -/
  | unreadable (e : ReadError)

/-- An evaluation of raw terms, which may fail. -/
abbrev Attempt (α : Type) := Except Fault α

/-- A stop of limited evaluation, told of raw forms. -/
def Stop.fault : Stop → Fault
  | .tooDeep => .tooDeep
  | .irregularDegree arg degree => .irregularDegree arg.raw degree.raw
  | .irregularElement x index element => .irregularElement x.raw index.raw element.raw

/-- What a limited evaluation gives, told of raw forms. -/
def Limited.attempt {α β : Type} (form : α → β) (eval : Limited α) : Attempt β :=
  (eval.map form).mapError Stop.fault

namespace Limited

section Attempt

variable {α β γ δ : Type} {form : α → β} {form' : γ → δ}

/-- Evaluations that agree on raw forms, one after the other. -/
theorem attempt_bind {first : Limited α} {first' : Attempt β} {next : α → Limited γ}
    {next' : β → Attempt δ} (h_first : first' = first.attempt form)
    (h_next : ∀ a, next' (form a) = (next a).attempt form') :
    first' >>= next' = (first >>= next).attempt form' := by
  rw [h_first]
  cases first with
  | error stop => rfl
  | ok a => exact h_next a

variable {first second : Limited Bool} {first' second' : Attempt Bool}

theorem attempt_and (h_first : first' = first.attempt id) (h_second : second' = second.attempt id) :
    (do if ← first' then second' else return false) =
      attempt id (do if ← first then second else return false) := by
  apply attempt_bind h_first
  intro holds
  cases holds with
  | false => rfl
  | true => exact h_second

theorem attempt_or (h_first : first' = first.attempt id) (h_second : second' = second.attempt id) :
    (do if ← first' then return true else second') =
      attempt id (do if ← first then return true else second) := by
  apply attempt_bind h_first
  intro holds
  cases holds with
  | false => exact h_second
  | true => rfl

end Attempt

end Limited

namespace RawTerm

/-! ## §2 Evaluation -/

/-- An addend, if there is one. -/
def found : Option RawTerm → Attempt RawTerm
  | some addend => return addend
  | none => throw .noAddend

/-- A term that had to pass a check. -/
def checked (request : Except TermError RawTerm) : Attempt RawTerm := request.mapError .refused

/-- Whether the term is `0`. -/
def isZero : RawTerm → Bool
  | zero => true
  | _ => false

/-- Whether the term is `1`. -/
def isOne : RawTerm → Bool
  | one => true
  | _ => false

/-- Whether the term is `ω`. -/
def isOmega : RawTerm → Bool
  | omega => true
  | _ => false

/-- Whether two terms are equal. -/
def equal : (budget : Nat) → RawTerm → RawTerm → Attempt Bool
  | 0, _, _ => throw .tooDeep
  | budget + 1, σ, τ =>
    match σ, τ with
    | zero, zero => return true
    | psi sub arg, psi sub' arg' => do
      if ← equal budget sub sub' then equal budget arg arg' else return false
    | sum addends, sum addends' => addendwise (equal budget) addends addends'
    | _, _ => return false
where
  /-- Whether two lists are equally long, and their elements agree in turn. -/
  addendwise (agree : RawTerm → RawTerm → Attempt Bool) : List RawTerm → List RawTerm → Attempt Bool
    | [], [] => return true
    | addend :: rest, addend' :: rest' => do
      if ← agree addend addend' then addendwise agree rest rest' else return false
    | _, _ => return false

/-- Whether `σ` lies below `τ`.  What remains of two sums after their first addends is put together
again. -/
def lessThan : (budget : Nat) → RawTerm → RawTerm → Attempt Bool
  | 0, _, _ => throw .tooDeep
  | _ + 1, zero, τ => return !τ.isZero
  | budget + 1, psi sub arg, τ => do
    match τ with
    | zero => return false
    | psi sub' arg' =>
      if ← lessThan budget sub sub' then return true
      else if ← equal budget sub sub' then lessThan budget arg arg'
      else return false
    | sum addends' =>
      let first' ← found addends'.head?
      if ← equal budget (psi sub arg) first' then return true
      else lessThan budget (psi sub arg) first'
  | budget + 1, sum addends, τ => do
    match τ with
    | zero => return false
    | psi sub' arg' => lessThan budget (← found addends.head?) (psi sub' arg')
    | sum addends' =>
      let first ← found addends.head?
      let first' ← found addends'.head?
      if ← lessThan budget first first' then return true
      else if ← equal budget first first' then
        let rest ← checked (ofAddends? addends.tail)
        let rest' ← checked (ofAddends? addends'.tail)
        lessThan budget rest rest'
      else return false

/-- The degree of a term. -/
def degree : (budget : Nat) → RawTerm → Attempt RawTerm
  | 0, _ => throw .tooDeep
  | _ + 1, zero => return zero
  | budget + 1, sum addends => do degree budget (← found addends.getLast?)
  | budget + 1, psi sub arg => do
    let degSub ← degree budget sub
    let degArg ← degree budget arg
    if degArg.isZero then
      if degSub.isZero || degSub.isOne then return psi sub arg else return degSub
    else return omega

/-- The element `x[y]` of the fundamental sequence of `x`.  What comes before the last addend of a
sum is put together again. -/
def expand : (budget : Nat) → (x y : RawTerm) → Attempt RawTerm
  | 0, _, _ => throw .tooDeep
  | _ + 1, zero, _ => return zero
  | budget + 1, sum addends, y => do
    let last ← expand budget (← found addends.getLast?) y
    let remains ← checked (ofAddends? addends.dropLast)
    checked (plus remains last)
  | budget + 1, psi sub arg, y => do
    let degSub ← degree budget sub
    let degArg ← degree budget arg
    if degArg.isZero then
      if degSub.isZero then return zero
      else if degSub.isOne then return y
      else return psi (← expand budget sub y) arg
    else if degArg.isOne then
      if (← degree budget y).isOne then
        let index ← expand budget y zero
        let left ← expand budget (psi sub arg) index
        checked (plus left (psi sub (← expand budget arg zero)))
      else return zero
    else if degArg.isOmega then return psi sub (← expand budget arg y)
    else match degArg with
      | psi c _ =>
        if (← degree budget y).isOne then
          let index ← expand budget y zero
          match ← expand budget (psi sub arg) index with
          | psi _ γ =>
            let inner ← expand budget c zero
            return psi sub (← expand budget arg (psi inner γ))
          | element => throw (.irregularElement (psi sub arg) index element)
        else
          let inner ← expand budget c zero
          return psi sub (← expand budget arg (psi inner zero))
      | degArg => throw (.irregularDegree arg degArg)

/-! ## §3 Parts of raw forms -/

theorem isZero_raw (t : Term) : t.raw.isZero = decide (t = .zero) := by
  match t with
  | .zero => rfl
  | .psi _ _ => simp [isZero]
  | .cons _ _ (.cons _ _ _) => simp [Term.raw_cons_cons, isZero]

theorem isOne_iff (τ : RawTerm) : τ.isOne = true ↔ τ = one := by
  unfold isOne
  split
  · simp
  · simpa using ‹_›

theorem isOne_raw (t : Term) : t.raw.isOne = decide (t = .one) := by
  rw [Bool.eq_iff_iff, isOne_iff, decide_eq_true_iff]
  exact Term.raw_injective.eq_iff' rfl

theorem isOmega_iff (τ : RawTerm) : τ.isOmega = true ↔ τ = omega := by
  unfold isOmega
  split
  · simp
  · simpa using ‹_›

theorem isOmega_raw (t : Term) : t.raw.isOmega = decide (t = .omega) := by
  rw [Bool.eq_iff_iff, isOmega_iff, decide_eq_true_iff]
  exact Term.raw_injective.eq_iff' rfl

/-- The last addend is found. -/
theorem getLast?_rawAddends (sub arg rest : Term) :
    (Term.cons sub arg rest).rawAddends.getLast? = some (Term.lastAddend sub arg rest).raw := by
  induction rest generalizing sub arg with
  | zero => rfl
  | cons sub' arg' rest _ _ ih =>
    rw [Term.rawAddends_cons, Term.rawAddends_cons, List.getLast?_cons_cons, ← Term.rawAddends_cons,
      ih, Term.lastAddend]

/-- What comes before the last addend. -/
theorem dropLast_rawAddends (t : Term) : t.rawAddends.dropLast = t.dropLast.rawAddends := by
  match t with
  | .zero => rfl
  | .psi _ _ => rfl
  | .cons sub arg (.cons sub' arg' rest) =>
    have ih := dropLast_rawAddends (.cons sub' arg' rest)
    rw [Term.dropLast_cons_cons, Term.rawAddends_cons sub arg, Term.rawAddends_cons sub arg, ← ih]
    rfl

/-- Addends of a term are put together again. -/
theorem checked_ofAddends?_rawAddends (t : Term) :
    checked (ofAddends? t.rawAddends) = return t.raw := by
  rw [ofAddends?_rawAddends]
  rfl

theorem checked_plus_raw (s t : Term) : checked (plus s.raw t.raw) = return (s + t).raw := by
  rw [plus_raw]
  rfl

/-! ## §4 Evaluation of raw forms -/

open Limited

theorem equal_raw (budget : Nat) (s t : Term) :
    equal budget s.raw t.raw = (Limited.equal budget s t).attempt id := by
  induction budget generalizing s t with
  | zero => rfl
  | succ budget ih =>
    -- The addends of two sums are compared with the budget that is left, so `ih` covers each pair.
    have addendwise_raw (s t : Term) :
        equal.addendwise (equal budget) s.rawAddends t.rawAddends =
          (Limited.equal.addendwise (Limited.equal budget) s t).attempt id := by
      induction s generalizing t with
      | zero => cases t <;> rfl
      | cons sub arg rest _ _ ih_rest =>
        cases t with
        | zero => rfl
        | cons sub' arg' rest' =>
          exact attempt_and (ih (.psi sub arg) (.psi sub' arg')) (ih_rest rest')
    match s, t with
    | .zero, .zero => rfl
    | .zero, .psi _ _ => rfl
    | .zero, .cons _ _ (.cons _ _ _) => rfl
    | .psi _ _, .zero => rfl
    | .psi sub arg, .psi sub' arg' => exact attempt_and (ih sub sub') (ih arg arg')
    | .psi _ _, .cons _ _ (.cons _ _ _) => rfl
    | .cons _ _ (.cons _ _ _), .zero => rfl
    | .cons _ _ (.cons _ _ _), .psi _ _ => rfl
    | .cons sub arg (.cons s a r), .cons sub' arg' (.cons s' a' r') =>
      exact addendwise_raw (.cons sub arg (.cons s a r)) (.cons sub' arg' (.cons s' a' r'))

/-- The order of raw forms: what remains of two sums is put together again without a failing check. -/
theorem lessThan_raw (budget : Nat) (s t : Term) :
    lessThan budget s.raw t.raw = (Limited.lessThan budget s t).attempt id := by
  induction budget generalizing s t with
  | zero => rfl
  | succ budget ih =>
    match s, t with
    | .zero, .zero => rfl
    | .zero, .psi _ _ => rfl
    | .zero, .cons _ _ (.cons _ _ _) => rfl
    | .psi _ _, .zero => rfl
    | .psi sub arg, .psi sub' arg' =>
      exact attempt_or (ih sub sub') (attempt_and (equal_raw budget sub sub') (ih arg arg'))
    | .psi sub arg, .cons sub' arg' (.cons _ _ _) =>
      exact attempt_or (equal_raw budget (.psi sub arg) (.psi sub' arg'))
        (ih (.psi sub arg) (.psi sub' arg'))
    | .cons _ _ (.cons _ _ _), .zero => rfl
    | .cons sub arg (.cons _ _ _), .psi sub' arg' => exact ih (.psi sub arg) (.psi sub' arg')
    | .cons sub arg (.cons s a r), .cons sub' arg' (.cons s' a' r') =>
      have remaining : (do
          let rest ← checked (ofAddends? (Term.cons s a r).rawAddends)
          let rest' ← checked (ofAddends? (Term.cons s' a' r').rawAddends)
          lessThan budget rest rest') =
          (Limited.lessThan budget (.cons s a r) (.cons s' a' r')).attempt id := by
        rw [checked_ofAddends?_rawAddends, checked_ofAddends?_rawAddends]
        exact ih (.cons s a r) (.cons s' a' r')
      exact attempt_or (ih (.psi sub arg) (.psi sub' arg'))
        (attempt_and (equal_raw budget (.psi sub arg) (.psi sub' arg')) remaining)

theorem degree_raw (budget : Nat) (t : Term) :
    degree budget t.raw = (Limited.degree budget t).attempt Term.raw := by
  induction budget generalizing t with
  | zero => rfl
  | succ budget ih =>
    match t with
    | .zero => rfl
    | .psi sub arg =>
      apply attempt_bind (ih sub)
      intro degSub
      apply attempt_bind (ih arg)
      intro degArg
      simp only [isZero_raw, isOne_raw, decide_eq_true_eq, Bool.or_eq_true]
      split
      · split <;> rfl
      · rfl
    | .cons s a (.cons sub arg rest) =>
      show (found (Term.cons s a (.cons sub arg rest)).rawAddends.getLast? >>= degree budget) = _
      rw [getLast?_rawAddends]
      exact ih (Term.lastAddend sub arg rest)

/-- One more nesting into the argument, whatever is nested. -/
theorem nest_raw {budget : Nat}
    (ih : ∀ x y : Term, expand budget x.raw y.raw = (Limited.expand budget x y).attempt Term.raw)
    (sub arg c γ : Term) :
    (do
      let inner ← expand budget c.raw zero
      return psi sub.raw (← expand budget arg.raw (psi inner γ.raw))) =
    attempt Term.raw (do
      let inner ← Limited.expand budget c .zero
      return .psi sub (← Limited.expand budget arg (.psi inner γ))) := by
  apply attempt_bind (ih c .zero)
  intro inner
  apply attempt_bind (ih arg (.psi inner γ))
  intro element
  rfl

/-- The rows of the table for principal terms, one after the other. -/
theorem expand_raw_psi {budget : Nat}
    (ih : ∀ x y : Term, expand budget x.raw y.raw = (Limited.expand budget x y).attempt Term.raw)
    (sub arg y : Term) :
    expand (budget + 1) (Term.psi sub arg).raw y.raw =
      (Limited.expand (budget + 1) (.psi sub arg) y).attempt Term.raw := by
  apply attempt_bind (degree_raw budget sub)
  intro degSub
  apply attempt_bind (degree_raw budget arg)
  intro degArg
  simp only [isZero_raw, isOne_raw, isOmega_raw, decide_eq_true_eq]
  split
  -- The argument is `0`, and the subscript decides.
  case isTrue degArg_zero =>
    subst degArg_zero
    split
    case isTrue degSub_zero =>
      subst degSub_zero
      rfl
    split
    case isTrue degSub_one =>
      subst degSub_one
      rfl
    dsimp only
    split
    case h_1 => contradiction
    case h_2 => contradiction
    case h_3 =>
      apply attempt_bind (ih sub y)
      intro element
      rfl
  split
  -- The argument is a successor.  The element before is extended, and both parts are raw forms.
  case isTrue degArg_one =>
    subst degArg_one
    apply attempt_bind (degree_raw budget y)
    intro degY
    simp only [isOne_raw, decide_eq_true_eq]
    split
    · apply attempt_bind (ih y .zero)
      intro index
      apply attempt_bind (ih (.psi sub arg) index)
      intro left
      apply attempt_bind (ih arg .zero)
      intro before
      exact checked_plus_raw left (.psi sub before)
    · rfl
  split
  -- The argument takes the index.
  case isTrue degArg_omega =>
    subst degArg_omega
    apply attempt_bind (ih arg y)
    intro element
    rfl
  -- The argument has a higher degree.  Limited evaluation tells the constants apart by patterns,
  -- so that the cases above have to be excluded once more.
  cases degArg with
  | zero => contradiction
  | cons c γ others =>
    cases others with
    | cons =>
      simp only [Term.raw_cons_cons]
      rfl
    | zero =>
      simp only [Term.raw_psi]
      split
      case h_1 => contradiction
      case h_2 => contradiction
      case h_3 => contradiction
      case h_4 same =>
        cases same
        apply attempt_bind (degree_raw budget y)
        intro degY
        simp only [isOne_raw, decide_eq_true_eq]
        split
        · apply attempt_bind (ih y .zero)
          intro index
          apply attempt_bind (ih (.psi sub arg) index)
          intro element
          -- Both evaluations stop at an element that is not principal.
          cases element with
          | zero => rfl
          | cons _ γ others =>
            cases others with
            | zero => exact nest_raw ih sub arg c γ
            | cons => rfl
        · exact nest_raw ih sub arg c .zero
      case h_5 not_principal => exact absurd rfl (not_principal _ _)

theorem expand_raw (budget : Nat) (x y : Term) :
    expand budget x.raw y.raw = (Limited.expand budget x y).attempt Term.raw := by
  induction budget generalizing x y with
  | zero => rfl
  | succ budget ih =>
    match x with
    | .zero => rfl
    | .psi sub arg => exact expand_raw_psi ih sub arg y
    | .cons s a (.cons sub arg rest) =>
      show (do
        let last ← found (Term.cons s a (.cons sub arg rest)).rawAddends.getLast?
        let element ← expand budget last y.raw
        let remains ← checked (ofAddends? (Term.cons s a (.cons sub arg rest)).rawAddends.dropLast)
        checked (plus remains element)) = _
      rw [getLast?_rawAddends, dropLast_rawAddends, checked_ofAddends?_rawAddends]
      apply attempt_bind (ih (Term.lastAddend sub arg rest) y)
      intro element
      exact checked_plus_raw _ element

end RawTerm

end Collapsing
