import Collapsing.Term.Numeral

/-!
# Checked construction of terms

A caller may ask for a numeral by an integer, or hand over a list of terms and ask for
their sum.  These requests can be wrong, and `TermError` names the ways.  Everything that
is built here is a term, so it is canonical; the checks only guard the request.
-/

namespace Collapsing

/-- What can be wrong with a request for a term. -/
inductive TermError where
  /-- A numeral was asked for by a negative integer. -/
  | negativeNumeral (n : Int)
  /-- The largest of no terms was asked for. -/
  | noTerms
  /-- A sum of fewer than two addends was asked for. -/
  | tooFewAddends
  /-- One of the addends is `0` or a sum itself. -/
  | addendNotPrincipal
  deriving DecidableEq, Repr

/-- The wording of a term error. -/
def TermError.message : TermError → String
  | .negativeNumeral n => "Numerals must be non-negative, got " ++ toString n
  | .noTerms => "max_term() needs at least one term"
  | .tooFewAddends => "A sum needs at least two addends"
  | .addendNotPrincipal => "Addends of a sum must be principal terms"

namespace Term

/-- The numeral of an integer, which must not be negative. -/
def numeral? : Int → Except TermError Term
  | .ofNat n => .ok (numeral n)
  | .negSucc n => .error (.negativeNumeral (.negSucc n))

/-- The sum of at least two terms, all of them principal.  The number is checked first. -/
def sum? (ts : List Term) : Except TermError Term :=
  if ts.length < 2 then .error .tooFewAddends
  else if ts.all isPrincipal then .ok (concat ts)
  else .error .addendNotPrincipal

/-- The term with the given addends: `0` for none, the term itself for a single one (which
need not be principal), and a checked sum otherwise. -/
def ofAddends? : List Term → Except TermError Term
  | [] => .ok zero
  | [t] => .ok t
  | ts => sum? ts

/-- The addends of a term give the term back. -/
theorem ofAddends?_addends (t : Term) : ofAddends? t.addends = .ok t := by
  match t with
  | zero => rfl
  | cons sub arg zero => rfl
  | cons sub arg (cons sub' arg' rest) =>
    have all : (cons sub arg (cons sub' arg' rest)).addends.all isPrincipal = true :=
      List.all_eq_true.2 fun _ h => isPrincipal_of_mem_addends h
    have sum := concat_addends (cons sub arg (cons sub' arg' rest))
    rw [addends_cons, addends_cons] at all sum ⊢
    simp only [ofAddends?, sum?, List.length_cons, all, sum]
    rw [if_neg (by omega), if_pos trivial]

end Term

end Collapsing
