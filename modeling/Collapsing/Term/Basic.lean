/-!
# Terms of the 亞 notation

A term is a finite sum of *principal* terms `亞(sub, arg)`, where the subscript `sub` and the
argument `arg` are terms again.  The empty sum is `0`.

## Canonical by construction

A sum is stored as its first addend together with the sum of the others.  So a term is a
list of addends, no addend is `0` or a sum itself, and two terms denote the same sum
exactly when they are equal:

- `zero` is `0`;
- `cons sub arg rest` is `亞(sub, arg)` followed by the addends of `rest`.

Ordinal addition does not commute, so the order of the addends is part of the value.

## Main statements

- `zero_plus`, `plus_zero`, `plus_assoc`: terms are a monoid under `+`;
- `addends_plus`: addition puts the two lists of addends one after the other;
- `concat_addends`: a term is the sum of its addends.
-/

namespace Collapsing

/-- A sum of principal terms `亞(sub, arg)`, kept as its first addend and the rest. -/
inductive Term where
  /-- The empty sum `0`. -/
  | zero
  /-- The addend `亞(sub, arg)`, followed by the addends of `rest`. -/
  | cons (sub arg rest : Term)
  deriving DecidableEq, Repr, Inhabited

namespace Term

/-! ## §1 Principal terms and constants -/

/-- The principal term `亞(sub, arg)`. -/
@[match_pattern] abbrev psi (sub arg : Term) : Term := cons sub arg zero

/-- `1 = 亞(0, 0)`. -/
@[match_pattern] abbrev one : Term := psi zero zero

/-- `ω = 亞(0, 1)`. -/
@[match_pattern] abbrev omega : Term := psi zero one

/-- `Ω = 亞(1, 0)`. -/
@[match_pattern] abbrev bigOmega : Term := psi one zero

/-- Whether the term has exactly one addend. -/
def isPrincipal : Term → Bool
  | cons _ _ zero => true
  | _ => false

theorem isPrincipal_iff (t : Term) : t.isPrincipal = true ↔ ∃ sub arg, t = psi sub arg := by
  match t with
  | zero => simp [isPrincipal]
  | cons sub arg zero => simp [isPrincipal]
  | cons _ _ (cons _ _ _) => simp [isPrincipal]

/-! ## §2 Addition -/

/-- The sum `s + t`: the addends of `s`, then those of `t`. -/
def plus : Term → Term → Term
  | zero, t => t
  | cons sub arg rest, t => cons sub arg (plus rest t)

instance : Add Term := ⟨plus⟩

@[simp] theorem zero_plus (t : Term) : zero + t = t := rfl

@[simp] theorem cons_plus (sub arg rest t : Term) :
    cons sub arg rest + t = cons sub arg (rest + t) := rfl

@[simp] theorem plus_zero (t : Term) : t + zero = t := by
  induction t with
  | zero => rfl
  | cons sub arg rest _ _ ih => rw [cons_plus, ih]

theorem plus_assoc (r s t : Term) : r + s + t = r + (s + t) := by
  induction r with
  | zero => rfl
  | cons sub arg rest _ _ ih => simp only [cons_plus, ih]

/-! ## §3 Addends -/

/-- The addends of a term, from left to right: none for `0`, one for a principal term. -/
def addends : Term → List Term
  | zero => []
  | cons sub arg rest => psi sub arg :: addends rest

/-- The sum of a list of terms. -/
def concat (ts : List Term) : Term := ts.foldr (· + ·) zero

@[simp] theorem addends_zero : zero.addends = [] := rfl

@[simp] theorem addends_cons (sub arg rest : Term) :
    (cons sub arg rest).addends = psi sub arg :: rest.addends := rfl

@[simp] theorem concat_nil : concat [] = zero := rfl

@[simp] theorem concat_cons (t : Term) (ts : List Term) : concat (t :: ts) = t + concat ts := rfl

@[simp] theorem addends_plus (s t : Term) : (s + t).addends = s.addends ++ t.addends := by
  induction s with
  | zero => rfl
  | cons sub arg rest _ _ ih => simp [ih]

@[simp] theorem concat_addends (t : Term) : concat t.addends = t := by
  induction t with
  | zero => rfl
  | cons sub arg rest _ _ ih => simp [ih]

/-- Every addend is a principal term. -/
theorem isPrincipal_of_mem_addends {s t : Term} (h : s ∈ t.addends) : s.isPrincipal = true := by
  induction t with
  | zero => simp at h
  | cons sub arg rest _ _ ih =>
    rcases List.mem_cons.1 h with rfl | h
    · rfl
    · exact ih h

/-! ## §4 The last addend -/

/-- The term without its last addend.  For a successor `t + 1` this is its predecessor `t`. -/
def dropLast : Term → Term
  | zero => zero
  | cons _ _ zero => zero
  | cons sub arg (cons sub' arg' rest) => cons sub arg (dropLast (cons sub' arg' rest))

@[simp] theorem dropLast_zero : zero.dropLast = zero := rfl

@[simp] theorem dropLast_psi (sub arg : Term) : (psi sub arg).dropLast = zero := rfl

@[simp] theorem dropLast_cons_cons (sub arg sub' arg' rest : Term) :
    (cons sub arg (cons sub' arg' rest)).dropLast =
      cons sub arg (cons sub' arg' rest).dropLast := rfl

@[simp] theorem dropLast_plus_psi (t sub arg : Term) : (t + psi sub arg).dropLast = t := by
  induction t with
  | zero => rfl
  | cons sub' arg' rest _ _ ih =>
    cases rest with
    | zero => rfl
    | cons a b r => rw [cons_plus, cons_plus, dropLast_cons_cons, ← cons_plus, ih]

/-- The last addend of the sum that begins with `亞(sub, arg)` and goes on with `rest`. -/
def lastAddend (sub arg : Term) : (rest : Term) → Term
  | zero => psi sub arg
  | cons sub' arg' rest => lastAddend sub' arg' rest

/-! ## §5 Parts of a term -/

theorem sizeOf_sub_lt (sub arg rest : Term) : sizeOf sub < sizeOf (cons sub arg rest) := by
  simp only [cons.sizeOf_spec]
  omega

theorem sizeOf_arg_lt (sub arg rest : Term) : sizeOf arg < sizeOf (cons sub arg rest) := by
  simp only [cons.sizeOf_spec]
  omega

theorem sizeOf_rest_lt (sub arg rest : Term) : sizeOf rest < sizeOf (cons sub arg rest) := by
  simp only [cons.sizeOf_spec]
  omega

/-- Dropping an addend makes a term smaller. -/
theorem sizeOf_dropLast_lt {t : Term} (h : t ≠ zero) : sizeOf t.dropLast < sizeOf t := by
  match t with
  | zero => exact absurd rfl h
  | cons sub arg zero =>
    simp only [dropLast_psi, zero.sizeOf_spec, cons.sizeOf_spec]
    omega
  | cons sub arg (cons sub' arg' rest) =>
    have ih := sizeOf_dropLast_lt (t := cons sub' arg' rest) (by simp)
    rw [dropLast_cons_cons]
    simp only [cons.sizeOf_spec] at ih ⊢
    omega

/-- The argument of the first addend, and `0` for the term `0`. -/
def leadingArg : Term → Term
  | zero => zero
  | cons _ arg _ => arg

end Term

end Collapsing
