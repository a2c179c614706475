import Collapsing.Reader.Machine

/-!
# The grammar of terms

Derivations of the grammar that the machine follows, as syntax trees over tokens:

- `sum ::= addend ("+" addend)*`
- `addend ::= number | "ω" | "Ω" | head "(" sum ")" | head "(" sum "," sum ")"
  | head subscript "(" sum ")"`
- `subscript ::= "_"? "{" sum "}" | "_"? sum`

A tree has a *yield*, the tokens at its leaves, and a *value*, the term that it denotes.  A list of
tokens is derivable if it is the yield of a tree.

An unbraced subscript is a whole sum without an end mark of its own.  The grammar is unambiguous
all the same: an addend ends by itself, and a sum goes on exactly as long as a `+` follows.

## Main statements

- `SumTree.eq_of_tokens_eq`: two trees with the same yield are equal.
-/

namespace Collapsing.Reader

/-! ## §1 Derivations -/

mutual

/-- Derivations of a sum. -/
inductive SumTree where
  | last (addend : AddendTree)
  | more (addend : AddendTree) (rest : SumTree)

/-- Derivations of an addend. -/
inductive AddendTree where
  | number (value : Nat)
  | omega
  | bigOmega
  | oneOperand (arg : SumTree)
  | twoOperands (sub arg : SumTree)
  | withSubscript (sub : SubscriptTree) (arg : SumTree)

/-- Derivations of a subscript, with or without `_` in front. -/
inductive SubscriptTree where
  | braced (underscore : Bool) (sum : SumTree)
  | bare (underscore : Bool) (sum : SumTree)

end

/-- An optional `_`. -/
def optionalUnderscore (underscore : Bool) : List Token := if underscore then [.underscore] else []

/-! ## §2 Yields -/

mutual

/-- The tokens of a sum. -/
def SumTree.tokens : SumTree → List Token
  | .last addend => addend.tokens
  | .more addend rest => addend.tokens ++ .plus :: rest.tokens

/-- The tokens of an addend. -/
def AddendTree.tokens : AddendTree → List Token
  | .number value => [.number value]
  | .omega => [.omega]
  | .bigOmega => [.bigOmega]
  | .oneOperand arg => .head :: .openParen :: (arg.tokens ++ [.closeParen])
  | .twoOperands sub arg =>
    .head :: .openParen :: (sub.tokens ++ .comma :: (arg.tokens ++ [.closeParen]))
  | .withSubscript sub arg => .head :: (sub.tokens ++ .openParen :: (arg.tokens ++ [.closeParen]))

/-- The tokens of a subscript. -/
def SubscriptTree.tokens : SubscriptTree → List Token
  | .braced underscore sum =>
    optionalUnderscore underscore ++ .openBrace :: (sum.tokens ++ [.closeBrace])
  | .bare underscore sum => optionalUnderscore underscore ++ sum.tokens

end

/-! ## §3 Values -/

mutual

/-- The sum of the addends of a tree, from left to right, added to `before`. -/
def SumTree.valueFrom (before : Term) : SumTree → Term
  | .last addend => before + addend.value
  | .more addend rest => rest.valueFrom (before + addend.value)

/-- The term that an addend denotes. -/
def AddendTree.value : AddendTree → Term
  | .number value => Term.numeral value
  | .omega => Term.omega
  | .bigOmega => Term.bigOmega
  | .oneOperand arg => Term.psi .zero (arg.valueFrom .zero)
  | .twoOperands sub arg => Term.psi (sub.valueFrom .zero) (arg.valueFrom .zero)
  | .withSubscript sub arg => Term.psi sub.value (arg.valueFrom .zero)

/-- The term that a subscript denotes. -/
def SubscriptTree.value : SubscriptTree → Term
  | .braced _ sum => sum.valueFrom .zero
  | .bare _ sum => sum.valueFrom .zero

end

/-- The term that a sum denotes. -/
def SumTree.value (sum : SumTree) : Term := sum.valueFrom .zero

theorem SumTree.valueFrom_eq (sum : SumTree) (before : Term) :
    sum.valueFrom before = before + sum.value := by
  match sum with
  | .last addend => rw [value, valueFrom, valueFrom, Term.zero_plus]
  | .more addend rest =>
    rw [value, valueFrom, valueFrom, rest.valueFrom_eq (before + addend.value),
      rest.valueFrom_eq (.zero + addend.value), Term.zero_plus, Term.plus_assoc]

/-! ## §4 First tokens -/

/-- Whether an addend can begin with the token. -/
def Token.beginsAddend : Token → Bool
  | .head | .omega | .bigOmega | .number _ => true
  | _ => false

theorem AddendTree.exists_first (addend : AddendTree) :
    ∃ token rest, addend.tokens = token :: rest ∧ token.beginsAddend = true := by
  cases addend with
  | number value => exact ⟨_, _, rfl, rfl⟩
  | omega => exact ⟨_, _, rfl, rfl⟩
  | bigOmega => exact ⟨_, _, rfl, rfl⟩
  | oneOperand arg => exact ⟨_, _, rfl, rfl⟩
  | twoOperands sub arg => exact ⟨_, _, rfl, rfl⟩
  | withSubscript sub arg => exact ⟨_, _, rfl, rfl⟩

theorem SumTree.exists_first (sum : SumTree) :
    ∃ token rest, sum.tokens = token :: rest ∧ token.beginsAddend = true := by
  cases sum with
  | last addend => exact addend.exists_first
  | more addend rest =>
    obtain ⟨token, tokens, eq, begins⟩ := addend.exists_first
    refine ⟨token, tokens ++ .plus :: rest.tokens, ?_, begins⟩
    rw [SumTree.tokens, eq, List.cons_append]

theorem head?_ne_underscore {token : Token} {tokens : List Token}
    (h : token.beginsAddend = true) : (token :: tokens).head? ≠ some .underscore := by
  rintro ⟨⟩
  cases h

theorem SumTree.head?_ne_underscore (sum : SumTree) (tokens : List Token) :
    (sum.tokens ++ tokens).head? ≠ some .underscore := by
  obtain ⟨token, rest, eq, begins⟩ := sum.exists_first
  rw [eq, List.cons_append]
  exact Reader.head?_ne_underscore begins

theorem SubscriptTree.exists_first (sub : SubscriptTree) :
    ∃ token rest, sub.tokens = token :: rest ∧ token ≠ .openParen := by
  match sub with
  | .braced true sum => exact ⟨_, _, rfl, by simp⟩
  | .braced false sum => exact ⟨_, _, rfl, by simp⟩
  | .bare true sum => exact ⟨_, _, rfl, by simp⟩
  | .bare false sum =>
    obtain ⟨token, rest, eq, begins⟩ := sum.exists_first
    refine ⟨token, rest, eq, ?_⟩
    rintro rfl
    cases begins

/-! ## §5 Unambiguity

Two derivations are compared from the left, together with what follows each of them. -/

theorem optionalUnderscore_append_inj {p q : Bool} {u v : List Token}
    (h : optionalUnderscore p ++ u = optionalUnderscore q ++ v)
    (hu : u.head? ≠ some .underscore) (hv : v.head? ≠ some .underscore) : p = q ∧ u = v := by
  match p, q with
  | true, true => exact ⟨rfl, (List.cons.inj h).2⟩
  | true, false => exact absurd (congrArg List.head? h).symm hv
  | false, true => exact absurd (congrArg List.head? h) hu
  | false, false => exact ⟨rfl, h⟩

mutual

/-- A sum ends where no `+` follows. -/
theorem SumTree.tokens_append_inj (s t : SumTree) {u v : List Token}
    (h : s.tokens ++ u = t.tokens ++ v) (hu : u.head? ≠ some .plus) (hv : v.head? ≠ some .plus) :
    s = t ∧ u = v := by
  match s, t with
  | .last a, .last b =>
    obtain ⟨rfl, rest⟩ := a.tokens_append_inj b h
    exact ⟨rfl, rest⟩
  | .last a, .more b t =>
    rw [SumTree.tokens, SumTree.tokens, List.append_assoc] at h
    obtain ⟨_, rfl⟩ := a.tokens_append_inj b h
    exact absurd rfl hu
  | .more a s, .last b =>
    rw [SumTree.tokens, SumTree.tokens, List.append_assoc] at h
    obtain ⟨_, rfl⟩ := a.tokens_append_inj b h
    exact absurd rfl hv
  | .more a s, .more b t =>
    rw [SumTree.tokens, SumTree.tokens, List.append_assoc, List.append_assoc] at h
    obtain ⟨rfl, h_rest⟩ := a.tokens_append_inj b h
    obtain ⟨rfl, follow⟩ := s.tokens_append_inj t (List.cons.inj h_rest).2 hu hv
    exact ⟨rfl, follow⟩

/-- An addend ends by itself. -/
theorem AddendTree.tokens_append_inj (a b : AddendTree) {u v : List Token}
    (h : a.tokens ++ u = b.tokens ++ v) : a = b ∧ u = v := by
  -- The first token tells the constants from each other and from the terms with a head.
  cases a <;> cases b <;>
    simp only [AddendTree.tokens, List.cons_append, List.nil_append, List.append_assoc,
      List.cons.injEq, Token.number.injEq, reduceCtorEq, false_and, true_and] at h
  case number.number m n => exact ⟨by rw [h.1], h.2⟩
  case omega.omega => exact ⟨rfl, h⟩
  case bigOmega.bigOmega => exact ⟨rfl, h⟩
  -- After the first operand a parenthesis or a comma follows.
  case oneOperand.oneOperand x y =>
    obtain ⟨rfl, rest⟩ := x.tokens_append_inj y h (by simp) (by simp)
    exact ⟨rfl, (List.cons.inj rest).2⟩
  case oneOperand.twoOperands x s y =>
    obtain ⟨_, rest⟩ := x.tokens_append_inj s h (by simp) (by simp)
    cases rest
  case twoOperands.oneOperand s x y =>
    obtain ⟨_, rest⟩ := s.tokens_append_inj y h (by simp) (by simp)
    cases rest
  case twoOperands.twoOperands s x t y =>
    obtain ⟨rfl, h_arg⟩ := s.tokens_append_inj t h (by simp) (by simp)
    obtain ⟨rfl, rest⟩ := x.tokens_append_inj y (List.cons.inj h_arg).2 (by simp) (by simp)
    exact ⟨rfl, (List.cons.inj rest).2⟩
  -- A subscript does not begin with a parenthesis.
  case oneOperand.withSubscript x t y =>
    obtain ⟨token, rest, eq, ne⟩ := t.exists_first
    rw [eq] at h
    exact absurd (List.cons.inj h).1.symm ne
  case twoOperands.withSubscript s x t y =>
    obtain ⟨token, rest, eq, ne⟩ := t.exists_first
    rw [eq] at h
    exact absurd (List.cons.inj h).1.symm ne
  case withSubscript.oneOperand s x y =>
    obtain ⟨token, rest, eq, ne⟩ := s.exists_first
    rw [eq] at h
    exact absurd (List.cons.inj h).1 ne
  case withSubscript.twoOperands s x t y =>
    obtain ⟨token, rest, eq, ne⟩ := s.exists_first
    rw [eq] at h
    exact absurd (List.cons.inj h).1 ne
  case withSubscript.withSubscript s x t y =>
    obtain ⟨rfl, h_arg⟩ := s.tokens_append_inj t h
    obtain ⟨rfl, rest⟩ := x.tokens_append_inj y h_arg (by simp) (by simp)
    exact ⟨rfl, (List.cons.inj rest).2⟩

/-- A subscript ends at the parenthesis of the argument. -/
theorem SubscriptTree.tokens_append_inj (s t : SubscriptTree) {u v : List Token}
    (h : s.tokens ++ .openParen :: u = t.tokens ++ .openParen :: v) : s = t ∧ u = v := by
  match s, t with
  | .braced p x, .braced q y =>
    simp only [SubscriptTree.tokens, List.append_assoc, List.cons_append] at h
    obtain ⟨rfl, h_sum⟩ := optionalUnderscore_append_inj h (by simp) (by simp)
    obtain ⟨rfl, rest⟩ := x.tokens_append_inj y (List.cons.inj h_sum).2 (by simp) (by simp)
    exact ⟨rfl, (List.cons.inj (List.cons.inj rest).2).2⟩
  | .braced p x, .bare q y =>
    obtain ⟨token, rest, eq, begins⟩ := y.exists_first
    simp only [SubscriptTree.tokens, List.append_assoc, List.cons_append, eq] at h
    obtain ⟨rfl, h_sum⟩ := optionalUnderscore_append_inj h (by simp) (head?_ne_underscore begins)
    rw [← (List.cons.inj h_sum).1] at begins
    cases begins
  | .bare p x, .braced q y =>
    obtain ⟨token, rest, eq, begins⟩ := x.exists_first
    simp only [SubscriptTree.tokens, List.append_assoc, List.cons_append, eq] at h
    obtain ⟨rfl, h_sum⟩ := optionalUnderscore_append_inj h (head?_ne_underscore begins) (by simp)
    rw [(List.cons.inj h_sum).1] at begins
    cases begins
  | .bare p x, .bare q y =>
    simp only [SubscriptTree.tokens, List.append_assoc] at h
    obtain ⟨rfl, h_sum⟩ := optionalUnderscore_append_inj h (x.head?_ne_underscore _)
      (y.head?_ne_underscore _)
    obtain ⟨rfl, rest⟩ := x.tokens_append_inj y h_sum (by simp) (by simp)
    exact ⟨rfl, (List.cons.inj rest).2⟩

end

/-- **Unambiguity**: no list of tokens has two derivations. -/
theorem SumTree.eq_of_tokens_eq {s t : SumTree} (h : s.tokens = t.tokens) : s = t := by
  have appended : s.tokens ++ [] = t.tokens ++ [] := by rw [h]
  exact (s.tokens_append_inj t appended (by simp) (by simp)).1

end Collapsing.Reader
