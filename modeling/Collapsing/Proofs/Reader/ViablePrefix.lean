import Collapsing.Proofs.Reader.Acceptance

/-!
# Viable prefixes

A list of tokens is *viable* if some continuation completes it to a derivable list.  The machine
reads exactly the viable lists: it refuses a token at the first place where no continuation can
help, and not before.

## Background

What has led to a state is a list of complete parts of a derivation, one group for each open sum.
So the sums can be closed one after the other from the inside, each by the shortest text that will
do: a sum that has just begun gets the number `0`, and a frame gets whatever it still lacks of its
addend.  In the other direction a derivable list is read to its end, so no token at its front is
refused.

## Main statements

- `Opened.viable`: a complete sum can stand wherever a sum has begun;
- `viable_iff_advance`: the machine reads the viable lists;
- `step_eq_none_iff`: a token is refused exactly if no derivable list continues like this.
-/

namespace Collapsing.Reader

/-- Some continuation completes the tokens to a derivable list. -/
def Viable (tokens : List Token) : Prop := ∃ sum : SumTree, tokens <+: sum.tokens

/-! ## §1 Closing the open sums -/

/-- An addend begins with `part`, and it is an addend of a sum that may stand here. -/
theorem viable_part {tokens part : List Token}
    (h : ∀ sum : SumTree, Viable (tokens ++ sum.tokens)) (done : List AddendTree)
    {addend : AddendTree} (begins : part <+: addend.tokens) :
    Viable (tokens ++ openTokens done ++ part) := by
  obtain ⟨whole, inside⟩ := h (SumTree.close done addend)
  have shorter : tokens ++ openTokens done ++ part <+:
      tokens ++ (SumTree.close done addend).tokens := by
    rw [SumTree.tokens_close, ← List.append_assoc, List.prefix_append_right_inj]
    exact begins
  exact ⟨whole, shorter.trans inside⟩

/-- A complete sum behind the opening of an addend, where that addend may stand. -/
theorem viable_inside {tokens opening : List Token}
    (h : ∀ sum : SumTree, Viable (tokens ++ sum.tokens)) (done : List AddendTree)
    {addend : AddendTree} {sum : SumTree} (begins : opening ++ sum.tokens <+: addend.tokens) :
    Viable (tokens ++ openTokens done ++ opening ++ sum.tokens) := by
  rw [List.append_assoc]
  exact viable_part h done begins

/-- The derivation of the number `0`, which completes a sum that has just begun. -/
def SumTree.zero : SumTree := .last (.number 0)

/-- **Closing a frame**: wherever a sum has begun, every complete sum is viable. -/
theorem Opened.viable {frames : List Frame} {tokens : List Token} (h : Opened frames tokens)
    (sum : SumTree) : Viable (tokens ++ sum.tokens) := by
  induction h generalizing sum with
  | outermost => exact ⟨sum, List.prefix_rfl⟩
  | operand _ done ih =>
    have begins : [.head, .openParen] ++ sum.tokens <+: (AddendTree.oneOperand sum).tokens :=
      ⟨[.closeParen], by simp [AddendTree.tokens]⟩
    exact viable_inside ih done begins
  | twoOperands _ done sub ih =>
    have begins : .head :: .openParen :: (sub.tokens ++ [.comma]) ++ sum.tokens <+:
        (AddendTree.twoOperands sub sum).tokens := ⟨[.closeParen], by simp [AddendTree.tokens]⟩
    exact viable_inside ih done begins
  | withSubscript _ done sub ih =>
    have begins : .head :: (sub.tokens ++ [.openParen]) ++ sum.tokens <+:
        (AddendTree.withSubscript sub sum).tokens := ⟨[.closeParen], by simp [AddendTree.tokens]⟩
    exact viable_inside ih done begins
  | bareSub _ done underscore ih =>
    -- The subscript is complete, and its argument may be `0`.
    have begins : .head :: optionalUnderscore underscore ++ sum.tokens <+:
        (AddendTree.withSubscript (.bare underscore sum) .zero).tokens :=
      ⟨.openParen :: (SumTree.zero.tokens ++ [.closeParen]),
        by simp [AddendTree.tokens, SubscriptTree.tokens]⟩
    exact viable_inside ih done begins
  | bracedSub _ done underscore ih =>
    have begins : .head :: (optionalUnderscore underscore ++ [.openBrace]) ++ sum.tokens <+:
        (AddendTree.withSubscript (.braced underscore sum) .zero).tokens :=
      ⟨.closeBrace :: .openParen :: (SumTree.zero.tokens ++ [.closeParen]),
        by simp [AddendTree.tokens, SubscriptTree.tokens]⟩
    exact viable_inside ih done begins

/-- What has led to a state is viable. -/
theorem Explained.viable {state : State} {tokens : List Token} (h : Explained state tokens) :
    Viable tokens := by
  cases h with
  | addend h done =>
    -- No part of the next addend has been read yet.
    have closed := viable_part h.viable done (List.nil_prefix (l := (AddendTree.number 0).tokens))
    rwa [List.append_nil] at closed
  | after h sum => exact h.viable sum
  | head h done =>
    -- The shortest addend with the letter in front is `亞(0)`.
    have begins : [.head] <+: (AddendTree.oneOperand .zero).tokens := ⟨_, rfl⟩
    exact viable_part h.viable done begins
  | underscore h done =>
    have begins : [.head, .underscore] <+:
        (AddendTree.withSubscript (.bare true .zero) .zero).tokens := ⟨_, rfl⟩
    exact viable_part h.viable done begins
  | closedSub h done underscore sum =>
    have begins : .head :: (SubscriptTree.braced underscore sum).tokens <+:
        (AddendTree.withSubscript (.braced underscore sum) .zero).tokens :=
      ⟨.openParen :: (SumTree.zero.tokens ++ [.closeParen]), by simp [AddendTree.tokens]⟩
    exact viable_part h.viable done begins

/-! ## §2 What the machine reads -/

theorem State.advance_append (state : State) (s t : List Token) :
    state.advance (s ++ t) = (state.advance s).bind (·.advance t) :=
  List.foldlM_append

/-- **Correct prefixes**: the machine reads a list of tokens exactly if it is viable. -/
theorem viable_iff_advance (tokens : List Token) :
    Viable tokens ↔ ∃ state, State.start.advance tokens = some state := by
  constructor
  · rintro ⟨sum, rest, eq⟩
    have run := sum.advance_tokens .zero [] []
    rw [List.append_nil, ← eq, State.advance_nil] at run
    -- The run goes through the front part before it reads the rest.
    rw [State.advance_append, Option.bind_eq_some_iff] at run
    obtain ⟨state, front, _⟩ := run
    exact ⟨state, front⟩
  · rintro ⟨state, run⟩
    have explained := Opened.outermost.explained.advance run
    exact explained.viable

/-- **Refusal**: after a list that has been read, the machine refuses a token exactly if no
derivable list begins with the list and the token. -/
theorem step_eq_none_iff {tokens : List Token} {state : State}
    (run : State.start.advance tokens = some state) (token : Token) :
    state.step token = none ↔ ¬ Viable (tokens ++ [token]) := by
  rw [viable_iff_advance, State.advance_append, run, Option.bind_some, State.advance_cons]
  cases state.step token with
  | none => simp
  | some next => simp

/-- A list that has been read is derivable if the text may end there, and only then. -/
theorem value?_eq_none_iff {tokens : List Token} {state : State}
    (run : State.start.advance tokens = some state) :
    state.value? = none ↔ ¬ ∃ sum : SumTree, sum.tokens = tokens := by
  rw [Option.eq_none_iff_forall_ne_some]
  constructor
  · rintro none ⟨sum, derived⟩
    obtain ⟨state', run', value⟩ := (accepts_iff tokens sum.value).2 ⟨sum, derived, rfl⟩
    cases run.symm.trans run'
    exact none _ value
  · intro none t value
    obtain ⟨sum, derived, _⟩ := (accepts_iff tokens t).1 ⟨state, run, value⟩
    exact none ⟨sum, derived⟩

end Collapsing.Reader
