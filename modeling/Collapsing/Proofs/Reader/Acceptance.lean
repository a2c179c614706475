import Collapsing.Proofs.Reader.Grammar

/-!
# The machine accepts its grammar

What the pushdown machine accepts is what the grammar derives, with the same value.

- *Completeness* follows the trees: the yield of a sum takes the machine from the beginning of a
  sum to its end, whatever sums are open around it.
- *Soundness* follows the run.  A state is *explained* by the tokens that led to it if they can be
  cut into complete parts of a derivation, one group of parts for each open sum.  A step keeps a
  state explained (`Explained.step`), so a run does (`Explained.advance`); and an explained state
  with no sum open but the outermost one is the end of a derivation.

## Main statements

- `SumTree.advance_tokens`: the machine reads every derivation;
- `Explained.advance`: the parts of a derivation behind a state, along a run;
- `accepts_iff`: the accepted lists of tokens are the yields of derivations.
-/

namespace Collapsing.Reader

/-! ## §1 Runs over tokens -/

/-- The state after a list of tokens, if none of them is refused. -/
def State.advance (state : State) (tokens : List Token) : Option State :=
  tokens.foldlM State.step state

@[simp] theorem State.advance_nil (state : State) : state.advance [] = some state := rfl

@[simp] theorem State.advance_cons (state : State) (token : Token) (tokens : List Token) :
    state.advance (token :: tokens) = (state.step token).bind (·.advance tokens) := rfl

/-! ## §2 Completeness

Each statement is about the run over the yield of a tree and whatever follows it. -/

theorem step_head {token : Token} (h : token = .openBrace ∨ token.beginsAddend = true)
    (before : Term) (frames : List Frame) :
    (State.mk (.head before) frames).step token = beginSub before frames token := by
  rcases h with rfl | h
  · rfl
  · cases token with
    | head | omega | bigOmega | number => rfl
    | _ => cases h

theorem beginSub_of_beginsAddend {token : Token} (h : token.beginsAddend = true)
    (before : Term) (frames : List Frame) :
    beginSub before frames token =
      (State.mk (.addend .zero) (.bareSub before :: frames)).step token := by
  cases token with
  | head | omega | bigOmega | number => rfl
  | _ => cases h

/-- A subscript begins alike with and without `_`. -/
theorem advance_optionalUnderscore {token : Token}
    (h : token = .openBrace ∨ token.beginsAddend = true) (underscore : Bool) (before : Term)
    (frames : List Frame) (rest : List Token) :
    (State.mk (.head before) frames).advance (optionalUnderscore underscore ++ token :: rest) =
      (beginSub before frames token).bind (·.advance rest) := by
  cases underscore with
  | true => rfl
  | false =>
    show (State.mk (.head before) frames).advance (token :: rest) = _
    rw [State.advance_cons, step_head h]

mutual

/-- The yield of a sum takes the machine from its beginning to its end. -/
theorem SumTree.advance_tokens (sum : SumTree) (before : Term) (frames : List Frame)
    (rest : List Token) :
    (State.mk (.addend before) frames).advance (sum.tokens ++ rest) =
      (State.mk (.after (sum.valueFrom before)) frames).advance rest := by
  match sum with
  | .last addend => exact addend.advance_tokens before frames rest
  | .more addend sum =>
    rw [SumTree.tokens, List.append_assoc, addend.advance_tokens before frames]
    exact sum.advance_tokens (before + addend.value) frames rest

/-- The yield of an addend takes the machine behind the addend. -/
theorem AddendTree.advance_tokens (addend : AddendTree) (before : Term) (frames : List Frame)
    (rest : List Token) :
    (State.mk (.addend before) frames).advance (addend.tokens ++ rest) =
      (State.mk (.after (before + addend.value)) frames).advance rest := by
  match addend with
  | .number value => rfl
  | .omega => rfl
  | .bigOmega => rfl
  | .oneOperand arg =>
    simp only [AddendTree.tokens, List.cons_append, List.append_assoc]
    exact arg.advance_tokens .zero (.operand before :: frames) (.closeParen :: rest)
  | .twoOperands sub arg =>
    simp only [AddendTree.tokens, List.cons_append, List.append_assoc]
    refine (sub.advance_tokens .zero (.operand before :: frames) _).trans ?_
    exact arg.advance_tokens .zero (.argument before sub.value :: frames) (.closeParen :: rest)
  | .withSubscript sub arg =>
    simp only [AddendTree.tokens, List.cons_append, List.append_assoc]
    refine (sub.advance_tokens before frames _).trans ?_
    exact arg.advance_tokens .zero (.argument before sub.value :: frames) (.closeParen :: rest)

/-- The yield of a subscript, and the parenthesis after it, take the machine to the argument. -/
theorem SubscriptTree.advance_tokens (sub : SubscriptTree) (before : Term) (frames : List Frame)
    (rest : List Token) :
    (State.mk (.head before) frames).advance (sub.tokens ++ .openParen :: rest) =
      (State.mk (.addend .zero) (.argument before sub.value :: frames)).advance rest := by
  match sub with
  | .braced underscore sum =>
    simp only [SubscriptTree.tokens, List.cons_append, List.append_assoc]
    rw [advance_optionalUnderscore (.inl rfl)]
    exact sum.advance_tokens .zero (.bracedSub before :: frames) (.closeBrace :: .openParen :: rest)
  | .bare underscore sum =>
    obtain ⟨token, tokens, eq, begins⟩ := sum.exists_first
    simp only [SubscriptTree.tokens, List.append_assoc]
    rw [eq, List.cons_append, advance_optionalUnderscore (.inr begins),
      beginSub_of_beginsAddend begins, ← State.advance_cons, ← List.cons_append, ← eq]
    exact sum.advance_tokens .zero (.bareSub before :: frames) (.openParen :: rest)

end

/-! ## §3 Open sums

An open sum has read some addends, each with the `+` after it. -/

/-- The tokens of addends with `+` after each. -/
def openTokens (done : List AddendTree) : List Token :=
  done.flatMap fun addend => addend.tokens ++ [.plus]

/-- The sum of addends, from left to right. -/
def openValue (done : List AddendTree) : Term :=
  done.foldl (fun before addend => before + addend.value) .zero

/-- An open sum with its last addend. -/
def SumTree.close (done : List AddendTree) (last : AddendTree) : SumTree :=
  done.foldr .more (.last last)

/-- The addends of a sum. -/
def SumTree.addends : SumTree → List AddendTree
  | .last addend => [addend]
  | .more addend rest => addend :: rest.addends

theorem SumTree.tokens_close (done : List AddendTree) (last : AddendTree) :
    (close done last).tokens = openTokens done ++ last.tokens := by
  induction done with
  | nil => rfl
  | cons addend done ih =>
    show addend.tokens ++ .plus :: (close done last).tokens = _
    rw [ih]
    simp [openTokens]

theorem SumTree.value_close (done : List AddendTree) (last : AddendTree) :
    (close done last).value = openValue done + last.value := by
  have fold (before : Term) : (close done last).valueFrom before =
      done.foldl (fun before addend => before + addend.value) before + last.value := by
    induction done generalizing before with
    | nil => rfl
    | cons addend done ih => exact ih (before + addend.value)
  exact fold .zero

theorem SumTree.openTokens_addends (sum : SumTree) :
    openTokens sum.addends = sum.tokens ++ [.plus] := by
  match sum with
  | .last addend => simp [openTokens, addends, SumTree.tokens]
  | .more addend rest =>
    have ih := rest.openTokens_addends
    rw [openTokens] at ih
    simp [openTokens, addends, SumTree.tokens, ih]

theorem SumTree.openValue_addends (sum : SumTree) : openValue sum.addends = sum.value := by
  have fold (sum : SumTree) (before : Term) :
      sum.addends.foldl (fun before addend => before + addend.value) before =
        sum.valueFrom before := by
    induction sum using SumTree.addends.induct generalizing before with
    | case1 addend => rfl
    | case2 addend rest ih => exact ih (before + addend.value)
  exact fold sum .zero

/-! ## §4 Explained states -/

/-- The tokens before the innermost open sum, and the frames of the sums around it. -/
inductive Opened : List Frame → List Token → Prop where
  | outermost : Opened [] []
  | operand {frames tokens} (h : Opened frames tokens) (done : List AddendTree) :
      Opened (.operand (openValue done) :: frames)
        (tokens ++ openTokens done ++ [.head, .openParen])
  | twoOperands {frames tokens} (h : Opened frames tokens) (done : List AddendTree)
      (sub : SumTree) :
      Opened (.argument (openValue done) sub.value :: frames)
        (tokens ++ openTokens done ++ .head :: .openParen :: (sub.tokens ++ [.comma]))
  | withSubscript {frames tokens} (h : Opened frames tokens) (done : List AddendTree)
      (sub : SubscriptTree) :
      Opened (.argument (openValue done) sub.value :: frames)
        (tokens ++ openTokens done ++ .head :: (sub.tokens ++ [.openParen]))
  | bareSub {frames tokens} (h : Opened frames tokens) (done : List AddendTree)
      (underscore : Bool) :
      Opened (.bareSub (openValue done) :: frames)
        (tokens ++ openTokens done ++ .head :: optionalUnderscore underscore)
  | bracedSub {frames tokens} (h : Opened frames tokens) (done : List AddendTree)
      (underscore : Bool) :
      Opened (.bracedSub (openValue done) :: frames)
        (tokens ++ openTokens done ++ .head :: (optionalUnderscore underscore ++ [.openBrace]))

/-- The tokens that led to a state, cut into complete parts of a derivation. -/
inductive Explained : State → List Token → Prop where
  | addend {frames tokens} (h : Opened frames tokens) (done : List AddendTree) :
      Explained ⟨.addend (openValue done), frames⟩ (tokens ++ openTokens done)
  | after {frames tokens} (h : Opened frames tokens) (sum : SumTree) :
      Explained ⟨.after sum.value, frames⟩ (tokens ++ sum.tokens)
  | head {frames tokens} (h : Opened frames tokens) (done : List AddendTree) :
      Explained ⟨.head (openValue done), frames⟩ (tokens ++ openTokens done ++ [.head])
  | underscore {frames tokens} (h : Opened frames tokens) (done : List AddendTree) :
      Explained ⟨.underscore (openValue done), frames⟩
        (tokens ++ openTokens done ++ [.head, .underscore])
  | closedSub {frames tokens} (h : Opened frames tokens) (done : List AddendTree)
      (underscore : Bool) (sum : SumTree) :
      Explained ⟨.closedSub (openValue done) sum.value, frames⟩
        (tokens ++ openTokens done ++ .head :: (SubscriptTree.braced underscore sum).tokens)

theorem Explained.of_tokens_eq {state : State} {tokens tokens' : List Token}
    (h : Explained state tokens) (eq : tokens = tokens') : Explained state tokens' :=
  eq ▸ h

/-- The machine stands at the beginning of a sum. -/
theorem Opened.explained {frames : List Frame} {tokens : List Token} (h : Opened frames tokens) :
    Explained ⟨.addend .zero, frames⟩ tokens := by
  have explained := Explained.addend h []
  rwa [openTokens, List.flatMap_nil, List.append_nil] at explained

/-- The machine stands behind one more addend. -/
theorem Opened.explained_after {frames : List Frame} {tokens : List Token}
    (h : Opened frames tokens) (done : List AddendTree) (addend : AddendTree) :
    Explained ⟨.after (openValue done + addend.value), frames⟩
      (tokens ++ openTokens done ++ addend.tokens) := by
  have explained := Explained.after h (SumTree.close done addend)
  rwa [SumTree.value_close, SumTree.tokens_close, ← List.append_assoc] at explained

/-! ## §5 A step keeps a state explained -/

theorem explained_beginAddend {frames : List Frame} {tokens : List Token} {token : Token}
    {next : State} (h : Opened frames tokens) (done : List AddendTree)
    (step : beginAddend (openValue done) frames token = some next) :
    Explained next (tokens ++ openTokens done ++ [token]) := by
  cases token with
  | number value =>
    cases step
    exact h.explained_after done (.number value)
  | omega =>
    cases step
    exact h.explained_after done .omega
  | bigOmega =>
    cases step
    exact h.explained_after done .bigOmega
  | head =>
    cases step
    exact .head h done
  | _ => cases step

theorem explained_beginSub {frames : List Frame} {tokens : List Token} {token : Token}
    {next : State} (h : Opened frames tokens) (done : List AddendTree) (underscore : Bool)
    (step : beginSub (openValue done) frames token = some next) :
    Explained next
      (tokens ++ openTokens done ++ .head :: (optionalUnderscore underscore ++ [token])) := by
  by_cases brace : token = .openBrace
  · subst brace
    cases step
    exact (h.bracedSub done underscore).explained
  · rw [beginSub.eq_2 _ _ _ brace] at step
    have explained := explained_beginAddend (h.bareSub done underscore) [] step
    exact explained.of_tokens_eq (by simp [openTokens])

theorem explained_afterHead {frames : List Frame} {tokens : List Token} {token : Token}
    {next : State} (h : Opened frames tokens) (done : List AddendTree)
    (step : afterHead (openValue done) frames token = some next) :
    Explained next (tokens ++ openTokens done ++ [.head, token]) := by
  by_cases paren : token = .openParen
  · subst paren
    cases step
    exact (h.operand done).explained
  by_cases underscore : token = .underscore
  · subst underscore
    cases step
    exact .underscore h done
  · rw [afterHead.eq_3 _ _ _ paren underscore] at step
    exact explained_beginSub h done false step

theorem explained_continueSum {frames : List Frame} {tokens : List Token} {token : Token}
    {next : State} (h : Opened frames tokens) (sum : SumTree)
    (step : continueSum sum.value frames token = some next) :
    Explained next (tokens ++ sum.tokens ++ [token]) := by
  by_cases plus : token = .plus
  · subst plus
    rw [continueSum.eq_1] at step
    cases step
    have explained := Explained.addend h sum.addends
    rwa [sum.openValue_addends, sum.openTokens_addends, ← List.append_assoc] at explained
  -- Any other token has to close the sum, and the innermost frame says what becomes of it.
  cases h with
  | outermost => cases token with
    | plus => exact absurd rfl plus
    | _ => cases step
  | operand h done => cases token with
    | plus => exact absurd rfl plus
    | closeParen =>
      cases step
      have explained := h.explained_after done (.oneOperand sum)
      exact explained.of_tokens_eq (by simp [AddendTree.tokens])
    | comma =>
      cases step
      have explained := (h.twoOperands done sum).explained
      exact explained.of_tokens_eq (by simp)
    | _ => cases step
  | twoOperands h done sub => cases token with
    | plus => exact absurd rfl plus
    | closeParen =>
      cases step
      have explained := h.explained_after done (.twoOperands sub sum)
      exact explained.of_tokens_eq (by simp [AddendTree.tokens])
    | _ => cases step
  | withSubscript h done sub => cases token with
    | plus => exact absurd rfl plus
    | closeParen =>
      cases step
      have explained := h.explained_after done (.withSubscript sub sum)
      exact explained.of_tokens_eq (by simp [AddendTree.tokens])
    | _ => cases step
  | bareSub h done underscore => cases token with
    | plus => exact absurd rfl plus
    | openParen =>
      cases step
      have explained := (h.withSubscript done (.bare underscore sum)).explained
      exact explained.of_tokens_eq (by simp [SubscriptTree.tokens])
    | _ => cases step
  | bracedSub h done underscore => cases token with
    | plus => exact absurd rfl plus
    | closeBrace =>
      cases step
      have explained := Explained.closedSub h done underscore sum
      exact explained.of_tokens_eq (by simp [SubscriptTree.tokens])
    | _ => cases step

/-- **Step lemma**: a step keeps a state explained. -/
theorem Explained.step {state next : State} {tokens : List Token} {token : Token}
    (h : Explained state tokens) (step : state.step token = some next) :
    Explained next (tokens ++ [token]) := by
  cases h with
  | addend h done => exact explained_beginAddend h done step
  | after h sum => exact explained_continueSum h sum step
  | head h done =>
    have explained := explained_afterHead h done step
    exact explained.of_tokens_eq (by simp)
  | underscore h done =>
    have explained := explained_beginSub h done true step
    exact explained.of_tokens_eq (by simp [optionalUnderscore])
  | closedSub h done underscore sum =>
    cases token with
    | openParen =>
      cases step
      rw [List.append_assoc, List.cons_append]
      exact (h.withSubscript done (.braced underscore sum)).explained
    | _ => cases step

/-- A run keeps a state explained. -/
theorem Explained.advance {state next : State} {before tokens : List Token}
    (h : Explained state before) (run : state.advance tokens = some next) :
    Explained next (before ++ tokens) := by
  induction tokens generalizing state before with
  | nil =>
    cases run
    rwa [List.append_nil]
  | cons token tokens ih =>
    rw [State.advance_cons] at run
    obtain ⟨state', step, run⟩ := Option.bind_eq_some_iff.1 run
    have explained := ih (h.step step) run
    rwa [List.append_assoc] at explained

/-! ## §6 Acceptance -/

/-- **Acceptance**: a run ends with a value exactly on the yields of the derivations that have this
value. -/
theorem accepts_iff (tokens : List Token) (t : Term) :
    (∃ state, State.start.advance tokens = some state ∧ state.value? = some t) ↔
      ∃ sum : SumTree, sum.tokens = tokens ∧ sum.value = t := by
  constructor
  · rintro ⟨state, run, value⟩
    have explained := Opened.outermost.explained.advance run
    cases explained with
    | after h sum =>
      cases h with
      | outermost => exact ⟨sum, rfl, Option.some.inj value⟩
      | _ => cases value
    | _ => cases value
  · rintro ⟨sum, rfl, rfl⟩
    have run := sum.advance_tokens .zero [] []
    rw [List.append_nil] at run
    exact ⟨_, run, rfl⟩

end Collapsing.Reader
