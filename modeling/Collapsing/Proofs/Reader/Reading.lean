import Collapsing.Proofs.Reader.Acceptance
import Collapsing.Proofs.Reader.Tokens
import Collapsing.Reader.Read

/-!
# Reading is parsing

A text denotes a term exactly if it can be cut into tokens that the grammar derives, and the term
is the value of the derivation.  The two halves meet in the run over the lexemes of a scan, which
is a run over their tokens.

## Main statements

- `read_eq_ok_iff_derivation`: the texts that are read, and the terms they denote;
- `read_grammar`: the reader accepts its grammar and nothing else, and no text has two derivations.
-/

namespace Collapsing.Reader

/-- Spellings and columns do not matter for a run that refuses nothing. -/
theorem run_eq_ok_iff (state next : State) (lexemes : List Lexeme) :
    run state lexemes = .ok next ↔ state.advance (lexemes.map Lexeme.token) = some next := by
  induction lexemes generalizing state with
  | nil => simp [run]
  | cons lexeme lexemes ih =>
    rw [run, List.map_cons, State.advance_cons]
    cases state.step lexeme.token with
    | none => simp
    | some state' => exact ih state'

theorem tokens_ne_nil (sum : SumTree) : sum.tokens ≠ [] := by
  obtain ⟨token, rest, eq, _⟩ := sum.exists_first
  rw [eq]
  exact List.cons_ne_nil token rest

/-- A text denotes the values of the derivations of its tokens. -/
theorem read_eq_ok_iff_derivation (text : Text) (t : Term) :
    read text = .ok t ↔ ∃ sum : SumTree, Splits text sum.tokens ∧ sum.value = t := by
  rw [read_eq_ok_iff]
  constructor
  · rintro ⟨_, stray, state, accepted, value⟩
    have split := splits_of_scan 1 text stray
    rw [run_eq_ok_iff] at accepted
    obtain ⟨sum, tokens, rfl⟩ := (accepts_iff _ t).1 ⟨state, accepted, value⟩
    rw [← tokens] at split
    exact ⟨sum, split, rfl⟩
  · rintro ⟨sum, split, rfl⟩
    obtain ⟨stray, tokens⟩ := scan_of_splits split 1
    obtain ⟨state, accepted, value⟩ := (accepts_iff sum.tokens sum.value).2 ⟨sum, rfl, rfl⟩
    rw [← tokens, ← run_eq_ok_iff] at accepted
    have not_blank : text.all Text.isBlank = false := by
      apply eq_false_of_ne_true
      intro blank
      exact tokens_ne_nil sum (split.eq_nil_of_blank blank)
    exact ⟨not_blank, stray, state, accepted, value⟩

theorem exists_error_iff {ε α : Type} (result : Except ε α) :
    (∃ e, result = .error e) ↔ ¬ ∃ a, result = .ok a := by
  cases result <;> simp

/-- **The reader accepts exactly its grammar**: a text denotes a term if and only if its tokens have
a derivation with this value; every other text is refused; and no list of tokens has two
derivations. -/
theorem read_grammar :
    (∀ (text : Text) (t : Term),
      read text = .ok t ↔ ∃ sum : SumTree, Splits text sum.tokens ∧ sum.value = t) ∧
    (∀ text : Text,
      (∃ e, read text = .error e) ↔ ¬ ∃ sum : SumTree, Splits text sum.tokens) ∧
    Function.Injective SumTree.tokens := by
  refine ⟨read_eq_ok_iff_derivation, ?_, fun s t => SumTree.eq_of_tokens_eq⟩
  intro text
  rw [exists_error_iff]
  simp only [read_eq_ok_iff_derivation]
  constructor
  · rintro none ⟨sum, split⟩
    exact none ⟨sum.value, sum, split, rfl⟩
  · rintro none ⟨t, sum, split, _⟩
    exact none ⟨sum, split⟩

/-- An unbraced subscript that is a sum, read by its derivation. -/
theorem read_grammar_unbraced :
    read "AA_0(0)+A(1)(2)".toList = .ok (.psi (.one + .omega) (.numeral 2)) :=
  (read_grammar.1 _ _).2
    ⟨.last (.withSubscript
      (.bare false (.more (.withSubscript (.bare true (.last (.number 0))) (.last (.number 0)))
        (.last (.oneOperand (.last (.number 1))))))
      (.last (.number 2))), (splits_iff 1 _ _).2 ⟨by decide +kernel, by decide +kernel⟩, rfl⟩

end Collapsing.Reader
