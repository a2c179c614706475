/-!
# Evaluations with a threshold

An evaluation that is given a budget of levels has a *threshold* if the budget decides only whether
there is an outcome: from some budget on the outcome is always the same, and with less the evaluation
stops for want of levels.  So it never gives anything else, and a larger budget never spoils an
outcome.

The outcome may be a failure, as long as it is the same one under every budget that is enough.
Evaluations differ in what they may fail with, so the failure for want of levels is a parameter here.

## Main statements

- `bind`, `spend`, `transport`: how evaluations with a threshold are put together;
- `agrees`, `eventually`, `eq_of_le`, `exists_eq_ok_iff`: what the budget can and cannot change.
-/

namespace Collapsing

/-- From some budget on the evaluation has the given outcome, and below it fails with `stop`. -/
def HasThreshold {ε α : Type} (stop : ε) (eval : (budget : Nat) → Except ε α)
    (outcome : Except ε α) : Prop :=
  ∃ least, ∀ budget, eval budget = if least ≤ budget then outcome else .error stop

namespace HasThreshold

variable {ε δ α β : Type} {stop : ε} {stop' : δ} {eval : Nat → Except ε α} {outcome : Except ε α}

/-! ## §1 Evaluations put together -/

/-- An outcome for which no budget is needed. -/
theorem const (outcome : Except ε α) : HasThreshold stop (fun _ => outcome) outcome :=
  ⟨0, fun budget => (if_pos (Nat.zero_le budget)).symm⟩

theorem pure (a : α) : HasThreshold stop (fun _ => Pure.pure a) (.ok a) := const (.ok a)

/-- Two evaluations one after the other need the larger one of their budgets. -/
theorem bind {a : α} {next : Nat → α → Except ε β} {result : Except ε β}
    (h_first : HasThreshold stop eval (.ok a))
    (h_next : HasThreshold stop (fun budget => next budget a) result) :
    HasThreshold stop (fun budget => eval budget >>= next budget) result := by
  obtain ⟨m, eq_first⟩ := h_first
  obtain ⟨n, eq_next⟩ := h_next
  refine ⟨max m n, fun budget => ?_⟩
  simp only [eq_first, Nat.max_le]
  by_cases enough : m ≤ budget
  · simp only [enough, true_and]
    exact eq_next budget
  · simp only [enough, false_and, if_false]
    rfl

/-- An evaluation that spends one level on what it does. -/
theorem spend (none_left : eval 0 = .error stop)
    (h : HasThreshold stop (fun budget => eval (budget + 1)) outcome) :
    HasThreshold stop eval outcome := by
  obtain ⟨least, eq⟩ := h
  refine ⟨least + 1, fun budget => ?_⟩
  cases budget with
  | zero => rw [none_left, if_neg (Nat.not_succ_le_zero least)]
  | succ budget => simp only [eq, Nat.add_le_add_iff_right]

/-- What is made of an evaluation has the same threshold, if the failure for want of levels is still
one. -/
theorem transport (f : Except ε α → Except δ β) (stopped : f (.error stop) = .error stop')
    (h : HasThreshold stop eval outcome) :
    HasThreshold stop' (fun budget => f (eval budget)) (f outcome) := by
  obtain ⟨least, eq⟩ := h
  refine ⟨least, fun budget => ?_⟩
  simp only [eq, apply_ite f, stopped]

theorem map {a : α} (f : α → β) (h : HasThreshold stop eval (.ok a)) :
    HasThreshold stop (fun budget => f <$> eval budget) (.ok (f a)) :=
  h.transport (f <$> ·) rfl

/-! ## §2 What the budget changes -/

theorem agrees (h : HasThreshold stop eval outcome) (budget : Nat) :
    eval budget = outcome ∨ eval budget = .error stop := by
  obtain ⟨least, eq⟩ := h
  rw [eq]
  split
  · exact .inl rfl
  · exact .inr rfl

theorem eventually (h : HasThreshold stop eval outcome) :
    ∃ least, ∀ budget, least ≤ budget → eval budget = outcome := by
  obtain ⟨least, eq⟩ := h
  exact ⟨least, fun budget enough => by rw [eq, if_pos enough]⟩

theorem exists_eq (h : HasThreshold stop eval outcome) : ∃ budget, eval budget = outcome := by
  obtain ⟨least, reached⟩ := h.eventually
  exact ⟨least, reached least (Nat.le_refl least)⟩

/-- A budget that is enough stays enough when it is raised. -/
theorem eq_of_le (h : HasThreshold stop eval outcome) {budget larger : Nat} (le : budget ≤ larger)
    (enough : eval budget ≠ .error stop) : eval larger = eval budget := by
  obtain ⟨least, eq⟩ := h
  have least_le : least ≤ budget := by
    apply Decidable.byContradiction
    intro not_le
    exact enough (by rw [eq, if_neg not_le])
  rw [eq, eq, if_pos least_le, if_pos (Nat.le_trans least_le le)]

/-- Some budget is enough for a value exactly if it is the outcome. -/
theorem exists_eq_ok_iff (h : HasThreshold stop eval outcome) (a : α) :
    (∃ budget, eval budget = .ok a) ↔ outcome = .ok a := by
  constructor
  · rintro ⟨budget, value⟩
    rcases h.agrees budget with reached | stopped
    · rw [← reached, value]
    · rw [stopped] at value
      cases value
  · intro value
    rw [← value]
    exact h.exists_eq

end HasThreshold

end Collapsing
