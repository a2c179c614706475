import Collapsing.Proofs.Raw.Values
import Collapsing.Proofs.Reader.Reading
import Collapsing.Worksheet
import Mathlib.Data.List.GetD

/-!
# Worksheets of raw terms

A worksheet whose registers hold raw terms goes through the same constructions as a worksheet of
terms.  Here a construction can be refused by a check of a sum anywhere, also in the middle of an
addition, a comparison or an expansion, and nothing but these checks keeps a register from holding a
sum that is not in canonical form.

The registers that can be *reached* are those that constructions, each under a limit of its own,
append one after the other to the registers `0`, `1`, `ω` and `Ω`.

## Main statements

- `gives_iff`: on raw forms of registers, a construction gives the raw form of what it calculates;
- `reachable_iff_run`: what is reached are the raw forms of the registers of worksheets;
- `reachable_canonical`: canonical form is never lost.
-/

namespace Collapsing

open Worksheet (Construction Register StepError)

namespace RawTerm

/-! ## §1 Constructions -/

/-- The term in a register, counted round the list of registers. -/
def register (registers : List RawTerm) (number : Register) : RawTerm :=
  registers.getD (number % registers.length) zero

/-- What the construction gives on the registers, with `limit` as the budget of each evaluation. -/
def Gives (limit : Nat) (registers : List RawTerm) : Construction → Attempt RawTerm → Prop
  | .parse text, outcome =>
    (∃ sum : Reader.SumTree, Reader.Splits text sum.tokens ∧ outcome = checked sum.build) ∨
      ∃ e, Reader.read text = .error e ∧ outcome = .error (.unreadable e)
  | .psi sub arg, outcome => outcome = .ok (psi (register registers sub) (register registers arg))
  | .plus left right, outcome =>
    outcome = checked (plus (register registers left) (register registers right))
  | .numeral n, outcome => outcome = checked (numeral? n)
  | .ofAddends addends, outcome => outcome = checked (ofAddends? (addends.map (register registers)))
  | .sum addends, outcome => outcome = checked (sum? (addends.map (register registers)))
  | .expand x y, outcome => outcome = expand limit (register registers x) (register registers y)
  | .element x n, outcome =>
    outcome = (checked (numeral? n) >>= fun index => expand limit (register registers x) index)
  | .degree x, outcome => outcome = degree limit (register registers x)
  | .largest terms, outcome => outcome = largest limit (terms.map (register registers))

/-- Registers that constructions lead to. -/
inductive Reachable : List RawTerm → Prop where
  /-- The constants that a worksheet starts with. -/
  | start : Reachable [zero, one, omega, bigOmega]
  /-- A construction that does not fail appends what it gives. -/
  | step {registers : List RawTerm} {limit : Nat} {construction : Construction} {τ : RawTerm}
      (reachable : Reachable registers) (gives : Gives limit registers construction (.ok τ)) :
      Reachable (registers ++ [τ])

end RawTerm

/-! ## §2 Raw forms of registers -/

/-- Why a step fails, told of raw terms. -/
def Worksheet.StepError.fault : StepError → Fault
  | .unreadable e => .unreadable e
  | .refused e => .refused e

namespace Worksheet

/-- The registers in raw form. -/
def rawRegisters (sheet : Worksheet) : List RawTerm := sheet.registers.map Term.raw

/-- What a construction calculates, in raw form. -/
def rawOutcome (sheet : Worksheet) (construction : Construction) : Attempt RawTerm :=
  ((sheet.construct construction).map Term.raw).mapError StepError.fault

end Worksheet

namespace RawTerm

variable (sheet : Worksheet)

theorem register_raw (number : Register) :
    register sheet.rawRegisters number = (sheet.term number).raw := by
  unfold register Worksheet.rawRegisters Worksheet.term
  rw [List.length_map, ← Term.raw_zero, List.getD_map]

theorem map_register_raw (numbers : List Register) :
    numbers.map (register sheet.rawRegisters) = (numbers.map sheet.term).map Term.raw := by
  simp [register_raw]

theorem checked_raw (request : Except TermError Term) :
    checked (request.map Term.raw) =
      ((request.mapError StepError.refused).map Term.raw).mapError StepError.fault := by
  cases request <;> rfl

theorem gives_parse_iff (limit : Nat) (text : Text) (outcome : Attempt RawTerm) :
    Gives limit sheet.rawRegisters (.parse text) outcome ↔
      outcome = sheet.rawOutcome (.parse text) := by
  show Gives limit _ _ outcome ↔
    outcome = (((Reader.read text).mapError StepError.unreadable).map Term.raw).mapError _
  constructor
  · intro gives
    cases gives with
    | inl built =>
      -- The derivation is the one that the reader finds.
      obtain ⟨sum, split, rfl⟩ := built
      rw [(Reader.read_eq_ok_iff_derivation text sum.value).2 ⟨sum, split, rfl⟩, sum.build_raw]
      rfl
    | inr refused =>
      obtain ⟨e, unreadable, rfl⟩ := refused
      rw [unreadable]
      rfl
  · intro given
    cases read : Reader.read text with
    | error e =>
      rw [read] at given
      exact .inr ⟨e, read, given⟩
    | ok t =>
      obtain ⟨sum, split, rfl⟩ := (Reader.read_eq_ok_iff_derivation text t).1 read
      rw [read] at given
      refine .inl ⟨sum, split, ?_⟩
      rw [given, sum.build_raw]
      rfl

theorem gives_iff_of_reaches {construction : Construction} {eval : Nat → Attempt RawTerm}
    (gives : ∀ limit outcome,
      Gives limit sheet.rawRegisters construction outcome ↔ outcome = eval limit)
    (h : Reaches eval (sheet.rawOutcome construction)) :
    ∃ least, ∀ limit outcome, Gives limit sheet.rawRegisters construction outcome ↔
      outcome = if least ≤ limit then sheet.rawOutcome construction else .error .tooDeep := by
  obtain ⟨least, reaches⟩ := h
  refine ⟨least, ?_⟩
  intro limit outcome
  rw [gives, reaches]

/-- **Constructions on raw forms**: from some limit on, a construction gives the raw form of what the
worksheet calculates, and with a smaller limit it fails for want of levels. -/
theorem gives_iff (construction : Construction) :
    ∃ least, ∀ limit outcome, Gives limit sheet.rawRegisters construction outcome ↔
      outcome = if least ≤ limit then sheet.rawOutcome construction else .error .tooDeep := by
  -- All constructions but the reading of a text are evaluations, by definition.
  cases construction with
  | parse text =>
    apply gives_iff_of_reaches sheet (fun limit outcome => gives_parse_iff sheet limit text outcome)
    exact .const _
  | psi sub arg =>
    apply gives_iff_of_reaches sheet (fun _ _ => Iff.rfl)
    simp only [register_raw]
    exact .const _
  | plus left right =>
    apply gives_iff_of_reaches sheet (fun _ _ => Iff.rfl)
    simp only [register_raw, checked_plus_raw]
    exact .const _
  | numeral n =>
    apply gives_iff_of_reaches sheet (fun _ _ => Iff.rfl)
    simp only [numeral?_raw, checked_raw]
    exact .const _
  | ofAddends addends =>
    apply gives_iff_of_reaches sheet (fun _ _ => Iff.rfl)
    simp only [map_register_raw, ofAddends?_raw, checked_raw]
    exact .const _
  | sum addends =>
    apply gives_iff_of_reaches sheet (fun _ _ => Iff.rfl)
    simp only [map_register_raw, sum?_raw, checked_raw]
    exact .const _
  | expand x y =>
    apply gives_iff_of_reaches sheet (fun _ _ => Iff.rfl)
    simp only [register_raw]
    exact reaches_expand (sheet.term x) (sheet.term y)
  | element x n =>
    apply gives_iff_of_reaches sheet (fun _ _ => Iff.rfl)
    simp only [register_raw, numeral?_raw, Worksheet.rawOutcome, Worksheet.construct]
    cases Term.numeral? n with
    | error e => exact .const _
    | ok index => exact reaches_expand (sheet.term x) index
  | degree x =>
    apply gives_iff_of_reaches sheet (fun _ _ => Iff.rfl)
    simp only [register_raw]
    exact reaches_degree (sheet.term x)
  | largest terms =>
    apply gives_iff_of_reaches sheet (fun _ _ => Iff.rfl)
    have values := reaches_largest (terms.map sheet.term)
    rw [checked_raw] at values
    simp only [map_register_raw]
    exact values

theorem rawOutcome_eq_ok {construction : Construction} {τ : RawTerm}
    (h : sheet.rawOutcome construction = .ok τ) :
    ∃ t, sheet.construct construction = .ok t ∧ t.raw = τ := by
  unfold Worksheet.rawOutcome at h
  cases result : sheet.construct construction with
  | error e =>
    rw [result] at h
    cases h
  | ok t =>
    rw [result] at h
    exact ⟨t, rfl, Except.ok.inj h⟩

theorem rawOutcome_eq_refused {construction : Construction} {e : TermError}
    (h : sheet.rawOutcome construction = .error (.refused e)) :
    sheet.construct construction = .error (.refused e) := by
  unfold Worksheet.rawOutcome at h
  match result : sheet.construct construction with
  | .ok _ =>
    rw [result] at h
    cases h
  | .error (.unreadable _) =>
    rw [result] at h
    cases h
  | .error (.refused _) =>
    rw [result] at h
    cases h
    rfl

/-- Apart from a want of levels, nothing else is given than what the worksheet calculates. -/
theorem rawOutcome_of_gives {limit : Nat} {construction : Construction} {outcome : Attempt RawTerm}
    (gives : Gives limit sheet.rawRegisters construction outcome)
    (enough : outcome ≠ .error .tooDeep) : sheet.rawOutcome construction = outcome := by
  obtain ⟨least, iff⟩ := gives_iff sheet construction
  rw [iff] at gives
  split at gives
  · exact gives.symm
  · exact absurd gives enough

theorem exists_gives (construction : Construction) :
    ∃ limit, Gives limit sheet.rawRegisters construction (sheet.rawOutcome construction) := by
  obtain ⟨least, iff⟩ := gives_iff sheet construction
  refine ⟨least, ?_⟩
  rw [iff, if_pos (Nat.le_refl least)]

/-! ## §3 Runs -/

variable {sheet}

theorem rawRegisters_step {construction : Construction} {t : Term}
    (h : sheet.construct construction = .ok t) :
    (sheet.step (.construct construction)).2.rawRegisters = sheet.rawRegisters ++ [t.raw] := by
  simp [Worksheet.step, Worksheet.rawRegisters, h]

theorem Reachable.of_step (reachable : Reachable sheet.rawRegisters) (step : Worksheet.Step) :
    Reachable (sheet.step step).2.rawRegisters := by
  cases step with
  | ask question => exact reachable
  | construct construction =>
    cases result : sheet.construct construction with
    | error e =>
      simp only [Worksheet.step, result]
      exact reachable
    | ok t =>
      obtain ⟨limit, gives⟩ := exists_gives sheet construction
      unfold Worksheet.rawOutcome at gives
      rw [result] at gives
      rw [rawRegisters_step result]
      exact reachable.step gives

theorem Reachable.of_run (reachable : Reachable sheet.rawRegisters) (steps : List Worksheet.Step) :
    Reachable (sheet.run steps).2.rawRegisters := by
  induction steps generalizing sheet with
  | nil => exact reachable
  | cons step steps ih => exact ih (reachable.of_step step)

theorem run_append_singleton (sheet : Worksheet) (steps : List Worksheet.Step)
    (step : Worksheet.Step) :
    (sheet.run (steps ++ [step])).2 = ((sheet.run steps).2.step step).2 := by
  induction steps generalizing sheet with
  | nil => rfl
  | cons first steps ih => exact ih (sheet.step first).2

/-- What can be reached are the raw forms of the registers of worksheets. -/
theorem reachable_iff_run (registers : List RawTerm) :
    Reachable registers ↔ ∃ steps, (Worksheet.start.run steps).2.rawRegisters = registers := by
  constructor
  · intro reachable
    -- A register that is appended is the raw form of a term, so the worksheet can follow.
    induction reachable with
    | start => exact ⟨[], rfl⟩
    | @step _ _ construction _ _ gives ih =>
      obtain ⟨steps, rfl⟩ := ih
      have outcome := rawOutcome_of_gives _ gives (by simp)
      obtain ⟨t, result, rfl⟩ := rawOutcome_eq_ok _ outcome
      refine ⟨steps ++ [.construct construction], ?_⟩
      rw [run_append_singleton, rawRegisters_step result]
  · intro ⟨steps, registers_eq⟩
    have initial : Reachable Worksheet.start.rawRegisters := .start
    rw [← registers_eq]
    exact initial.of_run steps

theorem Reachable.canonical {registers : List RawTerm} (reachable : Reachable registers) :
    ∀ τ ∈ registers, Canonical τ := by
  obtain ⟨steps, rfl⟩ := (reachable_iff_run registers).1 reachable
  simp only [Worksheet.rawRegisters, List.forall_mem_map]
  intro t _
  exact canonical_raw t

/-! ## §4 Refusals -/

theorem sum?_eq_tooFewAddends_iff (addends : List RawTerm) :
    sum? addends = .error .tooFewAddends ↔ addends.length < 2 := by
  unfold sum?
  split
  case isTrue few => simp [few]
  case isFalse several =>
    split <;> simp [several]

theorem sum?_eq_addendNotPrincipal_iff (addends : List RawTerm) :
    sum? addends = .error .addendNotPrincipal ↔
      2 ≤ addends.length ∧ ∃ addend ∈ addends, addend.isPrincipal = false := by
  have not_all : (∃ addend ∈ addends, addend.isPrincipal = false) ↔
      ¬ addends.all isPrincipal = true := by simp
  rw [not_all, ← Nat.not_lt]
  unfold sum?
  split
  case isTrue few => simp [few]
  case isFalse several =>
    split
    case isTrue principal => simp [principal]
    case isFalse other => simp [several, other]

/-- A single addend is not checked. -/
theorem ofAddends?_ne_tooFewAddends (addends : List RawTerm) :
    ofAddends? addends ≠ .error .tooFewAddends := by
  match addends with
  | [] => simp [ofAddends?]
  | [_] => simp [ofAddends?]
  | σ :: τ :: addends =>
    intro refused
    have few := (sum?_eq_tooFewAddends_iff (σ :: τ :: addends)).1 refused
    simp only [List.length_cons] at few
    omega

theorem ofAddends?_eq_addendNotPrincipal_iff (addends : List RawTerm) :
    ofAddends? addends = .error .addendNotPrincipal ↔
      2 ≤ addends.length ∧ ∃ addend ∈ addends, addend.isPrincipal = false := by
  match addends with
  | [] => simp [ofAddends?]
  | [_] => simp [ofAddends?]
  | σ :: τ :: addends => exact sum?_eq_addendNotPrincipal_iff (σ :: τ :: addends)

theorem refused_eq_checked_iff (e : TermError) (request : Except TermError RawTerm) :
    .error (.refused e) = checked request ↔ request = .error e := by
  cases request with
  | error e' =>
    show Except.error (Fault.refused e) = Except.error (Fault.refused e') ↔ _
    simp [eq_comm]
  | ok τ => simp [checked, Except.mapError]

/-- The checks of a sum refuse nothing but a request for a sum of given addends. -/
theorem construct_refused {construction : Construction} {e : TermError}
    (h : sheet.construct construction = .error (.refused e))
    (check : e = .tooFewAddends ∨ e = .addendNotPrincipal) :
    ∃ numbers, construction = .sum numbers ∨ construction = .ofAddends numbers := by
  cases construction with
  | sum numbers => exact ⟨numbers, .inl rfl⟩
  | ofAddends numbers => exact ⟨numbers, .inr rfl⟩
  | parse text =>
    change (Reader.read text).mapError StepError.unreadable = .error (.refused e) at h
    cases read : Reader.read text with
    | error _ =>
      rw [read] at h
      cases h
    | ok _ =>
      rw [read] at h
      cases h
  | psi sub arg => cases h
  | plus left right => cases h
  | numeral n =>
    cases n with
    | ofNat n => cases h
    | negSucc n =>
      cases h
      simp at check
  | expand x y => cases h
  | element x n =>
    cases n with
    | ofNat n => cases h
    | negSucc n =>
      cases h
      simp at check
  | degree x => cases h
  | largest numbers =>
    cases numbers with
    | nil =>
      cases h
      simp at check
    | cons number numbers => cases h

theorem exists_numbers_of_refusal {registers : List RawTerm} (reachable : Reachable registers)
    {limit : Nat} {construction : Construction} {e : TermError}
    (gives : Gives limit registers construction (.error (.refused e)))
    (check : e = .tooFewAddends ∨ e = .addendNotPrincipal) :
    ∃ numbers, construction = .sum numbers ∨ construction = .ofAddends numbers := by
  obtain ⟨steps, rfl⟩ := (reachable_iff_run registers).1 reachable
  have outcome := rawOutcome_of_gives _ gives (by simp)
  exact construct_refused (rawOutcome_eq_refused _ outcome) check

/-- A sum of fewer than two addends is asked for where its addends are given, and nowhere else. -/
theorem gives_tooFewAddends_iff {registers : List RawTerm} (reachable : Reachable registers)
    (limit : Nat) (construction : Construction) :
    Gives limit registers construction (.error (.refused .tooFewAddends)) ↔
      ∃ numbers, construction = .sum numbers ∧ numbers.length < 2 := by
  constructor
  · intro gives
    obtain ⟨numbers, rfl | rfl⟩ := exists_numbers_of_refusal reachable gives (.inl rfl)
    · have refused := (refused_eq_checked_iff _ _).1 gives
      rw [sum?_eq_tooFewAddends_iff, List.length_map] at refused
      exact ⟨numbers, rfl, refused⟩
    · exact absurd ((refused_eq_checked_iff _ _).1 gives) (ofAddends?_ne_tooFewAddends _)
  · intro ⟨numbers, is_sum, few⟩
    subst is_sum
    apply (refused_eq_checked_iff _ _).2
    rwa [sum?_eq_tooFewAddends_iff, List.length_map]

/-- A sum of addends that are not principal is asked for where its addends are given, and nowhere
else. -/
theorem gives_addendNotPrincipal_iff {registers : List RawTerm} (reachable : Reachable registers)
    (limit : Nat) (construction : Construction) :
    Gives limit registers construction (.error (.refused .addendNotPrincipal)) ↔
      ∃ numbers, (construction = .sum numbers ∨ construction = .ofAddends numbers) ∧
        2 ≤ numbers.length ∧
        ∃ number ∈ numbers, (register registers number).isPrincipal = false := by
  have on_numbers (numbers : List Register) :
      (2 ≤ (numbers.map (register registers)).length ∧
        ∃ addend ∈ numbers.map (register registers), addend.isPrincipal = false) ↔
      2 ≤ numbers.length ∧ ∃ number ∈ numbers, (register registers number).isPrincipal = false := by
    simp
  constructor
  · intro gives
    obtain ⟨numbers, rfl | rfl⟩ := exists_numbers_of_refusal reachable gives (.inr rfl)
    · have refused := (refused_eq_checked_iff _ _).1 gives
      rw [sum?_eq_addendNotPrincipal_iff, on_numbers] at refused
      exact ⟨numbers, .inl rfl, refused⟩
    · have refused := (refused_eq_checked_iff _ _).1 gives
      rw [ofAddends?_eq_addendNotPrincipal_iff, on_numbers] at refused
      exact ⟨numbers, .inr rfl, refused⟩
  · intro ⟨numbers, request, wrong⟩
    rw [← on_numbers] at wrong
    cases request with
    | inl is_sum =>
      subst is_sum
      exact (refused_eq_checked_iff _ _).2 ((sum?_eq_addendNotPrincipal_iff _).2 wrong)
    | inr is_ofAddends =>
      subst is_ofAddends
      exact (refused_eq_checked_iff _ _).2 ((ofAddends?_eq_addendNotPrincipal_iff _).2 wrong)

/-! ## §5 Canonical form -/

/-- **Canonical form is never lost.**  The lists of registers that can be reached are those of the
worksheets, and all registers on them are canonical.  The checks of a sum refuse nothing there but a
sum of fewer than two given addends, and two or more given addends that are not all principal.  On
canonical terms no check fails in an addition, an expansion, a degree or a comparison, or when a
numeral or a text is built, and what comes out is canonical. -/
theorem reachable_canonical :
    (∀ registers, Reachable registers ↔
      ∃ steps, (Worksheet.start.run steps).2.rawRegisters = registers) ∧
    (∀ registers, Reachable registers → (∀ τ ∈ registers, Canonical τ) ∧
      ∀ limit construction,
        (Gives limit registers construction (.error (.refused .tooFewAddends)) ↔
          ∃ numbers, construction = .sum numbers ∧ numbers.length < 2) ∧
        (Gives limit registers construction (.error (.refused .addendNotPrincipal)) ↔
          ∃ numbers, (construction = .sum numbers ∨ construction = .ofAddends numbers) ∧
            2 ≤ numbers.length ∧
            ∃ number ∈ numbers, (register registers number).isPrincipal = false)) ∧
    (∀ σ τ, Canonical σ → Canonical τ →
      (∃ ρ, plus σ τ = .ok ρ ∧ Canonical ρ) ∧
      (∃ ρ, Reaches (fun limit => expand limit σ τ) (.ok ρ) ∧ Canonical ρ) ∧
      (∃ ρ, Reaches (fun limit => degree limit σ) (.ok ρ) ∧ Canonical ρ) ∧
      ∃ holds, Reaches (fun limit => lessThan limit σ τ) (.ok holds)) ∧
    (∀ n : Int, (∃ ρ, numeral? n = .ok ρ ∧ Canonical ρ) ∨
      n < 0 ∧ numeral? n = .error (.negativeNumeral n)) ∧
    ∀ sum : Reader.SumTree, ∃ ρ, sum.build = .ok ρ ∧ Canonical ρ := by
  refine ⟨reachable_iff_run, ?_, ?_, ?_, ?_⟩
  · intro registers reachable
    refine ⟨reachable.canonical, ?_⟩
    intro limit construction
    exact ⟨gives_tooFewAddends_iff reachable limit construction,
      gives_addendNotPrincipal_iff reachable limit construction⟩
  · intro σ τ hσ hτ
    obtain ⟨s, rfl⟩ := (canonical_iff σ).1 hσ
    obtain ⟨t, rfl⟩ := (canonical_iff τ).1 hτ
    refine ⟨⟨_, plus_raw s t, canonical_raw _⟩, ⟨_, reaches_expand s t, canonical_raw _⟩,
      ⟨_, reaches_degree s, canonical_raw _⟩, ⟨_, reaches_lessThan s t⟩⟩
  · intro n
    cases n with
    | ofNat n => exact .inl ⟨_, numeral?_raw n, canonical_raw _⟩
    | negSucc n => exact .inr ⟨Int.negSucc_lt_zero n, rfl⟩
  · intro sum
    exact ⟨_, sum.build_raw, canonical_raw _⟩

/-- After `ω + 1` has been put into a register, it is no addend of a sum, but it is still added. -/
theorem reachable_canonical_mixed_sum :
    Reachable [zero, one, omega, bigOmega, sum [omega, one]] ∧
      Canonical (sum [omega, one]) ∧
      Gives 0 [zero, one, omega, bigOmega, sum [omega, one]] (.sum [4, 1])
        (.error (.refused .addendNotPrincipal)) ∧
      ∃ ρ, plus (sum [omega, one]) one = .ok ρ ∧ Canonical ρ := by
  have added : Gives 0 [zero, one, omega, bigOmega] (.plus 2 1) (.ok (sum [omega, one])) := rfl
  have reachable := Reachable.start.step added
  obtain ⟨canonical, refusals⟩ := reachable_canonical.2.1 _ reachable
  have mixed : Canonical (sum [omega, one]) := canonical _ (by simp)
  have unit : Canonical one := canonical _ (by simp)
  have refused := (refusals 0 (.sum [4, 1])).2.2
  exact ⟨reachable, mixed, refused ⟨[4, 1], .inl rfl, by simp, 4, by simp, rfl⟩,
    (reachable_canonical.2.2.1 _ _ mixed unit).1⟩

end RawTerm

end Collapsing
