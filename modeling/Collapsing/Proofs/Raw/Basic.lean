import Collapsing.Term.Checked
import Mathlib.Data.Set.List

/-!
# Raw terms

A term is canonical by construction.  A *raw* term is not: it is `0`, a principal term, or a sum that
holds any list of addends whatever, so that a sum may be empty, have one addend, or hold `0` and
other sums.  Calculating with raw terms therefore needs checks, and this module has the checks that
guard the construction of a sum.

Being *canonical* is a predicate on raw terms: every sum in it, at every depth, has at least two
addends, all of them principal.  The canonical raw terms are exactly the raw forms of terms, and the
checked operations, applied to raw forms, do what the operations on terms do.

## Main statements

- `canonical_iff`: the canonical raw terms are the raw forms of terms;
- `plus_raw`, `sum?_raw`, `ofAddends?_raw`, `numeral?_raw`: checked construction of raw forms.
-/

namespace Collapsing

/-! ## §1 Raw terms -/

/-- A term in any shape: the addends of a sum are not restricted. -/
inductive RawTerm where
  | zero
  | psi (sub arg : RawTerm)
  | sum (addends : List RawTerm)

namespace RawTerm

/-- `1 = 亞(0, 0)`. -/
@[match_pattern] abbrev one : RawTerm := psi zero zero

/-- `ω = 亞(0, 1)`. -/
@[match_pattern] abbrev omega : RawTerm := psi zero one

/-- `Ω = 亞(1, 0)`. -/
@[match_pattern] abbrev bigOmega : RawTerm := psi one zero

/-- Whether the term is `亞(sub, arg)` for some parts. -/
def isPrincipal : RawTerm → Bool
  | psi _ _ => true
  | _ => false

/-- The addends of a term: none for `0`, one for a principal term. -/
def addends : RawTerm → List RawTerm
  | zero => []
  | psi sub arg => [psi sub arg]
  | sum addends => addends

/-- In canonical form all sums, at every depth, have at least two addends, all of them principal. -/
inductive Canonical : RawTerm → Prop where
  | zero : Canonical zero
  | psi {sub arg : RawTerm} (sub_canonical : Canonical sub) (arg_canonical : Canonical arg) :
      Canonical (psi sub arg)
  | sum {addends : List RawTerm} (several : 2 ≤ addends.length)
      (principal : ∀ addend ∈ addends, addend.isPrincipal = true)
      (addends_canonical : ∀ addend ∈ addends, Canonical addend) : Canonical (sum addends)

/-! ## §2 Checked construction -/

/-- The sum of at least two terms, all of them principal.  The number is checked first. -/
def sum? (addends : List RawTerm) : Except TermError RawTerm :=
  if addends.length < 2 then .error .tooFewAddends
  else if addends.all isPrincipal then .ok (sum addends)
  else .error .addendNotPrincipal

/-- The term with the given addends: `0` for none, the term itself for a single one (which
is not checked), and a checked sum otherwise. -/
def ofAddends? : List RawTerm → Except TermError RawTerm
  | [] => .ok zero
  | [addend] => .ok addend
  | addends => sum? addends

/-- The sum of two terms, unless one of them is `0`, is checked like any other. -/
def plus : RawTerm → RawTerm → Except TermError RawTerm
  | zero, τ => .ok τ
  | σ, zero => .ok σ
  | σ, τ => sum? (σ.addends ++ τ.addends)

/-- The numeral of an integer, which must not be negative. -/
def numeral? : Int → Except TermError RawTerm
  | .ofNat n => ofAddends? (List.replicate n one)
  | .negSucc n => .error (.negativeNumeral (.negSucc n))

end RawTerm

/-! ## §3 Raw forms -/

/-- The raw term with the given addends, without a check. -/
def RawTerm.collapse : List RawTerm → RawTerm
  | [] => zero
  | [addend] => addend
  | addends => sum addends

namespace Term

/-- The addends of a term, in raw form. -/
def rawAddends : Term → List RawTerm
  | zero => []
  | cons sub arg rest =>
    .psi (RawTerm.collapse sub.rawAddends) (RawTerm.collapse arg.rawAddends) :: rest.rawAddends

/-- The raw form of a term. -/
def raw (t : Term) : RawTerm := RawTerm.collapse t.rawAddends

@[simp] theorem rawAddends_zero : zero.rawAddends = [] := rfl

@[simp] theorem rawAddends_cons (sub arg rest : Term) :
    (cons sub arg rest).rawAddends = .psi sub.raw arg.raw :: rest.rawAddends := rfl

@[simp] theorem raw_zero : zero.raw = .zero := rfl

@[simp] theorem raw_psi (sub arg : Term) : (psi sub arg).raw = .psi sub.raw arg.raw := rfl

theorem raw_cons_cons (sub arg sub' arg' rest : Term) :
    (cons sub arg (cons sub' arg' rest)).raw =
      .sum (.psi sub.raw arg.raw :: .psi sub'.raw arg'.raw :: rest.rawAddends) := rfl

@[simp] theorem rawAddends_plus (s t : Term) :
    (s + t).rawAddends = s.rawAddends ++ t.rawAddends := by
  induction s with
  | zero => rfl
  | cons sub arg rest _ _ ih => rw [cons_plus, rawAddends_cons, rawAddends_cons, ih, List.cons_append]

@[simp] theorem addends_raw (t : Term) : t.raw.addends = t.rawAddends := by
  match t with
  | zero => rfl
  | psi _ _ => rfl
  | cons _ _ (cons _ _ _) => rfl

@[simp] theorem isPrincipal_raw (t : Term) : t.raw.isPrincipal = t.isPrincipal := by
  match t with
  | zero => rfl
  | psi _ _ => rfl
  | cons _ _ (cons _ _ _) => rfl

theorem rawAddends_eq_of_isPrincipal {t : Term} (h : t.isPrincipal = true) :
    t.rawAddends = [t.raw] := by
  obtain ⟨sub, arg, rfl⟩ := (isPrincipal_iff t).1 h
  rfl

theorem rawAddends_concat {ts : List Term} (principal : ts.all isPrincipal = true) :
    (concat ts).rawAddends = ts.map raw := by
  induction ts with
  | nil => rfl
  | cons t ts ih =>
    rw [List.all_cons, Bool.and_eq_true] at principal
    rw [concat_cons, rawAddends_plus, rawAddends_eq_of_isPrincipal principal.1, ih principal.2,
      List.map_cons, List.singleton_append]

theorem isPrincipal_of_mem_rawAddends {t : Term} {τ : RawTerm} (h : τ ∈ t.rawAddends) :
    τ.isPrincipal = true := by
  induction t with
  | zero => simp at h
  | cons sub arg rest _ _ ih =>
    rcases List.mem_cons.1 h with rfl | h_rest
    · rfl
    · exact ih h_rest

/-- A term is determined by its raw form. -/
theorem eq_of_rawAddends_eq {s t : Term} (h : s.rawAddends = t.rawAddends) : s = t := by
  induction s generalizing t with
  | zero =>
    cases t with
    | zero => rfl
    | cons => simp at h
  | cons sub arg rest ih_sub ih_arg ih_rest =>
    cases t with
    | zero => simp at h
    | cons sub' arg' rest' =>
      simp only [rawAddends_cons, List.cons.injEq, RawTerm.psi.injEq] at h
      obtain ⟨⟨h_sub, h_arg⟩, h_rest⟩ := h
      have same_sub : sub = sub' := ih_sub (by simpa using congrArg RawTerm.addends h_sub)
      have same_arg : arg = arg' := ih_arg (by simpa using congrArg RawTerm.addends h_arg)
      rw [same_sub, same_arg, ih_rest h_rest]

theorem raw_injective : Function.Injective raw := by
  intro s t h
  apply eq_of_rawAddends_eq
  simpa using congrArg RawTerm.addends h

end Term

/-! ## §4 Canonical raw terms -/

namespace RawTerm

theorem collapse_of_several {addends : List RawTerm} (several : 2 ≤ addends.length) :
    collapse addends = sum addends := by
  match addends with
  | [] => simp at several
  | [_] => simp at several
  | _ :: _ :: _ => rfl

theorem raw_concat {ts : List Term} (several : 2 ≤ ts.length)
    (principal : ts.all Term.isPrincipal = true) :
    (Term.concat ts).raw = sum (ts.map Term.raw) := by
  rw [Term.raw, Term.rawAddends_concat principal]
  apply collapse_of_several
  rwa [List.length_map]

theorem canonical_collapse {addends : List RawTerm}
    (principal : ∀ addend ∈ addends, addend.isPrincipal = true)
    (addends_canonical : ∀ addend ∈ addends, Canonical addend) : Canonical (collapse addends) := by
  match addends with
  | [] => exact .zero
  | [addend] => exact addends_canonical addend (by simp)
  | _ :: _ :: _ => exact .sum (by simp) principal addends_canonical

theorem canonical_of_mem_rawAddends {t : Term} {τ : RawTerm} (h : τ ∈ t.rawAddends) :
    Canonical τ := by
  induction t generalizing τ with
  | zero => simp at h
  | cons sub arg rest ih_sub ih_arg ih_rest =>
    rcases List.mem_cons.1 h with rfl | h_rest
    · -- Subscript and argument are put together from their own addends.
      apply Canonical.psi
      · exact canonical_collapse (fun _ => Term.isPrincipal_of_mem_rawAddends) fun _ => ih_sub
      · exact canonical_collapse (fun _ => Term.isPrincipal_of_mem_rawAddends) fun _ => ih_arg
    · exact ih_rest h_rest

theorem canonical_raw (t : Term) : Canonical t.raw :=
  canonical_collapse (fun _ => Term.isPrincipal_of_mem_rawAddends) fun _ =>
    canonical_of_mem_rawAddends

/-- A list of raw forms is the list of the raw forms of some terms. -/
theorem exists_terms {τs : List RawTerm} (forms : ∀ τ ∈ τs, ∃ t : Term, t.raw = τ) :
    ∃ ts : List Term, ts.map Term.raw = τs := by
  have in_range : τs ∈ Set.range (List.map Term.raw) := by
    rw [Set.range_list_map]
    exact forms
  exact in_range

/-- **Canonical raw terms are terms**: a raw term is in canonical form if and only if it is the raw
form of a term. -/
theorem canonical_iff (τ : RawTerm) : Canonical τ ↔ ∃ t : Term, t.raw = τ := by
  constructor
  · intro h
    induction h with
    | zero => exact ⟨.zero, rfl⟩
    | psi _ _ ih_sub ih_arg =>
      obtain ⟨sub, rfl⟩ := ih_sub
      obtain ⟨arg, rfl⟩ := ih_arg
      exact ⟨Term.psi sub arg, rfl⟩
    | sum several principal _ ih =>
      -- The addends are raw forms of principal terms, and the sum is that of these terms.
      obtain ⟨ts, rfl⟩ := exists_terms ih
      have terms_principal : ts.all Term.isPrincipal = true := by simpa using principal
      exact ⟨Term.concat ts, raw_concat (by simpa using several) terms_principal⟩
  · intro ⟨t, form⟩
    rw [← form]
    exact canonical_raw t

/-! ## §5 Construction of raw forms -/

/-- The sum of the addends of a term, if there are at least two, passes both checks. -/
theorem sum?_rawAddends {t : Term} (several : 2 ≤ t.rawAddends.length) :
    sum? t.rawAddends = .ok t.raw := by
  have principal : t.rawAddends.all isPrincipal = true :=
    List.all_eq_true.2 fun _ => Term.isPrincipal_of_mem_rawAddends
  unfold sum?
  rw [if_neg (Nat.not_lt.2 several), if_pos principal, Term.raw, collapse_of_several several]

/-- The addends of a term give its raw form back. -/
theorem ofAddends?_rawAddends (t : Term) : ofAddends? t.rawAddends = .ok t.raw := by
  match t with
  | .zero => rfl
  | .psi _ _ => rfl
  | .cons sub arg (.cons sub' arg' rest) =>
    show sum? (Term.cons sub arg (.cons sub' arg' rest)).rawAddends = _
    apply sum?_rawAddends
    simp

/-- Two raw forms are added without a failing check. -/
theorem plus_raw (s t : Term) : plus s.raw t.raw = .ok (s + t).raw := by
  match s, t with
  | .zero, t => rw [Term.zero_plus, Term.raw_zero, plus]
  | .cons sub arg rest, .zero =>
    rw [Term.plus_zero, Term.raw_zero]
    cases rest <;> rfl
  | .cons sub arg rest, .cons sub' arg' rest' =>
    -- Both have addends, so that their sum has at least two.
    have several : 2 ≤ (Term.cons sub arg rest + Term.cons sub' arg' rest').rawAddends.length := by
      simp only [Term.rawAddends_plus, Term.rawAddends_cons, List.length_append, List.length_cons]
      omega
    rw [← sum?_rawAddends several, Term.rawAddends_plus, ← Term.addends_raw, ← Term.addends_raw]
    cases rest <;> cases rest' <;> rfl

/-- The two checks of a sum tell the same of terms and of their raw forms. -/
theorem sum?_raw (ts : List Term) : sum? (ts.map Term.raw) = (Term.sum? ts).map Term.raw := by
  have same_check : (ts.map Term.raw).all isPrincipal = ts.all Term.isPrincipal := by
    simp [List.all_map, Function.comp_def]
  unfold sum? Term.sum?
  rw [List.length_map, same_check]
  split
  case isTrue => rfl
  case isFalse several =>
    split
    case isTrue principal =>
      rw [← raw_concat (Nat.not_lt.1 several) principal]
      rfl
    case isFalse => rfl

theorem ofAddends?_raw (ts : List Term) :
    ofAddends? (ts.map Term.raw) = (Term.ofAddends? ts).map Term.raw := by
  match ts with
  | [] => rfl
  | [_] => rfl
  | s :: t :: ts => exact sum?_raw (s :: t :: ts)

theorem numeral?_raw (n : Int) : numeral? n = (Term.numeral? n).map Term.raw := by
  cases n with
  | negSucc n => rfl
  | ofNat n =>
    have ones : (Term.numeral n).rawAddends = List.replicate n one := by
      induction n with
      | zero => rfl
      | succ n ih => rw [Term.numeral_succ, Term.rawAddends_cons, ih, List.replicate_succ]; rfl
    unfold numeral?
    simp only
    rw [← ones, ofAddends?_rawAddends]
    rfl

end RawTerm

end Collapsing
