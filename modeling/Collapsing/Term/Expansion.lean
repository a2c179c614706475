import Collapsing.Term.Degree

/-!
# Fundamental sequences

`x.expand y` is `x[y]`, the element with index `y` of the fundamental sequence of `x`.

Only the last addend of a sum moves.  For a principal term `亞(sub, arg)` the degrees of the
argument and of the subscript decide:

| degree of `arg` | degree of `sub` | `x[y]` |
|---|---|---|
| `0` | `0` | `0` |
| `0` | `1` | `y` |
| `0` | other | `亞(sub[y], arg)` |
| `1` | any | `x[y'] + 亞(sub, arg')` if `y` is a successor, else `0` |
| `ω` | any | `亞(sub, arg[y])` |
| `亞(c, _)` | any | `亞(sub, arg[亞(c', γ)])`, with `γ` the argument of `x[y']`, or `0` |

Here `t'` is the predecessor of a successor `t`.  In the last row `γ` is `0` when `y` is no
successor.

Each step goes to a part of `x`, or keeps `x` and goes to the predecessor of the index, so
the recursion ends although the index can grow on the way down.

## Main statements

- `expand_cons_cons` and the lemmas after it: the rows of the table, one by one.
-/

namespace Collapsing.Term

/-! ## §1 Elements -/

/-- The element `x[y]` of the fundamental sequence of `x`. -/
def expand (x y : Term) : Term :=
  match x with
  | zero => zero
  -- Only the last addend of a sum moves.
  | cons sub arg (cons sub' arg' rest) => cons sub arg (expand (cons sub' arg' rest) y)
  | cons sub arg zero =>
    match arg.degree with
    | zero =>
      -- The argument is `0`, and the subscript decides.
      match sub.degree with
      | zero => zero
      | one => y
      | _ => psi (expand sub y) arg
    | one =>
      -- One more copy of `亞(sub, arg')` for each step of the index.
      if _ : y.degree = one then expand (psi sub arg) y.dropLast + psi sub arg.dropLast
      else zero
    -- The argument takes the index.
    | omega => psi sub (expand arg y)
    | cons c _ _ =>
      -- One more nesting into the argument for each step of the index.
      let γ := if _ : y.degree = one then (expand (psi sub arg) y.dropLast).leadingArg else zero
      psi sub (expand arg (psi c.dropLast γ))
termination_by (x, y)
decreasing_by
  · exact .left _ _ (sizeOf_rest_lt ..)
  · exact .left _ _ (sizeOf_sub_lt ..)
  · exact .right _ (sizeOf_dropLast_lt (ne_zero_of_degree_eq_one ‹_›))
  · exact .left _ _ (sizeOf_arg_lt ..)
  · exact .right _ (sizeOf_dropLast_lt (ne_zero_of_degree_eq_one ‹_›))
  · exact .left _ _ (sizeOf_arg_lt ..)

/-! ## §2 The cases of the table -/

@[simp] theorem expand_zero (y : Term) : zero.expand y = zero := by
  rw [expand]

@[simp] theorem expand_cons_cons (sub arg sub' arg' rest y : Term) :
    (cons sub arg (cons sub' arg' rest)).expand y =
      cons sub arg ((cons sub' arg' rest).expand y) := by
  rw [expand]

theorem expand_psi_zero {sub : Term} (h : sub.degree = zero) (y : Term) :
    (psi sub zero).expand y = zero := by
  rw [expand]
  simp only [degree_zero, h]

theorem expand_psi_zero_of_successor {sub : Term} (h : sub.degree = one) (y : Term) :
    (psi sub zero).expand y = y := by
  rw [expand]
  simp only [degree_zero, h]

theorem expand_psi_zero_of_limit {sub : Term} (h₀ : sub.degree ≠ zero) (h₁ : sub.degree ≠ one)
    (y : Term) : (psi sub zero).expand y = psi (sub.expand y) zero := by
  rw [expand]
  simp only [degree_zero]

theorem expand_psi_of_arg_successor {arg y : Term} (h : arg.degree = one) (hy : y.degree = one)
    (sub : Term) :
    (psi sub arg).expand y = (psi sub arg).expand y.dropLast + psi sub arg.dropLast := by
  rw [expand]
  simp only [h, dif_pos hy]

theorem expand_psi_of_arg_successor_of_not {arg y : Term} (h : arg.degree = one)
    (hy : y.degree ≠ one) (sub : Term) : (psi sub arg).expand y = zero := by
  rw [expand]
  simp only [h, dif_neg hy]

theorem expand_psi_of_arg_omega {arg : Term} (h : arg.degree = omega) (sub y : Term) :
    (psi sub arg).expand y = psi sub (arg.expand y) := by
  rw [expand]
  simp only [h]

theorem expand_psi_of_arg_higher {arg c b r : Term} (h : arg.degree = cons c b r)
    (h₁ : arg.degree ≠ one) (h₂ : arg.degree ≠ omega) (sub y : Term) :
    (psi sub arg).expand y =
      psi sub (arg.expand (psi c.dropLast
        (if y.degree = one then ((psi sub arg).expand y.dropLast).leadingArg else zero))) := by
  rw [h] at h₁ h₂
  rw [expand]
  -- The two rows above it are excluded by the hypotheses.
  have one_excluded : c = zero → b = zero → r = zero → False := by
    rintro rfl rfl rfl
    exact h₁ rfl
  have omega_excluded : c = zero → b = one → r = zero → False := by
    rintro rfl rfl rfl
    exact h₂ rfl
  simp only [h]
  split <;> simp_all

/-! ## §3 Sequences -/

/-- The elements `x[start], x[start + 1], …`, as many as `length` asks for.  A length that
is not positive asks for none, whatever the start; otherwise the start must be an index. -/
def fundamentalSequence (x : Term) (length start : Int) : Except TermError (List Term) :=
  (List.range length.toNat).mapM fun (k : Nat) => do
    let index ← numeral? (start + k)
    return x.expand index

end Collapsing.Term
