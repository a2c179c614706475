import Collapsing.Proofs.Term.Copies
import Collapsing.Proofs.Term.HigherDegree
import Collapsing.Proofs.Term.Tower
import Mathlib.Order.Iterate
import Mathlib.Order.Lattice

/-!
# Terms of degree ω

The fundamental sequence of a term of degree `ω` is indexed by the natural numbers, and there are two
reasons for a term to have this degree.

- Its argument is a successor `a + 1`, and the elements are multiples of `亞(sub, a)`.
- Its argument has a degree above `ω`, and the elements are towers.

Other terms of degree `ω` hand the index on to a part of the same degree: the argument or the
subscript of their last addend.  `Counted` builds all of them up from the first two kinds.

The numbers of copies and of storeys are read off the ones at the end of the index.  So every term
may be given as an index; it counts for the number of ones at its end.  In a tower each storey is
strictly increasing in what stands on it, and the first storey lies above `0`, so every further
storey makes the tower larger.

## Main statements

- `counted_iff`: the terms of degree `ω` are those that are built up like this;
- `Counted.expand_strictMono`: their elements increase along the natural numbers;
- `Counted.expand_eq_expand_numeral`: an index may be replaced by the number of its last ones.
-/

namespace Collapsing.Term

/-! ## §1 How they are built up -/

/-- The terms whose elements are counted by the natural numbers. -/
inductive Counted : Term → Prop where
  /-- `亞(sub, a + 1)`, whose elements are copies of `亞(sub, a)`. -/
  | copies (sub : Term) {arg : Term} (h : arg.degree = one) : Counted (psi sub arg)
  /-- `亞(sub, arg)` with an argument of higher degree, whose elements are towers. -/
  | tower (sub : Term) {arg c : Term} (h : arg.degree = psi c zero) (hc : c.degree = one) :
      Counted (psi sub arg)
  /-- `亞(sub, arg)`, where the degree comes from the argument. -/
  | argument (sub : Term) {arg : Term} (h : Counted arg) : Counted (psi sub arg)
  /-- `亞(sub, 0)`, where the degree comes from the subscript. -/
  | subscript {sub : Term} (h : Counted sub) : Counted (psi sub zero)
  /-- A sum, where the degree comes from what follows the first addend. -/
  | sum (sub arg : Term) {rest : Term} (h : Counted rest) : Counted (cons sub arg rest)

theorem Counted.ne_zero {x : Term} (h : Counted x) : x ≠ zero := by
  rintro rfl
  cases h

theorem Counted.degree {x : Term} (h : Counted x) : x.degree = omega := by
  induction h with
  | copies sub h => exact degree_psi_of_arg (by simp [h]) sub
  | tower sub h hc => exact degree_psi_of_arg (by simp [h]) sub
  | argument sub _ ih => exact degree_psi_of_arg (by simp [ih]) sub
  | subscript _ ih => rw [degree_of_limitSub (by simp [ih]) (by simp [ih]), ih]
  | sum sub arg h ih => rw [degree_cons_of_ne_zero h.ne_zero, ih]

/-- The terms of degree `ω` are those built up from copies and towers. -/
theorem counted_iff {x : Term} : Counted x ↔ x.degree = omega := by
  refine ⟨Counted.degree, fun h => ?_⟩
  induction x with
  | zero => cases h
  | cons sub arg rest ih_sub ih_arg ih_rest =>
    cases rest with
    | cons sub' arg' rest' => exact .sum sub arg (ih_rest h)
    | zero =>
      cases shape sub arg with
      | unit => cases h
      | regular h_sub =>
        rw [degree_of_regular h_sub] at h
        cases h
      | limitSub h₀ h₁ =>
        rw [degree_of_limitSub h₀ h₁] at h
        exact .subscript (ih_sub h)
      | successorArg h_arg => exact .copies sub h_arg
      | omegaArg h_arg => exact .argument sub (ih_arg h_arg)
      | higherArg h_arg hc => exact .tower sub h_arg hc

namespace Counted

variable {x : Term}

theorem expand_cons (h : Counted x) (sub arg y : Term) :
    (cons sub arg x).expand y = cons sub arg (x.expand y) :=
  expand_cons_of_ne_zero h.ne_zero sub arg y

theorem expand_argument (h : Counted x) (sub y : Term) :
    (psi sub x).expand y = psi sub (x.expand y) :=
  expand_psi_of_arg_omega h.degree sub y

theorem expand_subscript (h : Counted x) (y : Term) :
    (psi x zero).expand y = psi (x.expand y) zero :=
  expand_psi_zero_of_limit (by simp [h.degree]) (by simp [h.degree]) y

end Counted

/-! ## §2 The elements increase -/

/-- Where the argument is a successor `a + 1`, each step of the index adds a copy of
`亞(sub, a)`. -/
theorem expand_strictMono_of_arg_successor {arg : Term} (h : arg.degree = one) (sub : Term) :
    StrictMono fun n => (psi sub arg).expand (numeral n) := by
  simp only [expand_eq_copies h, trailingOnes_numeral]
  exact copies_strictMono sub arg.dropLast

/-- A storey is larger the more stands on it, and a storey on nothing is not `0`. -/
theorem storey_strictMono {arg c : Term} (h : arg.degree = psi c zero) (hc : c.degree = one) :
    StrictMono (storey arg c) ∧ zero < storey arg c zero := by
  have increasing : StrictMono arg.expand := (higher_iff.2 ⟨c, h, hc⟩).expand_strictMono
  constructor
  · intro γ δ lt
    apply increasing
    exact cons_lt_cons_of_arg (c.expand zero) lt
  · calc zero ≤ arg.expand zero := zero_le _
      _ < storey arg c zero := increasing (zero_lt_cons (c.expand zero) zero zero)

/-- Where the argument has a higher degree, each step of the index adds a storey to a tower. -/
theorem expand_strictMono_of_arg_higher {arg c : Term} (h : arg.degree = psi c zero)
    (hc : c.degree = one) (sub : Term) :
    StrictMono fun n => (psi sub arg).expand (numeral n) := by
  obtain ⟨increasing, positive⟩ := storey_strictMono h hc
  have towers : StrictMono fun n => (storey arg c)^[n] zero :=
    increasing.strictMono_iterate_of_lt_map positive
  intro m n lt
  have heights : m + 1 < n + 1 := Nat.succ_lt_succ lt
  simp only [expand_eq_tower h hc, trailingOnes_numeral]
  exact cons_lt_cons_of_arg sub (towers heights)

namespace Counted

variable {x : Term}

/-- The elements of a term of degree `ω` increase strictly along the natural numbers. -/
theorem expand_strictMono (h : Counted x) : StrictMono fun n => x.expand (numeral n) := by
  induction h with
  | copies sub h => exact expand_strictMono_of_arg_successor h sub
  | tower sub h hc => exact expand_strictMono_of_arg_higher h hc sub
  | argument sub h ih =>
    intro m n lt
    simp only [h.expand_argument]
    exact cons_lt_cons_of_arg sub (ih lt)
  | subscript h ih =>
    intro m n lt
    simp only [h.expand_subscript]
    exact cons_lt_cons_of_sub (ih lt)
  | sum sub arg h ih =>
    intro m n lt
    simp only [h.expand_cons]
    exact cons_lt_cons_of_rest sub arg (ih lt)

/-! ## §3 Other indices -/

/-- The element at any index is that at the number of ones at the end of the index. -/
theorem expand_eq_expand_numeral (h : Counted x) (y : Term) :
    x.expand y = x.expand (numeral y.trailingOnes) := by
  induction h with
  | copies sub h => rw [expand_eq_copies h, expand_eq_copies h, trailingOnes_numeral]
  | tower sub h hc => rw [expand_eq_tower h hc, expand_eq_tower h hc, trailingOnes_numeral]
  | argument sub h ih => rw [h.expand_argument, h.expand_argument, ih]
  | subscript h ih => rw [h.expand_subscript, h.expand_subscript, ih]
  | sum sub arg h ih => rw [h.expand_cons, h.expand_cons, ih]

end Counted

/-- **Degree `ω` means natural numbers as indices**: an element at any index is the element at the
number of ones at the end of this index, and at no other number. -/
theorem expand_indexed_by_numerals {x : Term} (h : x.degree = omega) (y : Term) :
    x.expand y = x.expand (numeral y.trailingOnes) ∧
      ∀ n, x.expand y = x.expand (numeral n) → n = y.trailingOnes := by
  have counted : Counted x := counted_iff.2 h
  have same := counted.expand_eq_expand_numeral y
  refine ⟨same, ?_⟩
  intro n eq
  rw [same] at eq
  exact (counted.expand_strictMono.injective eq).symm

/-- A tower behind a smaller addend, at an index with two ones behind a limit. -/
theorem expand_indexed_by_numerals_tower :
    (one + psi one (psi (numeral 2) zero)).degree = omega ∧
    (one + psi one (psi (numeral 2) zero)).expand (one + bigOmega + numeral 2) =
      (one + psi one (psi (numeral 2) zero)).expand (numeral 2) ∧
    ∀ n, (one + psi one (psi (numeral 2) zero)).expand (one + bigOmega + numeral 2) =
      (one + psi one (psi (numeral 2) zero)).expand (numeral n) → n = 2 := by
  have indexed := expand_indexed_by_numerals (x := one + psi one (psi (numeral 2) zero))
    (by decide) (one + bigOmega + numeral 2)
  exact ⟨by decide, indexed.1, indexed.2⟩

end Collapsing.Term
