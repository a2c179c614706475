import Collapsing.Proofs.Term.DegreeRange
import Collapsing.Proofs.Term.LinearOrder
import Mathlib.Order.Lattice

/-!
# Terms of higher degree

A degree other than `0`, `1` and `ω` is `亞(c, 0)` with a successor `c`.  A term has such a degree for
one reason only: it ends in `亞(c, 0)`, perhaps inside the subscript of its last addend, or inside
the subscript of the last addend of that subscript, and so on.  `Higher` builds these terms up from
`亞(c, 0)`.

The index of the fundamental sequence takes the place of this `亞(c, 0)`, and nothing else changes.
So the index is a faithful coordinate: a larger index gives a larger element, and the degree as the
index gives the term back.  The indices below the degree reach every term below: where an element
stands in a subscript, the next index makes the subscript larger, and then it does not matter what
stands beside it.

An index that is a limit keeps the place open: the element ends where the index ends, so it has the
degree of the index, and a further index goes on to the index that was put in.

## Main statements

- `higher_iff`: the terms of higher degree are those that are built up like this;
- `Higher.expand_strictMono`, `Higher.expand_degree`: the sequence increases, and ends in the term;
- `Higher.exists_le_expand`: the elements come arbitrarily close to the term;
- `Higher.degree_expand`, `Higher.expand_expand`: elements at limit indices, and their elements.
-/

namespace Collapsing.Term

/-! ## §1 How they are built up -/

/-- The terms whose degree is none of `0`, `1` and `ω`. -/
inductive Higher : Term → Prop where
  /-- `亞(c + 1, 0)`, which is its own degree. -/
  | regular {sub : Term} (h : sub.degree = one) : Higher (psi sub zero)
  /-- `亞(sub, 0)`, where the degree comes from the subscript. -/
  | subscript {sub : Term} (h : Higher sub) : Higher (psi sub zero)
  /-- A sum, where the degree comes from what follows the first addend. -/
  | sum (sub arg : Term) {rest : Term} (h : Higher rest) : Higher (cons sub arg rest)

/-- An addend in front does not matter for the degree. -/
theorem degree_cons_of_ne_zero {rest : Term} (h : rest ≠ zero) (sub arg : Term) :
    (cons sub arg rest).degree = rest.degree := by
  cases rest with
  | zero => exact absurd rfl h
  | cons sub' arg' rest => exact degree_cons_cons sub arg sub' arg' rest

/-- An addend in front stays as it is. -/
theorem expand_cons_of_ne_zero {rest : Term} (h : rest ≠ zero) (sub arg y : Term) :
    (cons sub arg rest).expand y = cons sub arg (rest.expand y) := by
  cases rest with
  | zero => exact absurd rfl h
  | cons sub' arg' rest => exact expand_cons_cons sub arg sub' arg' rest y

namespace Higher

variable {x : Term}

theorem ne_zero (h : Higher x) : x ≠ zero := by
  rintro rfl
  cases h

theorem degree_cons (h : Higher x) (sub arg : Term) : (cons sub arg x).degree = x.degree :=
  degree_cons_of_ne_zero h.ne_zero sub arg

theorem expand_cons (h : Higher x) (sub arg y : Term) :
    (cons sub arg x).expand y = cons sub arg (x.expand y) :=
  expand_cons_of_ne_zero h.ne_zero sub arg y

end Higher

/-- The terms of higher degree are those built up from some `亞(c + 1, 0)`. -/
theorem higher_iff {x : Term} : Higher x ↔ ∃ c, x.degree = psi c zero ∧ c.degree = one := by
  constructor
  · intro h
    induction h with
    | regular h_sub => exact ⟨_, degree_of_regular h_sub, h_sub⟩
    | subscript _ ih =>
      obtain ⟨c, eq, hc⟩ := ih
      refine ⟨c, ?_, hc⟩
      rw [degree_of_limitSub (by simp [eq]) (by rw [eq]; exact psi_zero_ne_one hc), eq]
    | sum sub arg h_rest ih => rwa [h_rest.degree_cons]
  · rintro ⟨c, eq, hc⟩
    induction x with
    | zero => cases eq
    | cons sub arg rest ih_sub _ ih_rest =>
      cases rest with
      | cons sub' arg' rest' => exact .sum sub arg (ih_rest eq)
      | zero =>
        cases shape sub arg with
        | unit => exact absurd eq.symm (psi_zero_ne_one hc)
        | regular h_sub => exact .regular h_sub
        | limitSub h₀ h₁ =>
          rw [degree_of_limitSub h₀ h₁] at eq
          exact .subscript (ih_sub eq)
        -- With an argument other than `0` the degree would be `ω`.
        | successorArg h_arg | omegaArg h_arg | higherArg h_arg =>
          rw [degree_psi, if_neg (by rw [h_arg]; simp)] at eq
          cases eq

theorem higher_of_degree {x : Term} (h₀ : x.degree ≠ zero) (h₁ : x.degree ≠ one)
    (hω : x.degree ≠ omega) : Higher x :=
  higher_iff.2 (degree_higher h₀ h₁ hω)

namespace Higher

variable {x y z : Term}

/-- A subscript of higher degree is a limit. -/
theorem degree_ne (h : Higher x) : x.degree ≠ zero ∧ x.degree ≠ one := by
  obtain ⟨c, eq, hc⟩ := higher_iff.1 h
  rw [eq]
  exact ⟨by simp, psi_zero_ne_one hc⟩

theorem degree_psi (h : Higher x) : (psi x zero).degree = x.degree :=
  degree_of_limitSub h.degree_ne.1 h.degree_ne.2

theorem expand_psi (h : Higher x) (y : Term) : (psi x zero).expand y = psi (x.expand y) zero :=
  expand_psi_zero_of_limit h.degree_ne.1 h.degree_ne.2 y

/-! ## §2 The index as a coordinate -/

/-- The sequence of a term of higher degree is strictly increasing in the index. -/
theorem expand_strictMono (h : Higher x) : StrictMono x.expand := by
  intro y z lt
  induction h with
  | regular h_sub =>
    -- The element is the index itself.
    rw [expand_psi_zero_of_successor h_sub, expand_psi_zero_of_successor h_sub]
    exact lt
  | subscript h_sub ih =>
    rw [h_sub.expand_psi, h_sub.expand_psi]
    exact cons_lt_cons_of_sub ih
  | sum sub arg h_rest ih =>
    rw [h_rest.expand_cons, h_rest.expand_cons]
    exact cons_lt_cons_of_rest sub arg ih

/-- The sequence ends in the term itself. -/
theorem expand_degree (h : Higher x) : x.expand x.degree = x := by
  induction h with
  | regular h_sub => rw [degree_of_regular h_sub, expand_psi_zero_of_successor h_sub]
  | subscript h_sub ih => rw [h_sub.degree_psi, h_sub.expand_psi, ih]
  | sum sub arg h_rest ih => rw [h_rest.degree_cons, h_rest.expand_cons, ih]

end Higher

/-- **The index is a faithful coordinate**: for a term of higher degree the elements are ordered as
their indices are, and the degree is the index of the term itself. -/
theorem expand_coordinate {x : Term} (h₀ : x.degree ≠ zero) (h₁ : x.degree ≠ one)
    (hω : x.degree ≠ omega) :
    (∀ y z, lessThan (x.expand y) (x.expand z) = true ↔ lessThan y z = true) ∧
      x.expand x.degree = x := by
  have higher : Higher x := higher_of_degree h₀ h₁ hω
  constructor
  · intro y z
    exact higher.expand_strictMono.lt_iff_lt
  · exact higher.expand_degree

/-- An ascending sum whose last addend has a limit subscript, at indices that are sums. -/
theorem expand_coordinate_limit_subscript :
    (one + psi (omega + bigOmega) zero).degree ≠ zero ∧
    (one + psi (omega + bigOmega) zero).degree ≠ one ∧
    (one + psi (omega + bigOmega) zero).degree ≠ omega ∧
    (lessThan ((one + psi (omega + bigOmega) zero).expand (omega + omega))
      ((one + psi (omega + bigOmega) zero).expand (bigOmega + one)) = true ↔
        lessThan (omega + omega) (bigOmega + one) = true) ∧
    (one + psi (omega + bigOmega) zero).expand (one + psi (omega + bigOmega) zero).degree =
      one + psi (omega + bigOmega) zero := by
  have coordinate := expand_coordinate (x := one + psi (omega + bigOmega) zero)
    (by decide) (by decide) (by decide)
  exact ⟨by decide, by decide, by decide, coordinate.1 _ _, coordinate.2⟩

/-! ## §3 The term as a supremum -/

theorem cons_lt_psi_zero_iff {sub arg rest c : Term} :
    cons sub arg rest < psi c zero ↔ sub < c := by
  rw [cons_lt_cons_iff]
  constructor
  · rintro (lt | ⟨_, lt | ⟨_, lt⟩⟩)
    · exact lt
    · exact absurd lt (not_lt_zero arg)
    · exact absurd lt (not_lt_zero rest)
  · exact .inl

namespace Higher

variable {x y z : Term}

theorem zero_lt_degree (h : Higher x) : zero < x.degree := by
  obtain ⟨c, eq, _⟩ := higher_iff.1 h
  rw [eq]
  exact zero_lt_cons c zero zero

/-- Below the degree every index has a next one. -/
theorem plus_one_lt_degree (h : Higher x) (lt : y < x.degree) : y + one < x.degree := by
  obtain ⟨c, eq, hc⟩ := higher_iff.1 h
  rw [eq] at lt ⊢
  cases y with
  | zero =>
    apply cons_lt_psi_zero_iff.2
    exact lt_of_le_of_ne (zero_le c) (ne_zero_of_degree_eq_one hc).symm
  | cons sub arg rest => exact cons_lt_psi_zero_iff.2 (cons_lt_psi_zero_iff.1 lt)

/-- **Approximation**: an index below the degree reaches any term below. -/
theorem exists_le_expand (h : Higher x) (lt : z < x) : ∃ y, y < x.degree ∧ z ≤ x.expand y := by
  induction h generalizing z with
  | regular h_sub =>
    -- The element is the index itself.
    refine ⟨z, ?_, ?_⟩
    · rwa [degree_of_regular h_sub]
    · rw [expand_psi_zero_of_successor h_sub]
  | @subscript sub h_sub ih =>
    rw [h_sub.degree_psi]
    cases z with
    | zero => exact ⟨zero, h_sub.zero_lt_degree, zero_le _⟩
    | cons sub' arg' rest' =>
      obtain ⟨y, y_lt, le⟩ := ih (cons_lt_psi_zero_iff.1 lt)
      -- One step further the subscript is larger than that of `z`, which decides.
      refine ⟨y + one, h_sub.plus_one_lt_degree y_lt, ?_⟩
      have larger : sub' < sub.expand (y + one) :=
        lt_of_le_of_lt le (h_sub.expand_strictMono (lt_plus_cons y zero zero zero))
      rw [h_sub.expand_psi]
      exact le_of_lt (cons_lt_cons_of_sub larger)
  | sum sub arg h_rest ih =>
    rw [h_rest.degree_cons]
    cases z with
    | zero => exact ⟨zero, h_rest.zero_lt_degree, zero_le _⟩
    | cons sub' arg' rest' =>
      simp only [h_rest.expand_cons]
      rcases cons_lt_cons_iff.1 lt with h | ⟨rfl, h | ⟨rfl, h⟩⟩
      -- If the first addend decides, every index will do.
      · exact ⟨zero, h_rest.zero_lt_degree, le_of_lt (cons_lt_cons_of_sub h)⟩
      · exact ⟨zero, h_rest.zero_lt_degree, le_of_lt (cons_lt_cons_of_arg sub' h)⟩
      · obtain ⟨y, y_lt, le⟩ := ih h
        exact ⟨y, y_lt, cons_le_cons_of_rest sub' arg' le⟩

end Higher

/-- **The term is the supremum of its elements**: below a term of higher degree, every term is at
most an element whose index lies below the degree. -/
theorem exists_index_reaching {x z : Term} (h₀ : x.degree ≠ zero) (h₁ : x.degree ≠ one)
    (hω : x.degree ≠ omega) (lt : lessThan z x = true) :
    ∃ y, lessThan y x.degree = true ∧ (z = x.expand y ∨ lessThan z (x.expand y) = true) := by
  obtain ⟨y, y_lt, le⟩ := (higher_of_degree h₀ h₁ hω).exists_le_expand lt
  exact ⟨y, y_lt, eq_or_lt_of_le le⟩

/-- A term whose subscript is an element of the sequence of the limit subscript above it. -/
theorem exists_index_reaching_subscript :
    (psi (omega + bigOmega) zero).degree ≠ zero ∧ (psi (omega + bigOmega) zero).degree ≠ one ∧
    (psi (omega + bigOmega) zero).degree ≠ omega ∧
    lessThan (psi (omega + omega) bigOmega) (psi (omega + bigOmega) zero) = true ∧
    ∃ y, lessThan y (psi (omega + bigOmega) zero).degree = true ∧
      (psi (omega + omega) bigOmega = (psi (omega + bigOmega) zero).expand y ∨
        lessThan (psi (omega + omega) bigOmega) ((psi (omega + bigOmega) zero).expand y) = true) :=
  ⟨by decide, by decide, by decide, by decide,
    exists_index_reaching (by decide) (by decide) (by decide) (by decide)⟩

/-! ## §4 Composition of indices -/

namespace Higher

variable {x y : Term}

/-- An index that is a limit passes its degree on to the element. -/
theorem degree_expand (h : Higher x) (hy : y.isLimit = true) :
    (x.expand y).degree = y.degree := by
  obtain ⟨h₀, h₁⟩ := isLimit_iff.1 hy
  induction h with
  | regular h_sub => rw [expand_psi_zero_of_successor h_sub]
  | subscript h_sub ih =>
    -- The subscript stays a limit, so the degree still comes from it.
    rw [h_sub.expand_psi, degree_of_limitSub (by rwa [ih]) (by rwa [ih]), ih]
  | @sum sub arg rest h_rest ih =>
    have stays : rest.expand y ≠ zero := by
      rwa [ne_eq, ← degree_eq_zero_iff, ih]
    rw [h_rest.expand_cons, degree_cons_of_ne_zero stays, ih]

/-- A second index goes to the index that was put in first. -/
theorem expand_expand (h : Higher x) (hy : y.isLimit = true) (z : Term) :
    (x.expand y).expand z = x.expand (y.expand z) := by
  obtain ⟨h₀, h₁⟩ := isLimit_iff.1 hy
  induction h with
  | regular h_sub => simp only [expand_psi_zero_of_successor h_sub]
  | @subscript sub h_sub ih =>
    have degree_eq : (sub.expand y).degree = y.degree := h_sub.degree_expand hy
    calc ((psi sub zero).expand y).expand z
        = (psi (sub.expand y) zero).expand z := by rw [h_sub.expand_psi]
      _ = psi ((sub.expand y).expand z) zero :=
          expand_psi_zero_of_limit (by rwa [degree_eq]) (by rwa [degree_eq]) z
      _ = psi (sub.expand (y.expand z)) zero := by rw [ih]
      _ = (psi sub zero).expand (y.expand z) := (h_sub.expand_psi _).symm
  | @sum sub arg rest h_rest ih =>
    -- What is expanded behind the first addend has not become `0`.
    have stays : rest.expand y ≠ zero := by
      rwa [ne_eq, ← degree_eq_zero_iff, h_rest.degree_expand hy]
    calc ((cons sub arg rest).expand y).expand z
        = (cons sub arg (rest.expand y)).expand z := by rw [h_rest.expand_cons]
      _ = cons sub arg ((rest.expand y).expand z) := expand_cons_of_ne_zero stays sub arg z
      _ = cons sub arg (rest.expand (y.expand z)) := by rw [ih]
      _ = (cons sub arg rest).expand (y.expand z) := (h_rest.expand_cons sub arg _).symm

end Higher

/-- **Composition of indices**: an element of a term of higher degree at a limit index has the
degree of the index, and its own elements are those at the elements of the index. -/
theorem expand_composition {x y : Term} (h₀ : x.degree ≠ zero) (h₁ : x.degree ≠ one)
    (hω : x.degree ≠ omega) (hy : y.isLimit = true) :
    (x.expand y).degree = y.degree ∧ ∀ z, (x.expand y).expand z = x.expand (y.expand z) := by
  have higher : Higher x := higher_of_degree h₀ h₁ hω
  constructor
  · exact higher.degree_expand hy
  · intro z
    exact higher.expand_expand hy z

/-- Inside a limit subscript, at an index that is a sum and whose last addend comes to nothing. -/
theorem expand_composition_limit_subscript :
    (one + psi (omega + bigOmega) zero).degree ≠ zero ∧
    (one + psi (omega + bigOmega) zero).degree ≠ one ∧
    (one + psi (omega + bigOmega) zero).degree ≠ omega ∧
    (bigOmega + omega).isLimit = true ∧
    ((one + psi (omega + bigOmega) zero).expand (bigOmega + omega)).degree =
      (bigOmega + omega).degree ∧
    ((one + psi (omega + bigOmega) zero).expand (bigOmega + omega)).expand zero =
      (one + psi (omega + bigOmega) zero).expand ((bigOmega + omega).expand zero) := by
  have composition := expand_composition (x := one + psi (omega + bigOmega) zero)
    (y := bigOmega + omega) (by decide) (by decide) (by decide) (by decide)
  exact ⟨by decide, by decide, by decide, by decide, composition.1, composition.2 zero⟩

end Collapsing.Term
