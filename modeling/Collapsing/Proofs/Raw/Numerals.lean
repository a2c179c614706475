import Collapsing.Proofs.Display.Runs
import Collapsing.Proofs.Raw.Values
import Collapsing.Proofs.Reader.Reading
import Collapsing.Proofs.Term.Copies

/-!
# Numerals

The numerals are a copy of the natural numbers inside the terms: the numeral `n` is the sum of `n`
ones, sums of numerals are sums of numbers, and the order of numerals is that of numbers.  A term has
a number as its value only if it is the numeral of this number, and a run of decimal digits is read as
the numeral of the number that it denotes, with or without zeros in front.

As raw terms the first numerals have shapes of their own, `0` and the principal term `1`, and only
from `2` on a numeral is a sum.  The number of a raw term is found by looking at its addends, which
must all be `1`.

## Main statements

- `numeralValue?_eq_some_iff`: the terms that have a value;
- `read_paddedDecimal`: the texts of digits;
- `numeralValue?_raw`: the value of raw forms;
- `numerals_embed`: all of these, with addition and order.
-/

namespace Collapsing

/-! ## §1 Values -/

namespace Term

/-- The value of a term is the number of which it is the numeral. -/
theorem numeralValue?_eq_some_iff {t : Term} {n : Nat} :
    t.numeralValue? = some n ↔ t = numeral n := by
  constructor
  · exact eq_numeral_of_numeralValue?
  · rintro rfl
    exact numeralValue?_numeral n

theorem numeralValue?_eq_none_iff {t : Term} : t.numeralValue? = none ↔ ∀ n, t ≠ numeral n := by
  rw [Option.eq_none_iff_forall_ne_some]
  exact forall_congr' fun n => not_congr numeralValue?_eq_some_iff

theorem lessThan_numeral (m n : Nat) : lessThan (numeral m) (numeral n) = decide (m < n) := by
  rw [Bool.eq_iff_iff, decide_eq_true_iff]
  exact numeral_strictMono.lt_iff_lt

end Term

/-! ## §2 Digits -/

namespace Reader

/-- A text of digits is a single token, its number. -/
theorem splits_digits {digits : Text} (nonempty : digits ≠ [])
    (digit : ∀ c ∈ digits, c.isDigit = true) :
    Splits digits [.number (numberOf digits)] := by
  have ended : ∀ c ∈ ([] : Text).head?, c.isDigit = false := nofun
  have split := Splits.number nonempty digit ended .nil
  rwa [List.append_nil] at split

/-- The digits of a number behind zeros. -/
def paddedDecimal (zeros n : Nat) : Text := List.replicate zeros '0' ++ Text.decimal n

theorem paddedDecimal_ne_nil (zeros n : Nat) : paddedDecimal zeros n ≠ [] :=
  List.append_ne_nil_of_right_ne_nil _ Nat.toDigits_ne_nil

theorem isDigit_of_mem_paddedDecimal {zeros n : Nat} {c : Char} (h : c ∈ paddedDecimal zeros n) :
    c.isDigit = true := by
  rcases List.mem_append.1 h with zero | digit
  · rw [List.eq_of_mem_replicate zero]
    rfl
  · exact Display.isDigit_of_mem_decimal digit

/-- Zeros in front make no difference. -/
theorem numberOf_paddedDecimal (zeros n : Nat) : numberOf (paddedDecimal zeros n) = n := by
  calc numberOf (paddedDecimal zeros n)
      = Nat.ofDigitChars 10 (Text.decimal n) (10 ^ zeros * 0) := by
        rw [numberOf, paddedDecimal, Nat.ofDigitChars_append, Nat.ofDigitChars_replicate_zero]
    _ = n := by rw [Nat.mul_zero, Text.decimal, Nat.ofDigitChars_ten_toDigits]

theorem splits_paddedDecimal (zeros n : Nat) : Splits (paddedDecimal zeros n) [.number n] := by
  have split := splits_digits (paddedDecimal_ne_nil zeros n)
    fun _ => isDigit_of_mem_paddedDecimal
  rwa [numberOf_paddedDecimal] at split

/-- The digits of a number are read as its numeral, with or without zeros in front. -/
theorem read_paddedDecimal (zeros n : Nat) :
    read (paddedDecimal zeros n) = .ok (Term.numeral n) :=
  (read_eq_ok_iff_derivation _ _).2 ⟨.last (.number n), splits_paddedDecimal zeros n, rfl⟩

end Reader

/-! ## §3 Raw terms -/

namespace RawTerm

/-- The natural number that a numeral stands for: the number of its addends, if all of them are
`1`. -/
def numeralValue? : RawTerm → Option Nat
  | zero => some 0
  | τ => if τ.addends.all isOne then some τ.addends.length else none

theorem numeralValue?_eq_ite (τ : RawTerm) :
    τ.numeralValue? = if τ.addends.all isOne then some τ.addends.length else none := by
  cases τ <;> rfl

theorem numeralValue?_raw (t : Term) : t.raw.numeralValue? = t.numeralValue? := by
  rw [numeralValue?_eq_ite, Term.addends_raw]
  fun_induction Term.numeralValue? t with
  | case1 => rfl
  | case2 rest ih =>
    -- One more `1` in front changes only the number.
    rw [← ih, Term.rawAddends_cons, List.all_cons, List.length_cons]
    show (if rest.rawAddends.all isOne = true then some (rest.rawAddends.length + 1) else none) = _
    split <;> rfl
  | case3 sub arg rest other =>
    have not_one : isOne (psi sub.raw arg.raw) = false := by
      rw [← Term.raw_psi, isOne_raw, decide_eq_false_iff_not]
      rintro ⟨⟩
      exact other rfl rfl
    rw [Term.rawAddends_cons, List.all_cons, not_one]
    rfl

/-- The numeral of a natural number is built without a failing check. -/
theorem numeral?_natCast (n : Nat) : numeral? n = .ok (Term.numeral n).raw := numeral?_raw n

/-- A canonical raw term has the value `n` exactly if it is what is built as the numeral `n`. -/
theorem numeralValue?_eq_some_iff {τ : RawTerm} (hτ : Canonical τ) (n : Nat) :
    τ.numeralValue? = some n ↔ numeral? n = .ok τ := by
  obtain ⟨t, rfl⟩ := (canonical_iff τ).1 hτ
  rw [numeralValue?_raw, Term.numeralValue?_eq_some_iff, numeral?_natCast, Except.ok.injEq,
    Term.raw_injective.eq_iff, eq_comm]

/-! ## §4 The main statement -/

/-- **Numerals embed the natural numbers**: a term has the value `n` exactly if it is the numeral
`n`, and no value exactly if it is no numeral; the sums of numerals and their order are those of the
numbers; and the digits of a number, with any number of zeros in front, are read as its numeral.
Among the canonical raw terms the numerals have the same values, sums and order, and from digits they
are built. -/
theorem numerals_embed :
    (∀ (t : Term) (n : Nat), t.numeralValue? = some n ↔ t = .numeral n) ∧
    (∀ t : Term, t.numeralValue? = none ↔ ∀ n, t ≠ .numeral n) ∧
    (∀ m n : Nat, Term.numeral m + Term.numeral n = .numeral (m + n)) ∧
    (∀ m n : Nat, (Term.numeral m).lessThan (.numeral n) = decide (m < n)) ∧
    (∀ zeros n : Nat, Reader.read (Reader.paddedDecimal zeros n) = .ok (.numeral n)) ∧
    (∀ τ, Canonical τ → ∀ n : Nat, τ.numeralValue? = some n ↔ numeral? n = .ok τ) ∧
    (∀ m n : Nat, ∃ μ ν, numeral? m = .ok μ ∧ numeral? n = .ok ν ∧
      plus μ ν = numeral? (m + n : Nat) ∧
      Reaches (fun budget => lessThan budget μ ν) (.ok (decide (m < n)))) ∧
    ∀ zeros n : Nat, ∃ sum : Reader.SumTree,
      Reader.Splits (Reader.paddedDecimal zeros n) sum.tokens ∧ sum.build = numeral? n := by
  refine ⟨fun t n => Term.numeralValue?_eq_some_iff, fun t => Term.numeralValue?_eq_none_iff,
    Term.numeral_plus, Term.lessThan_numeral, Reader.read_paddedDecimal,
    fun τ hτ n => numeralValue?_eq_some_iff hτ n, ?_, ?_⟩
  · intro m n
    refine ⟨_, _, numeral?_natCast m, numeral?_natCast n, ?_, ?_⟩
    · rw [plus_raw, Term.numeral_plus, numeral?_natCast]
    · rw [← Term.lessThan_numeral]
      exact reaches_lessThan (.numeral m) (.numeral n)
  · intro zeros n
    refine ⟨.last (.number n), Reader.splits_paddedDecimal zeros n, ?_⟩
    rw [Reader.SumTree.build_raw, numeral?_natCast]
    rfl

/-- The numeral of three ones, and a sum that has no value. -/
theorem numerals_embed_sums :
    Canonical (sum [one, one, one]) ∧
      ((sum [one, one, one]).numeralValue? = some 3 ↔
        numeral? (3 : Nat) = .ok (sum [one, one, one])) ∧
      Canonical (sum [one, omega]) ∧
      ((sum [one, omega]).numeralValue? = some 2 ↔
        numeral? (2 : Nat) = .ok (sum [one, omega])) := by
  have three : Canonical (sum [one, one, one]) := canonical_raw (Term.numeral 3)
  have other : Canonical (sum [one, omega]) := canonical_raw (Term.one + Term.omega)
  exact ⟨three, numerals_embed.2.2.2.2.2.1 _ three 3, other, numerals_embed.2.2.2.2.2.1 _ other 2⟩

end RawTerm

end Collapsing
