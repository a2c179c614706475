import Collapsing.Hydra.Layout
import Collapsing.Proofs.Display.Runs
import Collapsing.Proofs.Hydra.Encoding
import Collapsing.Reader.Token

/-!
# Outlines determine terms

An outline is one text, in which nothing but line feeds and spaces tells the nodes apart.  It can be
read back nevertheless.  No line holds a line feed, so the text falls into its lines; a label begins
with a digit, so the spaces in front of it are the indentation and give the depth of the node; and
the rows that are found in this way belong to one term only.

## Main statements

- `splitOn_outline`: the lines of an outline;
- `ofLine_line`, `ofOutline_outline`: rows are read back from their lines and from the outline;
- `outline_determines_term`: terms with the same outline are equal.
-/

namespace Collapsing

namespace Row

/-! ## §1 Lines -/

theorem integer_natCast (n : Nat) : Text.integer n = Text.decimal n := rfl

theorem notMem_decimal {c : Char} (h : c.isDigit = false) (n : Nat) : c ∉ Text.decimal n := by
  intro mem
  rw [Display.isDigit_of_mem_decimal mem] at h
  cases h

/-- A line holds spaces, digits and perhaps a minus sign. -/
theorem newline_notMem_line (row : Row) : '\n' ∉ row.line := by
  intro mem
  have not_digit : ('\n').isDigit = false := by decide
  rcases List.mem_append.1 mem with indentation | label
  · exact absurd (List.eq_of_mem_replicate indentation) (by decide)
  · cases h : row.label with
    | ofNat n =>
      rw [h] at label
      exact notMem_decimal not_digit n label
    | negSucc n =>
      -- A minus sign stands in front of the digits.
      rw [h] at label
      rcases List.mem_cons.1 label with minus | digits
      · exact absurd minus (by decide)
      · exact notMem_decimal not_digit (n + 1) digits

/-- Behind its first line, an outline goes on with a line for each row. -/
theorem intercalate_lines (first : Text) (rows : List Row) :
    ['\n'].intercalate (first :: rows.map line) =
      first ++ rows.flatMap fun row => '\n' :: row.line := by
  induction rows generalizing first with
  | nil => simp
  | cons row rows ih =>
    rw [List.map_cons, List.intercalate_cons_cons, ih, List.flatMap_cons]
    simp

/-- **The lines of an outline** are the star and the lines of the rows. -/
theorem splitOn_outline (rows : List Row) :
    (outline rows).splitOn '\n' = ['*'] :: rows.map line := by
  have joined : outline rows = ['\n'].intercalate (['*'] :: rows.map line) := by
    rw [intercalate_lines]
    rfl
  rw [joined]
  -- Cutting undoes the joining, since no line holds a line feed of its own.
  apply List.splitOn_intercalate
  · intro text mem
    rcases List.mem_cons.1 mem with rfl | mem
    · decide
    · obtain ⟨row, _, rfl⟩ := List.mem_map.1 mem
      exact newline_notMem_line row
  · exact List.cons_ne_nil _ _

/-! ## §2 Reading an outline -/

/-- The node of a line: two spaces for each level, and behind them the label. -/
def ofLine (line : Text) : Row where
  depth := ((line.takeWhile (· = ' ')).length / 2 : Nat) - 1
  label := Reader.numberOf (line.dropWhile (· = ' '))

/-- The rows below the root in an outline. -/
def ofOutline (text : Text) : List Row := ((text.splitOn '\n').drop 1).map ofLine

/-- The indentation ends where the label begins. -/
theorem split_line (indentation n : Nat) :
    (List.replicate indentation ' ' ++ Text.decimal n).takeWhile (· = ' ') =
        List.replicate indentation ' ' ∧
      (List.replicate indentation ' ' ++ Text.decimal n).dropWhile (· = ' ') = Text.decimal n := by
  have spaces : ∀ c ∈ List.replicate indentation ' ', decide (c = ' ') = true := by
    intro c mem
    rw [List.eq_of_mem_replicate mem]
    rfl
  have no_space : ∀ c ∈ Text.decimal n, ¬ decide (c = ' ') = true := by
    intro c mem space
    rw [of_decide_eq_true space] at mem
    exact notMem_decimal (by decide) n mem
  rw [List.takeWhile_append_of_pos spaces, List.dropWhile_append_of_pos spaces]
  constructor
  · rw [List.takeWhile_eq_nil_iff.2 fun _ => no_space _ (List.get_mem _ _), List.append_nil]
  · exact List.dropWhile_eq_self_iff.2 fun _ => no_space _ (List.getElem_mem _)

/-- A row is read back from its line. -/
theorem ofLine_line {row : Row} (nonneg : 0 ≤ row.depth ∧ 0 ≤ row.label) :
    ofLine row.line = row := by
  obtain ⟨depth, label⟩ := row
  obtain ⟨n, rfl⟩ := Int.eq_ofNat_of_zero_le nonneg.2
  obtain ⟨indentation, digits⟩ := split_line (2 * (depth + 1).toNat) n
  have value : Reader.numberOf (Text.decimal n) = n := Nat.ofDigitChars_ten_toDigits
  -- A line is indented one level further than the row is deep.
  have level : ((2 * (depth + 1).toNat / 2 : Nat) : Int) - 1 = depth := by
    have above : 0 ≤ depth := nonneg.1
    omega
  rw [line, integer_natCast, ofLine, indentation, digits, List.length_replicate, level, value]

/-- **Outlines are read back** as the rows they were written from. -/
theorem ofOutline_outline {rows : List Row}
    (nonneg : ∀ row ∈ rows, 0 ≤ row.depth ∧ 0 ≤ row.label) : ofOutline (outline rows) = rows := by
  have each : ∀ row ∈ rows, (ofLine ∘ line) row = row := fun row mem => ofLine_line (nonneg row mem)
  rw [ofOutline, splitOn_outline, List.drop_one, List.tail_cons, List.map_map,
    List.map_congr_left each, List.map_id']

end Row

/-! ## §3 Outlines of terms -/

namespace Layout

variable {t : Term} {rows : List Row} {drawing : Layout} {nodeSize nodeDistance : Float}

theorem ofTerm?_of_rows? (h : t.rows? = some rows) :
    ofTerm? t nodeSize nodeDistance = some ⟨.root, rows, nodeSize, nodeDistance⟩ := by
  rw [ofTerm?, h, Option.map_some]

/-- The term is found again in the outline of its layout. -/
theorem ofRows_ofOutline (h : ofTerm? t nodeSize nodeDistance = some drawing) :
    Term.ofRows (Row.ofOutline drawing.outline) = t := by
  obtain ⟨rows, h_rows, rfl⟩ := Option.map_eq_some_iff.1 h
  have admissible : Row.Admissible rows := Term.admissible_of_rows? h_rows
  rw [outline, Row.ofOutline_outline admissible.nonneg, Term.ofRows_of_rows? h_rows]

/-- **Outlines determine terms**: terms whose layouts have the same outline are equal, and the outline
of a term has one line more than the term has rows. -/
theorem outline_determines_term :
    (∀ (s t : Term) (drawing drawing' : Layout) (size size' distance distance' : Float),
      ofTerm? s size distance = some drawing → ofTerm? t size' distance' = some drawing' →
        drawing.outline = drawing'.outline → s = t) ∧
    ∀ (t : Term) (rows : List Row) (size distance : Float), t.rows? = some rows →
      ∃ drawing, ofTerm? t size distance = some drawing ∧
        (drawing.outline.splitOn '\n').length = rows.length + 1 := by
  constructor
  · intro s t drawing drawing' _ _ _ _ hs ht same
    -- Both terms are what the common outline is read as.
    rw [← ofRows_ofOutline hs, same, ofRows_ofOutline ht]
  · intro t rows _ _ h
    refine ⟨_, ofTerm?_of_rows? h, ?_⟩
    rw [outline, Row.splitOn_outline, List.length_cons, List.length_map]

/-- A term that is built up by addition, and the term that its rows are read as. -/
theorem outline_determines_term_branching :
    Term.ofRows [⟨0, 2⟩, ⟨1, 0⟩, ⟨2, 0⟩, ⟨0, 1⟩] = .psi (.numeral 2) .omega + .bigOmega ∧
      ∃ drawing, ofTerm? (.psi (.numeral 2) .omega + .bigOmega) 50 50 = some drawing ∧
        (drawing.outline.splitOn '\n').length = 5 := by
  have drawn : (Term.psi (.numeral 2) .omega + .bigOmega).rows? =
      some [⟨0, 2⟩, ⟨1, 0⟩, ⟨2, 0⟩, ⟨0, 1⟩] := rfl
  have read : (Term.ofRows [⟨0, 2⟩, ⟨1, 0⟩, ⟨2, 0⟩, ⟨0, 1⟩]).rows? =
      some [⟨0, 2⟩, ⟨1, 0⟩, ⟨2, 0⟩, ⟨0, 1⟩] := Term.rows?_ofRows (Term.admissible_of_rows? drawn)
  constructor
  · exact outline_determines_term.1 _ _ _ _ 50 50 50 50 (ofTerm?_of_rows? read)
      (ofTerm?_of_rows? drawn) rfl
  · exact outline_determines_term.2 _ _ 50 50 drawn

end Layout

end Collapsing
