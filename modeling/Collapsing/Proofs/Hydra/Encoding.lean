import Collapsing.Proofs.Hydra.Drawable
import Mathlib.Data.List.Chain
import Mathlib.Data.List.TakeWhile

/-!
# Rows encode terms

A list of rows is the hydra of a term if and only if it begins at depth 0, goes down to any depth but
up by at most one level at a time, and has no negative depths or labels.  Then it is the hydra of one
term only.

The term is found by reading the rows from the left.  The first row belongs to the first addend, and
so do the deep rows right behind it: they are the rows of its argument, one level too deep.  The next
row of depth 0 begins the next addend.

## Main statements

- `admissible_of_rows?`: the rows of a term are admissible;
- `ofRows_of_rows?`: the rows of a term are read as this term;
- `rows?_ofRows`: admissible rows are the rows of the term that they are read as;
- `rows?_bijective`: terms that can be drawn correspond to admissible lists of rows.
-/

namespace Collapsing

namespace Row

/-! ## §1 Admissible rows -/

/-- The same node one level less deep. -/
def shallower (row : Row) : Row := { row with depth := row.depth - 1 }

@[simp] theorem depth_shallower (row : Row) : row.shallower.depth = row.depth - 1 := rfl

@[simp] theorem label_shallower (row : Row) : row.shallower.label = row.label := rfl

@[simp] theorem depth_deeper (row : Row) : row.deeper.depth = row.depth + 1 := rfl

@[simp] theorem label_deeper (row : Row) : row.deeper.label = row.label := rfl

@[simp] theorem shallower_deeper (row : Row) : row.deeper.shallower = row := by
  simp [deeper, shallower]

@[simp] theorem deeper_shallower (row : Row) : row.shallower.deeper = row := by
  simp [deeper, shallower]

/-- Whether a node stands on another one. -/
def isDeep (row : Row) : Bool := 0 < row.depth

/-- The lists of rows that go up level by level from depth 0, without negative entries. -/
structure Admissible (rows : List Row) : Prop where
  /-- No depth and no label is negative. -/
  nonneg : ∀ row ∈ rows, 0 ≤ row.depth ∧ 0 ≤ row.label
  /-- The first row stands at depth 0. -/
  start : ∀ first ∈ rows.head?, first.depth = 0
  /-- No row stands more than one level deeper than the row before it. -/
  climb : rows.IsChain fun row next => next.depth ≤ row.depth + 1

theorem admissible_nil : Admissible [] := ⟨by simp, by simp, .nil⟩

variable {row : Row} {below others rows : List Row}

/-- A node with what stands on it, and further nodes beside it. -/
theorem Admissible.node (h_below : Admissible below) (h_others : Admissible others) (n : Nat) :
    Admissible (⟨0, n⟩ :: (below.map deeper ++ others)) := by
  refine ⟨?_, by simp, ?_⟩
  · intro row h
    simp only [List.mem_cons, List.mem_append, List.mem_map] at h
    rcases h with rfl | ⟨row, h, rfl⟩ | h
    · simp
    · have nonneg := h_below.nonneg row h
      simp only [depth_deeper, label_deeper]
      omega
    · exact h_others.nonneg row h
  · rw [List.isChain_cons, List.isChain_append, List.isChain_map]
    refine ⟨?_, ?_, h_others.climb, ?_⟩
    · -- The row behind the node stands on it or beside it.
      intro next h
      cases below with
      | nil => simp [h_others.start next h]
      | cons first _ =>
        have bottom := h_below.start first rfl
        cases h
        simp [bottom]
    · exact h_below.climb.imp fun _ _ h => by simpa using h
    · intro last h_last next h_next
      obtain ⟨row, h_row, rfl⟩ := List.mem_map.1 (List.mem_of_getLast? h_last)
      have nonneg := h_below.nonneg row h_row
      simp only [h_others.start next h_next, depth_deeper]
      omega

/-- The deep rows behind a node, one level less deep. -/
theorem Admissible.inside (h : Admissible (row :: rows)) :
    Admissible ((rows.takeWhile isDeep).map shallower) := by
  have deep : ∀ next ∈ rows.takeWhile isDeep, 0 < next.depth := fun next h => by
    simpa [isDeep] using List.mem_takeWhile_imp h
  refine ⟨?_, ?_, ?_⟩
  · intro lowered h_lowered
    obtain ⟨next, h_next, rfl⟩ := List.mem_map.1 h_lowered
    have mem : next ∈ rows := (List.takeWhile_prefix _).mem h_next
    have nonneg := h.nonneg next (.tail row mem)
    have above := deep next h_next
    simp only [depth_shallower, label_shallower]
    omega
  · intro first h_first
    cases rows with
    | nil => simp at h_first
    | cons next rest =>
      by_cases h_deep : next.isDeep = true
      · rw [List.takeWhile_cons_of_pos h_deep] at h_first
        cases h_first
        -- A deep row right behind the node stands on level 1.
        have bottom := h.start row rfl
        have level := (List.isChain_cons_cons.1 h.climb).1
        have above := deep next (by simp [List.takeWhile_cons_of_pos h_deep])
        simp only [depth_shallower]
        omega
      · rw [List.takeWhile_cons_of_neg h_deep] at h_first
        simp at h_first
  · rw [List.isChain_map]
    have climb : (rows.takeWhile isDeep).IsChain fun row next => next.depth ≤ row.depth + 1 :=
      h.climb.tail.prefix (List.takeWhile_prefix _)
    exact climb.imp fun _ _ h => by simp only [depth_shallower]; omega

/-- The rows from the next one on that is not deep. -/
theorem Admissible.beside (h : Admissible (row :: rows)) : Admissible (rows.dropWhile isDeep) := by
  have sub : rows.dropWhile isDeep <:+ rows := List.dropWhile_suffix _
  refine ⟨fun next h_next => h.nonneg next (.tail row (sub.mem h_next)), ?_,
    h.climb.tail.suffix sub⟩
  intro first h_first
  have shallow := List.head?_dropWhile_not isDeep rows
  rw [h_first] at shallow
  have mem : first ∈ rows := sub.mem (List.mem_of_head? h_first)
  have nonneg := h.nonneg first (.tail row mem)
  simp [isDeep] at shallow
  omega

end Row

namespace Term

/-! ## §2 Reading rows -/

/-- The term whose hydra has the given rows. -/
def ofRows : List Row → Term
  | [] => zero
  | row :: rows =>
    cons (numeral row.label.toNat) (ofRows ((rows.takeWhile Row.isDeep).map Row.shallower))
      (ofRows (rows.dropWhile Row.isDeep))
termination_by rows => rows.length
decreasing_by
  · have fewer := (List.takeWhile_prefix Row.isDeep (l := rows)).length_le
    simp only [List.length_map, List.length_cons]
    omega
  · have fewer := (List.dropWhile_suffix Row.isDeep (l := rows)).length_le
    simp only [List.length_cons]
    omega

/-- The rows of a term are admissible. -/
theorem admissible_of_rows? {t : Term} {rows : List Row} (h : t.rows? = some rows) :
    Row.Admissible rows := by
  induction t generalizing rows with
  | zero =>
    cases h
    exact Row.admissible_nil
  | cons sub arg rest _ ih_arg ih_rest =>
    obtain ⟨n, below, others, _, h_arg, h_rest, rfl⟩ := rows?_cons_eq_some_iff.1 h
    exact (ih_arg h_arg).node (ih_rest h_rest) n

/-- The deep rows behind the node of an addend are those of its argument. -/
theorem split_rows {below others : List Row} (h_below : Row.Admissible below)
    (h_others : Row.Admissible others) :
    (below.map Row.deeper ++ others).takeWhile Row.isDeep = below.map Row.deeper ∧
      (below.map Row.deeper ++ others).dropWhile Row.isDeep = others := by
  have deep : ∀ row ∈ below.map Row.deeper, row.isDeep = true := by
    intro raised h_raised
    obtain ⟨row, h_row, rfl⟩ := List.mem_map.1 h_raised
    have nonneg := h_below.nonneg row h_row
    rw [Row.isDeep, Row.depth_deeper, decide_eq_true_eq]
    omega
  rw [List.takeWhile_append_of_pos deep, List.dropWhile_append_of_pos deep]
  cases others with
  | nil => simp
  | cons first rest =>
    have shallow : ¬ first.isDeep = true := by simp [Row.isDeep, h_others.start first rfl]
    rw [List.takeWhile_cons_of_neg shallow, List.dropWhile_cons_of_neg shallow]
    simp

/-- The rows of a term are read as this term. -/
theorem ofRows_of_rows? {t : Term} {rows : List Row} (h : t.rows? = some rows) :
    ofRows rows = t := by
  induction t generalizing rows with
  | zero =>
    cases h
    rw [ofRows]
  | cons sub arg rest _ ih_arg ih_rest =>
    obtain ⟨n, below, others, rfl, h_arg, h_rest, rfl⟩ := rows?_cons_eq_some_iff.1 h
    obtain ⟨inside, beside⟩ := split_rows (admissible_of_rows? h_arg) (admissible_of_rows? h_rest)
    have levels : (below.map Row.deeper).map Row.shallower = below := by simp [Function.comp_def]
    rw [ofRows, inside, beside, levels, ih_arg h_arg, ih_rest h_rest, Int.toNat_natCast]

/-- Admissible rows are the rows of the term that they are read as. -/
theorem rows?_ofRows {rows : List Row} (h : Row.Admissible rows) :
    (ofRows rows).rows? = some rows := by
  fun_induction ofRows rows with
  | case1 => rfl
  | case2 row rows ih_inside ih_beside =>
    have levels : ((rows.takeWhile Row.isDeep).map Row.shallower).map Row.deeper =
        rows.takeWhile Row.isDeep := by simp [Function.comp_def]
    have bottom : row.depth = 0 := h.start row rfl
    have label : (row.label.toNat : Int) = row.label :=
      Int.toNat_of_nonneg (h.nonneg row (.head rows)).2
    refine rows?_cons_eq_some_iff.2
      ⟨_, _, _, rfl, ih_inside h.inside, ih_beside h.beside, ?_⟩
    rw [levels, List.takeWhile_append_dropWhile, label, ← bottom]

/-- **Hydras encode terms**: a term can be drawn if and only if all subscripts that are met on the way
through addends and arguments are numerals; two terms with the same rows are equal; and a list of rows
belongs to a term if and only if it is admissible. -/
theorem rows?_bijective :
    (∀ t : Term, t.rows?.isSome = true ↔
      ∀ sub arg, Reached t (psi sub arg) → ∃ n, sub = numeral n) ∧
    (∀ (s t : Term) (rows : List Row), s.rows? = some rows → t.rows? = some rows → s = t) ∧
    ∀ rows : List Row, (∃ t : Term, t.rows? = some rows) ↔ Row.Admissible rows := by
  refine ⟨fun t => rows?_isSome_iff, ?_, ?_⟩
  · intro s t rows hs ht
    rw [← ofRows_of_rows? hs, ofRows_of_rows? ht]
  · intro rows
    constructor
    · intro ⟨t, h⟩
      exact admissible_of_rows? h
    · intro h
      exact ⟨ofRows rows, rows?_ofRows h⟩

/-- A node of height two beside another one, and a term with `ω` as a subscript inside. -/
theorem rows?_bijective_branching :
    Row.Admissible [⟨0, 2⟩, ⟨1, 0⟩, ⟨2, 0⟩, ⟨0, 1⟩] ∧
    ofRows [⟨0, 2⟩, ⟨1, 0⟩, ⟨2, 0⟩, ⟨0, 1⟩] = psi (numeral 2) omega + bigOmega ∧
    ¬ (one + psi one (psi omega zero)).rows?.isSome = true := by
  have drawn : (psi (numeral 2) omega + bigOmega).rows? =
      some [⟨0, 2⟩, ⟨1, 0⟩, ⟨2, 0⟩, ⟨0, 1⟩] := rfl
  have admissible := (rows?_bijective.2.2 _).1 ⟨_, drawn⟩
  refine ⟨admissible, rows?_bijective.2.1 _ _ _ (rows?_ofRows admissible) drawn, ?_⟩
  intro h
  have inside : Reached (one + psi one (psi omega zero)) (psi omega zero) := by
    have last : Reached (one + psi one (psi omega zero)) (psi one (psi omega zero)) :=
      .addend (by simp)
    exact last.argument (by simp)
  obtain ⟨n, eq⟩ := (rows?_bijective.1 _).1 h omega zero inside
  have value := numeralValue?_numeral n
  rw [← eq] at value
  cases value

end Term

end Collapsing
