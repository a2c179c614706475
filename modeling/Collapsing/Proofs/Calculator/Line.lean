import Collapsing.Calculator.Session
import Mathlib.Data.List.DropRight

/-!
# Lines of a session

A line is trimmed, and then cut in three: its word stands before the first space, and what follows
is two operands, before and after the first `;`, which are trimmed as well.  The word decides on the
command.

A line that is put together from a word and two trimmed operands is taken apart into the same three
pieces.  Trimming the line does not spoil them: at the end of the line it only takes away what
trimming the second operand takes away in any case.

## Main statements

- `ofLine_eq_leave_iff`, `ofLine_eq_set_iff`, `ofLine_of_operation`, `ofLine_of_hydra`: the command
  of a line by its word;
- `word_assemble`, `operandA_assemble`, `operandB_assemble`: the pieces of an assembled line.
-/

namespace Collapsing

/-! ## §1 Trimming and cutting -/

namespace Text

theorem trim_cons_of_isBlank {c : Char} (h : isBlank c = true) (text : Text) :
    trim (c :: text) = trim text := by
  rw [trim, List.dropWhile_cons_of_pos h, trim]

theorem trim_concat_of_isBlank {c : Char} (h : isBlank c = true) (text : Text) :
    trim (text ++ [c]) = trim text := by
  rw [trim, trim, List.dropWhile_append]
  split
  · -- The text is blank altogether.
    rename_i all
    rw [List.isEmpty_iff.1 all, List.dropWhile_cons_of_pos h, List.dropWhile_nil]
  · rw [List.reverse_append, List.reverse_singleton, List.singleton_append,
      List.dropWhile_cons_of_pos h]

/-- A text that begins with a character that is not blank is trimmed at its end only. -/
theorem trim_of_head {c : Char} (h : isBlank c = false) (rest : Text) :
    trim (c :: rest) = (c :: rest).rdropWhile isBlank := by
  rw [trim, List.dropWhile_cons_of_neg (by simp [h]), List.rdropWhile]

/-- Trimming the end beforehand changes nothing. -/
theorem trim_rdropWhile (text : Text) : trim (text.rdropWhile isBlank) = trim text := by
  induction text using List.reverseRecOn with
  | nil => rfl
  | append_singleton text c ih =>
    by_cases h : isBlank c = true
    · rw [List.rdropWhile_concat_pos _ _ _ h, ih, trim_concat_of_isBlank h]
    · rw [List.rdropWhile_concat_neg _ _ _ h]

/-- Nothing is trimmed in front of a character that is not blank. -/
theorem rdropWhile_append_cons (front : Text) {c : Char} (h : isBlank c = false) (rest : Text) :
    (front ++ c :: rest).rdropWhile isBlank = front ++ c :: rest.rdropWhile isBlank := by
  induction rest using List.reverseRecOn with
  | nil => rw [List.rdropWhile_concat_neg _ _ _ (by simp [h]), List.rdropWhile_nil]
  | append_singleton rest d ih =>
    rw [← List.cons_append, ← List.append_assoc]
    by_cases hd : isBlank d = true
    · rw [List.rdropWhile_concat_pos _ _ _ hd, List.rdropWhile_concat_pos _ _ _ hd, ih]
    · rw [List.rdropWhile_concat_neg _ _ _ hd, List.rdropWhile_concat_neg _ _ _ hd,
        List.append_assoc, List.cons_append]

theorem cut_append_cons {c : Char} {front : Text} (h : c ∉ front) (rest : Text) :
    cut c (front ++ c :: rest) = (front, rest) := by
  have others : ∀ d ∈ front, decide (d ≠ c) = true := by
    intro d mem
    exact decide_eq_true fun eq => h (eq ▸ mem)
  rw [cut, List.takeWhile_append_of_pos others, List.dropWhile_append_of_pos others,
    List.takeWhile_cons_of_neg (by simp), List.dropWhile_cons_of_neg (by simp), List.append_nil,
    List.drop_one, List.tail_cons]

end Text

namespace Command

/-! ## §2 The pieces of a line -/

/-- The word of a line. -/
def word (line : Text) : String := String.ofList (Text.cut ' ' (Text.trim line)).1

/-- The operand before the first `;`. -/
def operandA (line : Text) : Text :=
  Text.trim (Text.cut ';' (Text.cut ' ' (Text.trim line)).2).1

/-- The operand after the first `;`. -/
def operandB (line : Text) : Text :=
  Text.trim (Text.cut ';' (Text.cut ' ' (Text.trim line)).2).2

theorem word_of_blank {line : Text} (h : Text.trim line = []) : word line = "" := by
  rw [word, h]
  rfl

/-! ## §3 The command of a line -/

theorem ofLine_eq_leave_iff (line : Text) :
    ofLine line = .leave ↔ word line = "quit" ∨ word line = "exit" := by
  unfold ofLine
  split
  case h_1 blank => simp [word_of_blank blank]
  case h_2 =>
    dsimp only
    -- One case for each word, and the last one for all words that are left.
    split
    case h_7 => split <;> simp_all [word]
    all_goals simp_all [word]

theorem ofLine_eq_set_iff (line name : Text) :
    ofLine line = .set name ↔ word line = "set" ∧ operandA line = name := by
  unfold ofLine
  split
  case h_1 blank => simp [word_of_blank blank]
  case h_2 =>
    dsimp only
    split
    case h_7 => split <;> simp_all [word]
    all_goals simp_all [word, operandA]

theorem ofLine_of_operation {line : Text} {operation : Operation}
    (h : Operation.ofWord? (word line) = some operation) :
    ofLine line = .compute operation (operandA line) (operandB line) := by
  unfold ofLine
  split
  case h_1 blank =>
    rw [word_of_blank blank] at h
    cases h
  case h_2 =>
    dsimp only
    split
    case h_7 =>
      rw [word] at h
      rw [h]
      rfl
    -- The other words are those of no operation.
    all_goals simp_all [word, Operation.ofWord?]

theorem ofLine_of_hydra {line : Text} (h : word line = "hydra") :
    ofLine line = .hydra (operandA line) := by
  unfold ofLine
  split
  case h_1 blank => simp [word_of_blank blank] at h
  case h_2 =>
    dsimp only
    rw [word] at h
    rw [h]
    rfl

/-! ## §4 Assembled lines -/

/-- The line `word A ; B`. -/
def assemble (word : String) (a b : Text) : Text :=
  word.toList ++ ' ' :: (a ++ " ; ".toList ++ b)

/-- A word that can be found again: it is not empty, and nothing in it is blank. -/
structure IsBare (word : String) : Prop where
  ne_nil : word.toList ≠ []
  isBlank_of_mem : ∀ c ∈ word.toList, Text.isBlank c = false

section Assemble

variable {w : String} {a b : Text}

/-- Trimming an assembled line only affects what stands behind the `;`. -/
theorem trim_assemble (bare : IsBare w) (a b : Text) :
    Text.trim (assemble w a b) =
      w.toList ++ ' ' :: ((a ++ [' ']) ++ ';' :: (' ' :: b).rdropWhile Text.isBlank) := by
  obtain ⟨c, rest, cons⟩ := List.exists_cons_of_ne_nil bare.ne_nil
  have solid : Text.isBlank c = false := bare.isBlank_of_mem c (cons ▸ .head rest)
  have line : assemble w a b = (w.toList ++ ' ' :: (a ++ [' '])) ++ ';' :: ' ' :: b := by
    simp [assemble]
  calc Text.trim (assemble w a b)
      = (assemble w a b).rdropWhile Text.isBlank := by
        rw [assemble, cons, List.cons_append, Text.trim_of_head solid]
    _ = (w.toList ++ ' ' :: (a ++ [' '])) ++ ';' :: (' ' :: b).rdropWhile Text.isBlank := by
        rw [line, Text.rdropWhile_append_cons _ (by decide)]
    _ = _ := by simp

theorem cut_trim_assemble (bare : IsBare w) (a b : Text) :
    Text.cut ' ' (Text.trim (assemble w a b)) =
      (w.toList, (a ++ [' ']) ++ ';' :: (' ' :: b).rdropWhile Text.isBlank) := by
  rw [trim_assemble bare, Text.cut_append_cons]
  intro mem
  exact absurd (bare.isBlank_of_mem ' ' mem) (by decide)

theorem word_assemble (bare : IsBare w) (a b : Text) : word (assemble w a b) = w := by
  rw [word, cut_trim_assemble bare, String.ofList_toList]

theorem cut_operands (semicolon : ';' ∉ a) (rest : Text) :
    Text.cut ';' ((a ++ [' ']) ++ ';' :: rest) = (a ++ [' '], rest) := by
  apply Text.cut_append_cons
  simpa using semicolon

theorem operandA_assemble (bare : IsBare w) (semicolon : ';' ∉ a) (b : Text) :
    operandA (assemble w a b) = Text.trim a := by
  rw [operandA, cut_trim_assemble bare, cut_operands semicolon,
    Text.trim_concat_of_isBlank (by decide)]

theorem operandB_assemble (bare : IsBare w) (semicolon : ';' ∉ a) (b : Text) :
    operandB (assemble w a b) = Text.trim b := by
  rw [operandB, cut_trim_assemble bare, cut_operands semicolon, Text.trim_rdropWhile,
    Text.trim_cons_of_isBlank (by decide)]

end Assemble

end Command

end Collapsing
