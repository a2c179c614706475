/-!
# Texts

A text is a list of characters, one entry for each code point.  Reading and writing work on
texts, so that both can be reasoned about by recursion; strings appear only where a program
meets the outside.

- `decimal`, `integer`: the digits of a number;
- `padRight`: a text filled up with spaces to a given width;
- `unlines`, `cut`: lines put together, and a text cut in two;
- `replaceAll`: every occurrence of one text replaced by another, from left to right.

## Main statements

- `replaceAll_of_isPrefixOf`, `replaceAll_of_not_isPrefixOf`: replacing works from the front, on
  an occurrence there or past a character that begins none.
-/

namespace Collapsing

/-- A text: its code points in order. -/
abbrev Text := List Char

namespace Text

/-- The decimal digits of a natural number, without leading zeros. -/
def decimal (n : Nat) : Text := Nat.toDigits 10 n

/-- The decimal digits of an integer, after a minus sign if it is negative. -/
def integer : Int → Text
  | .ofNat n => decimal n
  | .negSucc n => '-' :: decimal (n + 1)

/-- The text, followed by as many spaces as bring it to the given width. -/
def padRight (width : Nat) (text : Text) : Text :=
  text ++ List.replicate (width - text.length) ' '

/-- The lines of a text, each followed by a line feed. -/
def unlines (lines : List Text) : Text := lines.flatMap (· ++ ['\n'])

/-- The text before the first occurrence of a character, and the text after it. -/
def cut (c : Char) (text : Text) : Text × Text :=
  (text.takeWhile (· ≠ c), (text.dropWhile (· ≠ c)).drop 1)

/-! ## §1 Replacement -/

/-- One scan of a text for occurrences of `old`.  `skip` counts the characters of an
occurrence that are still to be passed over, and `done` holds what is finished, reversed. -/
def replaceFrom (old new : Text) : (skip : Nat) → (done : Text) → Text → Text
  | _, done, [] => done.reverse
  | skip + 1, done, _ :: rest => replaceFrom old new skip done rest
  | 0, done, c :: rest =>
    if old.isPrefixOf (c :: rest) then
      replaceFrom old new (old.length - 1) (new.reverseAux done) rest
    else
      replaceFrom old new 0 (c :: done) rest

/-- The text with every occurrence of `old` replaced by `new`, from left to right and
without overlaps.  What has been put in is not searched again. -/
def replaceAll (old new text : Text) : Text := replaceFrom old new 0 [] text

/-- The finished part of a scan stands in front of its result. -/
theorem replaceFrom_eq (old new : Text) (skip : Nat) (done text : Text) :
    replaceFrom old new skip done text = done.reverse ++ replaceFrom old new skip [] text := by
  induction text generalizing skip done with
  | nil => simp [replaceFrom]
  | cons c rest ih =>
    cases skip with
    | succ skip => exact ih skip done
    | zero =>
      simp only [replaceFrom]
      split
      · rw [ih _ (new.reverseAux done), ih _ (new.reverseAux [])]
        simp
      · rw [ih _ (c :: done), ih _ [c]]
        simp

/-- Characters that are passed over leave no trace. -/
theorem replaceFrom_skip (old new : Text) (skip : Nat) (text : Text) :
    replaceFrom old new skip [] text = replaceAll old new (text.drop skip) := by
  induction text generalizing skip with
  | nil => cases skip <;> rfl
  | cons c rest ih =>
    cases skip with
    | zero => rfl
    | succ skip => exact ih skip

@[simp] theorem replaceAll_nil (old new : Text) : replaceAll old new [] = [] := rfl

/-- An occurrence at the front is replaced. -/
theorem replaceAll_of_isPrefixOf {old text : Text} (new : Text) (nonempty : old ≠ [])
    (h : old.isPrefixOf text = true) :
    replaceAll old new text = new ++ replaceAll old new (text.drop old.length) := by
  obtain ⟨a, old', rfl⟩ := List.exists_cons_of_ne_nil nonempty
  match text with
  | [] => cases h
  | c :: rest =>
    rw [replaceAll, replaceFrom, if_pos h, replaceFrom_eq, replaceFrom_skip]
    simp

/-- A character that begins no occurrence is kept. -/
theorem replaceAll_of_not_isPrefixOf {old rest : Text} {c : Char} (new : Text)
    (h : old.isPrefixOf (c :: rest) = false) :
    replaceAll old new (c :: rest) = c :: replaceAll old new rest := by
  rw [replaceAll, replaceFrom, if_neg (by simp [h]), replaceFrom_eq]
  rfl

end Text

end Collapsing
