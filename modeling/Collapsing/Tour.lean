import Collapsing.Calculator.Basic
import Collapsing.Hydra.Layout

/-!
# A guided tour

The tour shows the features of the library one after another: reading, order, degrees,
fundamental sequences, display options, hydras and the calculator.  Its text is calculated
from the examples that are listed here.
-/

namespace Collapsing.Tour

/-! ## §1 Layout of the text -/

/-- The first lines of the tour. -/
def opening : List String :=
  ["",
   "╔══════════════════════════════════════════════════════════════════════════════╗",
   "║                                                                              ║",
   "║                 亞   Old Subspecies Function Calculator                     ║",
   "║                                                                              ║",
   "║          terms 0, a+b, 亞(a,b)   ·   1 = 亞(0,0)   ω = 亞(0,1)   Ω = 亞(1,0)   ║",
   "║                                                                              ║",
   "╚══════════════════════════════════════════════════════════════════════════════╝",
   ""]

/-- A line made of one character. -/
def rule (width : Nat) (c : Char) : Text := List.replicate width c

/-- A heading within a chapter. -/
def subheading (title : String) : List Text :=
  [[], ' ' :: ' ' :: title.toList, ' ' :: ' ' :: rule 60 '-']

/-- Texts with a comma between them. -/
def listed (texts : List Text) : Text := [',', ' '].intercalate texts

/-- What is shown of a text that denotes a term, or else of the fault. -/
def ofText (text : String) (shown : Term → Text) : Text :=
  match Term.parse text with
  | .ok t => shown t
  | .error e => e.message.toList

/-- A term in its shortest form. -/
def short (t : Term) : Text := Display.render .abbreviated t

/-! ## §2 Chapters -/

/-- Texts and what they denote. -/
def reading : List Text :=
  let line (text : String) : Text :=
    ' ' :: ' ' :: Text.padRight 14 text.toList ++ " -> ".toList ++ ofText text Term.text
  subheading "Input text and the term it denotes:" ++
    ["A(0,0)", "1+1+1", "w", "W", "A_\x7bw\x7d(W+1)", "亞(0,Ω)", "A_2(0)"].map line ++
    subheading "Malformed input is rejected:" ++
    ["亞(0", "A(0,0))", "A(0,x)"].map line

/-- Pairs of terms, and a sorted list. -/
def order : List Text :=
  let holds (a b : String) : Bool :=
    match Term.parse a, Term.parse b with
    | .ok s, .ok t => s < t
    | _, _ => false
  let line : String × String → Text := fun (a, b) =>
    ' ' :: ' ' :: (if holds a b then '✓' else '✗') ::
      ' ' :: a.toList ++ " < ".toList ++ b.toList
  let terms := ["W", "w+1", "0", "A(0,W)", "3", "w"].filterMap fun text =>
    (Term.parse text).toOption
  [("0", "1"), ("3", "w"), ("w+w", "A(0,2)"), ("w", "W"), ("A(0,W)", "A(1,1)")].map line ++
    [[], "  Sorted: ".toList ++ listed ((Term.sort terms).map short)]

/-- Degrees of some terms. -/
def degrees : List Text :=
  ["0", "5", "w+1", "A(0,w)", "W", "A(W,0)", "A_2(0)"].map fun text =>
    "  dom(".toList ++ text.toList ++ ") = ".toList ++ ofText text fun t => short t.degree

/-- The first elements of some fundamental sequences. -/
def sequences : List Text :=
  let elements (t : Term) : Text :=
    listed ((List.range 4).map fun n => short (t.expand (Term.numeral n)))
  ["w", "A(0,2)", "A(0,w)", "A(W,0)", "A(0,W)", "A(1,1)"].map fun text =>
    ' ' :: ' ' :: Text.padRight 8 text.toList ++ " [0..3] = ".toList ++ ofText text elements

/-- One term with several display options. -/
def displays : List Text :=
  let text := "A_\x7bw\x7d(W+2)"
  let line : String × Options → Text := fun (name, options) =>
    ' ' :: ' ' :: Text.padRight 14 name.toList ++
      ' ' :: ofText text (Display.formatOutput options)
  [[], "  Full form: ".toList ++ ofText text Term.text, []] ++
    [("two-argument", .plain),
     ("subscript", { subscripts := true }),
     ("all braces", { subscripts := true, braces := true }),
     ("ω and Ω", { omega := true, bigOmega := true }),
     ("abbreviated", .abbreviated),
     ("TeX", { omega := true, bigOmega := true, subscripts := true, tex := true })].map line

/-- A pair of numbers in parentheses. -/
def pairText : Nat × Nat → Text := fun (a, b) =>
  '(' :: Text.decimal a ++ ',' :: ' ' :: Text.decimal b ++ [')']

/-- A measure of the canvas, which is a whole number here. -/
def wholeText (x : Float) : Text := Text.decimal x.toUInt64.toNat

/-- The hydras of some terms. -/
def hydras : List Text :=
  ["A_1(A(0,1)+1)", "A(w,0)"].flatMap fun text =>
    let layout? := (Term.parse text).toOption.bind fun t => Layout.ofTerm? t 50 50
    [[], ' ' :: ' ' :: text.toList ++ [':']] ++
      match layout? with
      | none => [' ' :: ' ' :: Calculator.noHydra.toList]
      | some layout =>
        (layout.outline.splitOn '\n').map (List.replicate 4 ' ' ++ ·) ++
          ["  canvas ".toList ++ wholeText layout.width ++ " x ".toList ++
            wholeText layout.height ++ ", edges [".toList ++
            listed (layout.edges.map pairText) ++ [']']]

/-- Some requests to a calculator. -/
def requests : List Text :=
  let calculator : Calculator := { options := .abbreviated }
  let line : Operation × String × Option String → Text := fun (operation, a, b) =>
    let quotedB := b.elim "None".toList fun b => Text.quote b.toList
    ' ' :: ' ' :: Text.padRight 10 operation.name.toList ++ " A=".toList ++
      Text.padRight 12 (Text.quote a.toList) ++ " B=".toList ++ Text.padRight 6 quotedB ++
      ' ' :: (calculator.compute ⟨operation, some a.toList, b.map String.toList⟩).line
  [(.fund, "A(0,W)", some "3"), (.dom, "A_w(0)", none), (.lessThan, "A(0,W)", some "W"),
   (.fund, "w", none), (.dom, "A(0,", none)].map line

/-! ## §3 The tour -/

/-- A chapter: a blank line, its heading, and its text. -/
def chapter (title : String) (body : List Text) : List Text :=
  [[], rule 80 '═', "  SECTION ".toList ++ title.toList, rule 80 '═'] ++ body

/-- The lines of the tour. -/
def lines : List Text :=
  opening.map String.toList ++
    chapter "1: READING TERMS" reading ++
    chapter "2: THE ORDER ON TERMS" order ++
    chapter "3: DEGREES" degrees ++
    chapter "4: FUNDAMENTAL SEQUENCES" sequences ++
    chapter "5: DISPLAY OPTIONS" displays ++
    chapter "6: HYDRAS" hydras ++
    chapter "7: CALCULATOR" requests ++
    [[], "  Run `subspecies` for an interactive session.".toList, [], []]

end Collapsing.Tour
