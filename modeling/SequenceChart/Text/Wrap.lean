import SequenceChart.Text.Columns
import SequenceChart.Text.Cut

/-!
# Wrapping texts at a width

A text is laid out in lines of at most a given number of columns.

* `collapse` turns each run of tabs and line ends into one space;
* `segments` breaks the text at the two characters `\n` that ask for a line break;
* `tokens` breaks a segment into words and single spaces;
* `layout` sets the tokens greedily: a token goes on the current line if it fits; otherwise the
  line ends, and the one space it ends at is dropped; a word that does not even fit on a line of
  its own is cut;
* `wrap` puts these together. Width 0 keeps every segment on one line.

The columns are measured by a `Measure`; nothing here depends on how it counts.
-/

namespace SequenceChart.Text

/-! ## 1. Preparing the text -/

/-- A character that is not kept inside a line: a tab or a line end. -/
def breaking (c : Char) : Bool :=
  c = '\t' || c = '\n' || c = '\r'

/-- Writes one space for each run of tabs and line ends. The flag says that the text stands
    inside such a run. -/
def collapseFrom : Bool → List Char → List Char
  | _, [] => []
  | inRun, c :: cs =>
    if breaking c then
      if inRun then collapseFrom true cs else ' ' :: collapseFrom true cs
    else c :: collapseFrom false cs

/-- The text with every run of tabs and line ends written as one space. -/
def collapse (text : List Char) : List Char :=
  collapseFrom false text

/-- Puts a character in front of the first list. -/
def consHead (c : Char) : List (List Char) → List (List Char)
  | [] => [[c]]
  | s :: ss => (c :: s) :: ss

/-- The pieces between the two characters backslash and `n`, searched from the left. There is
    always at least one piece. -/
def segments : List Char → List (List Char)
  | [] => [[]]
  | '\\' :: 'n' :: cs => [] :: segments cs
  | c :: cs => consHead c (segments cs)

/-- Puts a character that is no space in front of tokens: it joins a word that comes first. -/
def consWord (c : Char) : List (List Char) → List (List Char)
  | [] => [[c]]
  | t :: ts => if t = [' '] then [c] :: t :: ts else (c :: t) :: ts

/-- The words and the single spaces of a segment, in order. -/
def tokens : List Char → List (List Char)
  | [] => []
  | c :: cs => if c = ' ' then [' '] :: tokens cs else consWord c (tokens cs)

/-! ## 2. Setting lines -/

/-- The line without a space at its end. Only one space is taken off. -/
def dropLastSpace (line : List Char) : List Char :=
  if line.getLast? = some ' ' then line.dropLast else line

/-- The characters that are still to be set, with one more for each token. -/
def pending : List (List Char) → Nat
  | [] => 0
  | t :: ts => t.length + 1 + pending ts

/-- **Sets tokens in lines.** `line` is what the current line holds already. Every step either
    takes a token off, or shortens the first token, or empties the current line. -/
def layout (m : Measure) (width : Nat) (line : List Char) (ts : List (List Char)) :
    List (List Char) :=
  match ts with
  | [] => if line = [] then [] else [line]
  | t :: ts =>
    if m.text line + m.text t ≤ width then layout m width (line ++ t) ts
    else if t = [' '] then line :: layout m width [] ts
    else if line ≠ [] then
      if dropLastSpace line = [] then layout m width [] (t :: ts)
      else dropLastSpace line :: layout m width [] (t :: ts)
    else if (cut m.char width t).2 = [] then (cut m.char width t).1 :: layout m width [] ts
    else (cut m.char width t).1 :: layout m width [] ((cut m.char width t).2 :: ts)
termination_by (pending ts, line.length)
decreasing_by
  all_goals simp only [pending]
  · exact Prod.Lex.left _ _ (by omega)
  · exact Prod.Lex.left _ _ (by omega)
  · exact Prod.Lex.right _ (by simpa [List.length_pos_iff] using ‹line ≠ []›)
  · exact Prod.Lex.right _ (by simpa [List.length_pos_iff] using ‹line ≠ []›)
  · exact Prod.Lex.left _ _ (by omega)
  · refine Prod.Lex.left _ _ ?_
    have : t ≠ [] := by
      rintro rfl
      simp at *
    have := cut_snd_length m.char width t this
    omega

/-- The lines of one segment. An empty segment is one empty line. -/
def wrapSegment (m : Measure) (width : Nat) (segment : List Char) : List (List Char) :=
  match layout m width [] (tokens segment) with
  | [] => [[]]
  | lines => lines

/-- **The lines of a text at a width.** Width 0 asks for the breaks of the text alone. -/
def wrap (m : Measure) (width : Nat) (text : List Char) : List (List Char) :=
  (segments (collapse text)).flatMap fun s => if width = 0 then [s] else wrapSegment m width s

end SequenceChart.Text
