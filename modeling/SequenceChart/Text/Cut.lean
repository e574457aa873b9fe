/-!
# Cutting a word that is too wide

A word that is wider than a line is cut behind the last character that still fits. The first
character is always taken, so that cutting makes progress where even one character is too wide.

* `cut` gives the piece that is taken and what is left;
* `cut_append` says that the two make up the word;
* `cut_snd_length` says that what is left is shorter, unless the word was empty.
-/

namespace SequenceChart.Text

/-- Takes characters as long as the columns used so far and the next character stay in the
    limit. -/
def fill (char : Char → Nat) (limit : Nat) : Nat → List Char → List Char × List Char
  | _, [] => ([], [])
  | used, c :: cs =>
    if limit < used + char c then ([], c :: cs)
    else (c :: (fill char limit (used + char c) cs).1, (fill char limit (used + char c) cs).2)

/-- **Cuts a word at a limit of columns.** The first piece is the longest beginning of the word
    that fits, and never less than one character; the second piece is the rest. -/
def cut (char : Char → Nat) (limit : Nat) : List Char → List Char × List Char
  | [] => ([], [])
  | c :: cs => (c :: (fill char limit (char c) cs).1, (fill char limit (char c) cs).2)

variable (char : Char → Nat) (limit : Nat)

theorem fill_append : ∀ (used : Nat) (cs : List Char),
    (fill char limit used cs).1 ++ (fill char limit used cs).2 = cs
  | _, [] => rfl
  | used, c :: cs => by
      unfold fill
      split
      · rfl
      · simp [fill_append (used + char c) cs]

theorem cut_append : ∀ word : List Char, (cut char limit word).1 ++ (cut char limit word).2 = word
  | [] => rfl
  | c :: cs => by simp [cut, fill_append char limit (char c) cs]

theorem fill_snd_length (used : Nat) (cs : List Char) :
    (fill char limit used cs).2.length ≤ cs.length := by
  have := congrArg List.length (fill_append char limit used cs)
  simp only [List.length_append] at this
  omega

theorem cut_snd_length : ∀ word : List Char, word ≠ [] →
    (cut char limit word).2.length < word.length
  | [], h => absurd rfl h
  | c :: cs, _ => Nat.lt_succ_of_le (fill_snd_length char limit (char c) cs)

@[simp] theorem cut_nil : cut char limit [] = ([], []) := rfl

end SequenceChart.Text
