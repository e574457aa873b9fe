import SequenceChart.Proofs.Content

/-!
# Breaks that a text asks for

The two characters `\n` in a text ask for a line break. What stands on the two sides of a break is
wrapped as if the other side were not there, whatever the sides begin and end with.

* `collapse_break` and `segments_break` take a text apart at one break: no run of blanks goes across
  it, and no break is found that is half on one side and half on the other;
* `wrap_break` says it of the lines, `wrap_intercalate` of any number of breaks;
* `breaks_compose` puts them together and counts the lines.
-/

namespace SequenceChart.Text

/-! ## 1. One break -/

/-- A character that is kept ends a run of blanks, so the text behind it is collapsed by itself. -/
theorem collapseFrom_append_cons {c : Char} (hc : breaking c = false) (b : List Char) :
    ∀ (inRun : Bool) (a : List Char),
      collapseFrom inRun (a ++ c :: b) = collapseFrom inRun a ++ c :: collapse b
  | inRun, [] => by
      have hkept : ¬ breaking c = true := by rw [hc]; decide
      rw [List.nil_append, collapseFrom, collapseFrom, if_neg hkept]
      rfl
  | inRun, d :: a => by
      have ih := fun run => collapseFrom_append_cons hc b run a
      rw [List.cons_append, collapseFrom, collapseFrom]
      split
      · split
        · exact ih true
        · rw [ih true, List.cons_append]
      · rw [ih false, List.cons_append]

theorem collapse_break (a b : List Char) :
    collapse (a ++ '\\' :: 'n' :: b) = collapse a ++ '\\' :: 'n' :: collapse b := by
  have hletter : collapse ('n' :: b) = 'n' :: collapse b :=
    collapseFrom_append_cons (by decide) b false []
  unfold collapse at hletter ⊢
  rw [collapseFrom_append_cons (by decide) ('n' :: b) false a, collapse, hletter]

theorem consHead_append (c : Char) {ss : List (List Char)} (hss : ss ≠ []) (ts : List (List Char)) :
    consHead c (ss ++ ts) = consHead c ss ++ ts := by
  obtain ⟨s, ss, rfl⟩ := List.exists_cons_of_ne_nil hss
  rfl

/-- **The segments of a text fall apart at a break.** Breaks are searched from the left; a backslash
    in front of this one makes no break with it, and neither does the letter behind it. -/
theorem segments_break (a b : List Char) :
    segments (a ++ '\\' :: 'n' :: b) = segments a ++ segments b := by
  induction a using segments.induct with
  | case1 => rfl
  | case2 cs ih =>
    rw [List.cons_append, List.cons_append, segments, segments, ih, List.cons_append]
  | case3 c cs hno ih =>
    -- what stands behind `c` is an `n` only if it is one without the second text
    have hno' : ∀ rest, c = '\\' → cs ++ '\\' :: 'n' :: b = 'n' :: rest → False := by
      intro rest hc hrest
      cases cs with
      | nil => exact absurd (List.cons.inj hrest).1 (by decide)
      | cons d ds => exact hno ds hc (congrArg (· :: ds) (List.cons.inj hrest).1)
    rw [List.cons_append, segments, segments, ih, consHead_append c (segments_ne_nil cs)]
    · exact hno
    · exact hno'

/-! ## 2. Lines -/

variable (m : Measure) (width : Nat)

/-- The lines of both sides of a break, one after the other. -/
theorem wrap_break (a b : List Char) :
    wrap m width (a ++ '\\' :: 'n' :: b) = wrap m width a ++ wrap m width b := by
  unfold wrap
  rw [collapse_break, segments_break, List.flatMap_append]

theorem wrap_intercalate : ∀ (piece : List Char) (pieces : List (List Char)),
    wrap m width (['\\', 'n'].intercalate (piece :: pieces)) =
      (piece :: pieces).flatMap (wrap m width)
  | piece, [] => by rw [List.intercalate_singleton, List.flatMap_singleton]
  | piece, next :: pieces => by
      have ih := wrap_intercalate next pieces
      rw [List.intercalate_cons_cons, List.append_assoc, List.cons_append, List.cons_append,
        List.nil_append, wrap_break, ih, List.flatMap_cons (x := piece)]

/-- Every piece between breaks has a line of its own at least. -/
theorem length_le_flatMap_wrap : ∀ pieces : List (List Char),
    pieces.length ≤ (pieces.flatMap (wrap m width)).length
  | [] => Nat.le_refl 0
  | piece :: pieces => by
      have hline := List.length_pos_iff.mpr (wrap_ne_nil m width piece)
      have ih := length_le_flatMap_wrap pieces
      rw [List.flatMap_cons, List.length_append, List.length_cons]
      omega

/-- **Breaks compose.** Two texts with a break between them have the lines of the first and then the
    lines of the second, at any width and however the columns are measured. A text with `k` breaks,
    none of which has a character in common with another, is made up of `k + 1` pieces with the
    breaks between them; it has the lines of these pieces, which are `k + 1` or more. -/
theorem breaks_compose :
    (∀ a b : List Char,
      wrap m width (a ++ ['\\', 'n'] ++ b) = wrap m width a ++ wrap m width b) ∧
    ∀ (piece : List Char) (pieces : List (List Char)),
      wrap m width (['\\', 'n'].intercalate (piece :: pieces)) =
        (piece :: pieces).flatMap (wrap m width) ∧
      pieces.length + 1 ≤ (wrap m width (['\\', 'n'].intercalate (piece :: pieces))).length := by
  refine ⟨fun a b => ?_, fun piece pieces => ⟨wrap_intercalate m width piece pieces, ?_⟩⟩
  · rw [List.append_assoc]
    exact wrap_break m width a b
  · rw [wrap_intercalate]
    exact length_le_flatMap_wrap m width (piece :: pieces)

end SequenceChart.Text
