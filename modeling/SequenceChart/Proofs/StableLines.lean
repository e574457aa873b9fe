import SequenceChart.Proofs.Content
import SequenceChart.Proofs.Words

/-!
# Wrapped lines are stable

A line of a wrapped text is wrapped again, by itself and at the same width. The run over the line
takes the decisions again that set it, so that nothing changes.

* `fill_fst_again` and `cut_fst_again` say that what was cut off a word is not cut again;
* `Filled.layout_append` says that a line which was filled is filled again in the same way, whatever
  follows it;
* `FirstLine.wrapSegment_line` goes through the ways in which a line comes to its end, and
  `lines_stable` says it of the lines of whole texts.

The width of a text need not have anything to do with the widths of its characters: what is
measured in the second run was measured in the first.
-/

namespace SequenceChart.Text

variable {m : Measure} {width : Nat}

/-! ## 1. What was cut off -/

/-- What filled a line fills it again, and nothing is left. -/
theorem fill_fst_again (char : Char → Nat) (limit : Nat) : ∀ (used : Nat) (cs : List Char),
    fill char limit used (fill char limit used cs).1 = ((fill char limit used cs).1, [])
  | _, [] => rfl
  | used, c :: cs => by
      by_cases hfull : limit < used + char c
      · rw [fill, if_pos hfull]
        rfl
      · have ih := fill_fst_again char limit (used + char c) cs
        rw [fill, if_neg hfull, fill, if_neg hfull, ih]

/-- **What was cut off a word is not cut again** at the same limit. -/
theorem cut_fst_again (char : Char → Nat) (limit : Nat) : ∀ w : List Char,
    cut char limit (cut char limit w).1 = ((cut char limit w).1, [])
  | [] => rfl
  | c :: cs => by
      rw [cut, cut, fill_fst_again char limit (char c) cs]

theorem Solid.cut_fst {w : List Char} (hw : Solid w) (char : Char → Nat) (limit : Nat) :
    Solid (cut char limit w).1 where
  ne_nil := cut_fst_ne_nil char limit hw.ne_nil
  no_space hspace := by
    refine hw.no_space ?_
    rw [← cut_append char limit w]
    exact List.mem_append_left _ hspace

/-- What was cut off a word is one line, be it too wide or not. -/
theorem wrapSegment_cut_fst {w : List Char} (hw : Solid w) (m : Measure) (width : Nat) :
    wrapSegment m width (cut m.char width w).1 = [(cut m.char width w).1] := by
  have hhead := hw.cut_fst m.char width
  have hlayout : layout m width [] [(cut m.char width w).1] = [(cut m.char width w).1] := by
    rw [layout]
    split
    · rw [layout, List.nil_append, if_neg hhead.ne_nil]
    · rw [if_neg hhead.ne_space, if_neg (not_not_intro rfl), cut_fst_again, if_pos rfl, layout,
        if_pos rfl]
  unfold wrapSegment
  rw [tokens_of_not_mem hhead.ne_nil hhead.no_space, hlayout]

/-! ## 2. Lines that were filled -/

/-- **A line that was filled is filled again**: setting it from the beginning leads to where it is on
    the current line, and what follows is still to be set. -/
theorem Filled.layout_append (hm : m.Sane) {line rest : List Char} (h : Filled m width line)
    (hapart : EndsApart line ∨ BeginsApart rest) :
    layout m width [] (tokens (line ++ rest)) = layout m width line (tokens rest) := by
  induction h generalizing rest with
  | nothing => rfl
  | @space line h hfits ih =>
    have hset : m.text line + m.text [' '] ≤ width := by
      rw [hm.space]
      exact hfits
    rw [← List.append_cons, ih (.inr (beginsApart_space rest)), tokens_space, layout, if_pos hset]
  | @word line w h hline hw hfits ih =>
    have hrest := hapart.resolve_left (hw.not_endsApart line)
    rw [List.append_assoc, ih (.inl hline), tokens_solid hw hrest, layout, if_pos hfits]

/-- A line that was filled is one line. -/
theorem Filled.wrapSegment_line (hm : m.Sane) {line : List Char} (h : Filled m width line) :
    wrapSegment m width line = [line] := by
  have hlayout := h.layout_append hm (.inr (.inl rfl))
  rw [List.append_nil, tokens, layout] at hlayout
  unfold wrapSegment
  rw [hlayout]
  by_cases hline : line = []
  · rw [if_pos hline, hline]
  · rw [if_neg hline]

/-! ## 3. Lines of a text -/

/-- **A first line is one line by itself**, whatever it came to its end at. -/
theorem FirstLine.wrapSegment_line (hm : m.Sane) {text next : List Char} {p : Stretch}
    (h : FirstLine m width text p next) : wrapSegment m width p.line = [p.line] := by
  induction h with
  | whole _ hline => exact hline.wrapSegment_line hm
  | atSpace _ hline => exact hline.wrapSegment_line hm
  | atWord _ hline => exact hline.wrapSegment_line hm
  | cutWord hw => exact wrapSegment_cut_fst hw m width
  | behindSpace _ _ _ _ ih => exact ih

theorem segmentLines_stable (hm : m.Sane) {s line : List Char}
    (hline : line ∈ segmentLines m width s) : segmentLines m width line = [line] := by
  unfold segmentLines at *
  by_cases hwidth : width = 0
  · rw [if_pos hwidth]
  · rw [if_neg hwidth] at *
    by_cases hs : s = []
    · rw [hs, wrapSegment_nil, List.mem_singleton] at hline
      rw [hline, wrapSegment_nil]
    · obtain ⟨ps, hps, hlines⟩ := wrapSegment_lines hm (Nat.one_le_iff_ne_zero.mpr hwidth) hs
      rw [← hlines] at hline
      obtain ⟨p, hp, rfl⟩ := List.mem_map.mp hline
      exact hps.forall (fun h => h.wrapSegment_line hm) p hp

/-- Each line is a part of the text that the lines take up. -/
theorem infix_spanned {ps : List Stretch} {p : Stretch} (hp : p ∈ ps) : p.line <:+: spanned ps := by
  obtain ⟨before, behind, rfl⟩ := List.append_of_mem hp
  have htext : p.line <:+: p.text := ⟨List.replicate p.before ' ', List.replicate p.behind ' ', by
    rw [Stretch.text, List.append_assoc]⟩
  rw [spanned_append, spanned_cons]
  exact (htext.trans (List.prefix_append p.text _).isInfix).trans (List.suffix_append _ _).isInfix

/-- No line holds what would make a line break in it. -/
theorem segments_collapse_line (hm : m.Sane) {t line : List Char} (hline : line ∈ wrap m width t) :
    segments (collapse line) = [line] := by
  have hclean : collapse line = line := collapseFrom_of_clean (wrap_clean m width t line hline) false
  obtain ⟨s, hs, hmem⟩ := List.mem_flatMap.mp (wrap_eq_segmentLines m width t ▸ hline)
  obtain ⟨ps, hps, rfl, _⟩ := exists_stretches hm width s
  rw [← hps] at hmem
  obtain ⟨p, hp, rfl⟩ := List.mem_map.mp hmem
  rw [hclean, segments_of_not_break]
  exact fun hbreak => not_break_of_mem_segments (collapse t) _ hs (hbreak.trans (infix_spanned hp))

/-- **Wrapping a line again changes nothing**, at any width and for any line of any text. Of the
    width functions it is only assumed that the empty text takes no column and a space takes one. -/
theorem lines_stable (hm : m.Sane) (width : Nat) (t : List Char) :
    ∀ line ∈ wrap m width t, wrap m width line = [line] := by
  intro line hline
  obtain ⟨s, _, hsegment⟩ := List.mem_flatMap.mp (wrap_eq_segmentLines m width t ▸ hline)
  rw [wrap_eq_segmentLines, segments_collapse_line hm hline, List.flatMap_singleton]
  exact segmentLines_stable hm hsegment

/-- Widths of texts and of characters that have nothing to do with each other: no word of two
    characters fits on a line of three columns, but only a `w` is too wide to be joined by others. -/
def untied : Measure :=
  ⟨fun t => if t = [' '] then 1 else 2 * t.length, fun c => if c = 'w' then 9 else 0⟩

/-- The lines that the display columns give: two emoji hearts, which take more columns as a text than
    one by one and are not cut, a space, and two characters that take two columns each. -/
theorem wrap_hearts :
    let hearts := ['\u2764', emojiSelector, '\u2764', emojiSelector]
    wrap .display 2 (hearts ++ "  日本".toList) = [hearts, [' '], ['日'], ['本']] := by
  intro hearts
  have hsegments : segments (collapse (hearts ++ "  日本".toList)) =
      [hearts ++ "  日本".toList] := by decide
  have htokens : tokens (hearts ++ "  日本".toList) = [hearts, [' '], [' '], ['日', '本']] := by
    decide
  have hword : hearts ≠ [' '] := by decide
  have hcolumns : columns hearts = 4 ∧ columns [' '] = 1 ∧ columns ['日', '本'] = 4 ∧
      columns ['本'] = 2 := by decide +kernel
  have hcuts : cut charColumns 2 hearts = (hearts, []) ∧
      cut charColumns 2 ['日', '本'] = (['日'], ['本']) := by decide +kernel
  rw [wrap_of_width .display (by decide), hsegments, List.flatMap_singleton, wrapSegment, htokens]
  simp [layout, Measure.display, hcolumns, hcuts, dropLastSpace, hword]

/-- Lines of all kinds: for widths that are not tied to each other a word that is too wide and is not
    cut, one that is cut behind its first character, lines of spaces, and an empty line; and lines that
    the display columns give. -/
theorem lines_stable_untied :
    let lines := [['a', 'b'], ['w'], ['i', 'd', 'e'], [' ', ' '], [' ', ' '], []]
    let hearts := ['\u2764', emojiSelector, '\u2764', emojiSelector]
    let shown := [hearts, [' '], ['日'], ['本']]
    (untied.Sane ∧ wrap untied 3 "ab wide    \t\\n".toList = lines ∧
        ∀ line ∈ lines, wrap untied 3 line = [line]) ∧
      Measure.display.Sane ∧ wrap .display 2 (hearts ++ "  日本".toList) = shown ∧
        ∀ line ∈ shown, wrap .display 2 line = [line] := by
  intro lines hearts shown
  have hm : untied.Sane := ⟨rfl, rfl⟩
  have hsegments : segments (collapse "ab wide    \t\\n".toList) = ["ab wide     ".toList, []] := by
    decide
  have hlines : wrap untied 3 "ab wide    \t\\n".toList = lines := by
    rw [wrap_of_width untied (by decide), hsegments]
    simp [wrapSegment, tokens, consWord, layout, dropLastSpace, cut, fill, untied, lines]
  have hshown : wrap .display 2 (hearts ++ "  日本".toList) = shown := wrap_hearts
  exact ⟨⟨hm, hlines, hlines ▸ lines_stable hm 3 _⟩, Measure.display_sane, hshown,
    hshown ▸ lines_stable Measure.display_sane 2 _⟩

end SequenceChart.Text
