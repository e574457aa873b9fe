import SequenceChart.Proofs.DisplayColumns
import SequenceChart.Proofs.Words

/-!
# How wide a line can be

A wrapped line should be no wider than the width, unless it is a single character that is.

* Words and spaces are only set as long as they fit, and a space parts a text. So a line that is too
  wide has been cut off a word: `Sets.filter_tooWide`;
* what is cut off a word is measured character by character, and may take more columns as a text.
  `wrap_within_iff` says when this happens and how far a line can go beyond the width.
-/

namespace SequenceChart.Text

/-! ## 1. Columns of a line that grows -/

theorem Measure.Parted.text_space {m : Measure} (hm : m.Parted) (line : List Char) :
    m.text (line ++ [' ']) = m.text line + 1 := by
  rw [hm.parts, hm.nil, Nat.add_zero]

/-- The columns of a word add up with those of the line that it is set on. -/
theorem Measure.Parted.text_word {m : Measure} (hm : m.Parted) {line : List Char}
    (hline : EndsApart line) (w : List Char) : m.text (line ++ w) = m.text line + m.text w := by
  rcases hline with rfl | ⟨before, rfl⟩
  · rw [hm.nil, Nat.zero_add, List.nil_append]
  · rw [hm.text_space, List.append_assoc, List.singleton_append, hm.parts]

/-! ## 2. Lines that are too wide -/

/-- The line is wider than the width. -/
def tooWide (m : Measure) (width : Nat) (line : List Char) : Bool :=
  width < m.text line

variable {m : Measure} {width : Nat}

theorem not_tooWide {line : List Char} (h : m.text line ≤ width) : ¬ tooWide m width line = true := by
  rw [tooWide, decide_eq_true_eq]
  exact Nat.not_lt_of_le h

/-- **The lines that are too wide are the pieces cut off words that are too wide**, in order. -/
theorem Sets.filter_tooWide (hm : m.Parted) {line rest : List Char} {lines : List (List Char)}
    (h : Sets m width line rest lines) (hline : m.text line ≤ width) :
    lines.filter (tooWide m width) = (cutOffsIn m width rest).filter (tooWide m width) := by
  have hnil := hm.nil_le width
  induction h with
  | nothing => rw [cutOffsIn_nil]
  | last => rw [cutOffsIn_nil, List.filter_cons_of_neg (not_tooWide hline)]
  | @space line rest lines hfits h ih =>
    rw [cutOffsIn_space]
    exact ih (by rw [hm.text_space]; exact hfits)
  | @word line w rest lines hapart hw hrest hfits h ih =>
    have hword : m.text w ≤ width := by omega
    rw [cutOffsIn_word hw.no_space hrest, cutOffs_of_fits hword, List.nil_append]
    exact ih (by rw [hm.text_word hapart]; exact hfits)
  | @endAtSpace line rest lines hfull h ih =>
    rw [cutOffsIn_space, List.filter_cons_of_neg (not_tooWide hline)]
    exact ih hnil
  | @endAtWord line w rest lines hne hw hrest hfull h ih =>
    have hline' : m.text line ≤ width := by rw [hm.text_space] at hline; omega
    rw [List.filter_cons_of_neg (not_tooWide hline')]
    exact ih hnil
  | dropSpace hw hrest hfull h ih => exact ih hnil
  | @cutWord w rest lines hw hrest hwide h ih =>
    rw [cutOffsIn_cut hw hrest hwide, List.filter_cons, List.filter_cons, ih hnil]

theorem wrapSegment_filter_tooWide (hm : m.Parted) (s : List Char) :
    (wrapSegment m width s).filter (tooWide m width) =
      (cutOffsIn m width s).filter (tooWide m width) := by
  have hnil := hm.nil_le width
  by_cases hs : s = []
  · rw [hs, wrapSegment_nil, cutOffsIn_nil, List.filter_cons_of_neg (not_tooWide hnil)]
  · exact (wrapSegment_sets hm.toSane hs).filter_tooWide hm hnil

/-- The pieces that are cut off the words of a text that is wrapped. -/
def cutOffsOf (m : Measure) (width : Nat) (t : List Char) : List (List Char) :=
  (segments (collapse t)).flatMap (cutOffsIn m width)

theorem wrap_filter_tooWide (hm : m.Parted) (hwidth : 1 ≤ width) (t : List Char) :
    (wrap m width t).filter (tooWide m width) = (cutOffsOf m width t).filter (tooWide m width) := by
  unfold cutOffsOf
  rw [wrap_of_width m hwidth, List.filter_flatMap, List.filter_flatMap,
    funext (wrapSegment_filter_tooWide hm)]

/-! ## 3. The bound -/

/-- The line keeps to the width, or it is a single character. -/
def Within (m : Measure) (width : Nat) (line : List Char) : Prop :=
  m.text line ≤ width ∨ ∃ c, line = [c]

theorem tooWide_of_not_within {line : List Char} (h : ¬ Within m width line) :
    tooWide m width line = true :=
  decide_eq_true (Nat.lt_of_not_le fun hfits => h (.inl hfits))

/-- A line that does not keep to the width is cut off a word, and the other way round. -/
theorem mem_wrap_iff_of_not_within (hm : m.Parted) (hwidth : 1 ≤ width) (t : List Char)
    {line : List Char} (h : ¬ Within m width line) :
    line ∈ wrap m width t ↔ line ∈ cutOffsOf m width t := by
  have hwide := tooWide_of_not_within h
  have hsame := wrap_filter_tooWide hm hwidth t
  constructor
  · intro hmem
    have hkept := List.mem_filter.mpr ⟨hmem, hwide⟩
    rw [hsame] at hkept
    exact (List.mem_filter.mp hkept).1
  · intro hmem
    have hkept := List.mem_filter.mpr ⟨hmem, hwide⟩
    rw [← hsame] at hkept
    exact (List.mem_filter.mp hkept).1

/-- A word of a text that is wrapped. -/
def IsWordOf (w t : List Char) : Prop :=
  ∃ s ∈ segments (collapse t), w ∈ s.splitOn ' '

theorem mem_cutOffsOf {t piece : List Char} (h : piece ∈ cutOffsOf m width t) :
    ∃ w, IsWordOf w t ∧ piece ∈ cutOffs m width w := by
  obtain ⟨s, hs, hpiece⟩ := List.mem_flatMap.mp h
  obtain ⟨w, hw, hpiece⟩ := List.mem_flatMap.mp hpiece
  exact ⟨w, ⟨s, hs, hw⟩, hpiece⟩

/-- **How wide the lines of a text are.** The lines that are too wide are the pieces cut off its words
    that are too wide, so that all lines keep to the width exactly when these pieces do. Counted
    character by character they keep to it, so that they go beyond it by no more than one column for
    each character that widens them; and if there are no such characters in the words that are wider
    than the width, all lines keep to it. Of the width functions it is assumed that a space takes one
    column and parts the text, and which characters can widen it. -/
theorem wrap_within_iff (hm : m.Parted) {widens : Char → Bool} (hwidens : m.WidenedBy widens)
    (hwidth : 1 ≤ width) (t : List Char) :
    (wrap m width t).filter (tooWide m width) = (cutOffsOf m width t).filter (tooWide m width) ∧
    ((∀ line ∈ wrap m width t, Within m width line) ↔
      ∀ piece ∈ cutOffsOf m width t, Within m width piece) ∧
    (∀ line ∈ wrap m width t, ¬ Within m width line →
      charSum m.char line ≤ width ∧ m.text line ≤ width + surplus widens line) ∧
    ((∀ w, IsWordOf w t → width < m.text w → surplus widens w = 0) →
      ∀ line ∈ wrap m width t, Within m width line) := by
  have hmem : ∀ line, ¬ Within m width line →
      (line ∈ wrap m width t ↔ line ∈ cutOffsOf m width t) :=
    fun _ hwide => mem_wrap_iff_of_not_within hm hwidth t hwide
  have hbeyond : ∀ piece ∈ cutOffsOf m width t, ¬ Within m width piece →
      charSum m.char piece ≤ width ∧ m.text piece ≤ width + surplus widens piece := by
    intro piece hpiece hwide
    obtain ⟨w, _, hcut⟩ := mem_cutOffsOf hpiece
    obtain ⟨rest, _, rfl⟩ := mem_cutOffs hcut
    have hsum := (cut_fst_within m.char width rest).resolve_right fun h => hwide (.inr h)
    exact ⟨hsum, Nat.le_trans (hwidens _) (Nat.add_le_add_right hsum _)⟩
  refine ⟨wrap_filter_tooWide hm hwidth t,
    ⟨fun h piece hpiece => ?_, fun h line hline => ?_⟩, fun line hline hwide => ?_,
    fun hplain line hline => ?_⟩
  · exact Classical.byContradiction fun hwide => hwide (h piece ((hmem piece hwide).mpr hpiece))
  · exact Classical.byContradiction fun hwide => hwide (h line ((hmem line hwide).mp hline))
  · exact hbeyond line ((hmem line hwide).mp hline) hwide
  · refine Classical.byContradiction fun hwide => hwide (.inl ?_)
    have hpiece := (hmem line hwide).mp hline
    obtain ⟨w, hw, hcut⟩ := mem_cutOffsOf hpiece
    have hle := (hbeyond line hpiece hwide).2
    rw [surplus_eq_zero_of_subset (subset_of_mem_cutOffs hcut)
      (hplain w hw (wide_of_mem_cutOffs hcut))] at hle
    exact hle

/-- The first word fits, with the control character in it; the others are cut, and they hold none. -/
theorem wrap_within_cut :
    let t := "a\x01 日本語\\nabcde".toList
    Measure.display.Parted ∧ Measure.display.WidenedBy widening ∧ 1 ≤ 3 ∧
      (∀ w, IsWordOf w t → 3 < columns w → surplus widening w = 0) ∧
      ∀ line ∈ wrap .display 3 t, Within .display 3 line := by
  intro t
  have hplain : ∀ w, IsWordOf w t → 3 < columns w → surplus widening w = 0 := by
    intro w hw
    obtain ⟨s, hs, hw⟩ := hw
    have hall : ∀ s ∈ segments (collapse t), ∀ w ∈ s.splitOn ' ', 3 < columns w →
        surplus widening w = 0 := by
      decide +kernel
    exact hall s hs w hw
  have hwidth : 1 ≤ 3 := by decide
  exact ⟨Measure.display_parted, Measure.display_widenedBy, hwidth, hplain,
    (wrap_within_iff Measure.display_parted Measure.display_widenedBy hwidth t).2.2.2 hplain⟩

/-- Two hearts, each with the selector that makes an emoji of it. By themselves these characters take
    one column and none, but each heart takes two, and the word is not cut. -/
theorem hearts_too_wide :
    let t := ['\u2764', emojiSelector, '\u2764', emojiSelector]
    wrap .display 2 t = [t] ∧ columns t = 4 ∧ ¬ Within .display 2 t := by
  intro t
  have hclean : ∀ c ∈ t, breaking c = false := by simp [t, breaking, emojiSelector]
  have ht : Seamless t := ⟨List.cons_ne_nil _ _, hclean, by decide, by decide⟩
  have hcolumns : columns t = 4 := by decide +kernel
  have hwide : ¬ Measure.display.text t ≤ 2 := by
    show ¬ columns t ≤ 2
    rw [hcolumns]
    decide
  have hcut : cut Measure.display.char 2 t = (t, []) := by decide +kernel
  refine ⟨?_, hcolumns, ?_⟩
  · have hfirst : ¬ Measure.display.text [] + Measure.display.text t ≤ 2 := by
      rw [Measure.display_sane.nil, Nat.zero_add]
      exact hwide
    rw [wrap_seamless .display (by decide) ht, layout, if_neg hfirst, if_neg (by decide),
      if_neg (not_not_intro rfl), hcut, if_pos rfl, layout, if_pos rfl]
  · rintro (hfits | ⟨c, hc⟩)
    · exact hwide hfits
    · exact absurd (congrArg List.length hc) (by simp [t])

end SequenceChart.Text
