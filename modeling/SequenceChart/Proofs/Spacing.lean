import SequenceChart.Proofs.Setting

/-!
# Spaces between wrapped lines

A line that ends in front of a word or at a space drops one space. So the lines of a segment,
joined with single spaces, should give the segment back where no word had to be cut.

* `setWhole` are the lines for which this is so: each break drops its one space, and a line that
  holds nothing then is a line too;
* the layout leaves such empty lines out, and with each of them a space is lost.
  `Sets.eq_setWhole` compares both;
* `Sets.of_empty_line` says where a line can come to hold nothing: at a space behind the end of
  a full line, and at a space in front of a word that takes the whole width.
-/

namespace SequenceChart.Text

/-! ## 1. Lines that drop one space each -/

/-- The lines of tokens, where a line may come to hold nothing and no word is cut. `line` is what
    the current line holds already. -/
def setWhole (m : Measure) (width : Nat) : List Char → List (List Char) → List (List Char)
  | line, [] => [line]
  | line, t :: ts =>
    if m.text line + m.text t ≤ width then setWhole m width (line ++ t) ts
    else if t = [' '] then line :: setWhole m width [] ts
    else dropLastSpace line :: setWhole m width t ts

/-- Lines joined with single spaces. -/
def joinSpaced (lines : List (List Char)) : List Char :=
  [' '].intercalate lines

/-- No word of the text has to be cut. -/
def WordsFit (m : Measure) (width : Nat) (s : List Char) : Prop :=
  ∀ w ∈ s.splitOn ' ', m.text w ≤ width

variable {m : Measure} {width : Nat}

theorem setWhole_ne_nil (m : Measure) (width : Nat) : ∀ (line : List Char) (ts : List (List Char)),
    setWhole m width line ts ≠ []
  | line, [] => List.cons_ne_nil line []
  | line, t :: ts => by
      rw [setWhole]
      split
      · exact setWhole_ne_nil m width (line ++ t) ts
      · split <;> exact List.cons_ne_nil _ _

theorem joinSpaced_cons {lines : List (List Char)} (h : lines ≠ []) (line : List Char) :
    joinSpaced (line :: lines) = line ++ ' ' :: joinSpaced lines := by
  unfold joinSpaced
  rw [List.intercalate_cons_of_ne_nil h, List.append_assoc]
  rfl

theorem WordsFit.of_space {rest : List Char} (h : WordsFit m width (' ' :: rest)) :
    WordsFit m width rest := by
  intro w hw
  refine h w ?_
  rw [splitOn_space]
  exact List.mem_cons_of_mem [] hw

theorem WordsFit.of_word (hm : m.Sane) {w rest : List Char} (hw : Solid w)
    (hrest : BeginsApart rest) (h : WordsFit m width (w ++ rest)) :
    m.text w ≤ width ∧ WordsFit m width rest := by
  unfold WordsFit at h
  rw [splitOn_word hw.no_space hrest] at h
  refine ⟨h w List.mem_cons_self, fun v hv => ?_⟩
  rw [splitOn_beginsApart hrest] at hv
  rcases List.mem_cons.mp hv with rfl | hv
  · exact hm.nil_le width
  · exact h v (List.mem_cons_of_mem w hv)

/-! ## 2. The rules of these lines -/

theorem setWhole_space (hm : m.Sane) {line : List Char} (hfits : m.text line + 1 ≤ width)
    (rest : List Char) : setWhole m width line (tokens (' ' :: rest)) =
      setWhole m width (line ++ [' ']) (tokens rest) := by
  rw [tokens_space, setWhole, hm.space, if_pos hfits]

theorem setWhole_word {line w rest : List Char} (hw : Solid w) (hrest : BeginsApart rest)
    (hfits : m.text line + m.text w ≤ width) : setWhole m width line (tokens (w ++ rest)) =
      setWhole m width (line ++ w) (tokens rest) := by
  rw [tokens_solid hw hrest, setWhole, if_pos hfits]

theorem setWhole_endAtSpace (hm : m.Sane) {line : List Char} (hfull : width < m.text line + 1)
    (rest : List Char) : setWhole m width line (tokens (' ' :: rest)) =
      line :: setWhole m width [] (tokens rest) := by
  rw [tokens_space, setWhole, hm.space, if_neg (Nat.not_le_of_lt hfull), if_pos rfl]

/-- A word that does not go on a line any more is the first of the next line. -/
theorem setWhole_endAtWord (hm : m.Sane) {line w rest : List Char} (hw : Solid w)
    (hrest : BeginsApart rest) (hfits : m.text w ≤ width)
    (hfull : width < m.text (line ++ [' ']) + m.text w) :
    setWhole m width (line ++ [' ']) (tokens (w ++ rest)) =
      line :: setWhole m width [] (tokens (w ++ rest)) := by
  have hnext : m.text [] + m.text w ≤ width := by rw [hm.nil, Nat.zero_add]; exact hfits
  rw [setWhole_word hw hrest hnext, tokens_solid hw hrest, setWhole,
    if_neg (Nat.not_le_of_lt hfull), if_neg hw.ne_space, dropLastSpace_space, List.nil_append]

/-! ## 3. The layout leaves empty lines out -/

/-- **The lines of a layout are those that drop one space each, without the empty ones**, and the
    lines that drop one space each give the text back. -/
theorem Sets.eq_setWhole (hm : m.Sane) (hwidth : 1 ≤ width) {line rest : List Char}
    {lines : List (List Char)} (h : Sets m width line rest lines) (hfit : WordsFit m width rest) :
    lines = (setWhole m width line (tokens rest)).filter (· ≠ []) ∧
      joinSpaced (setWhole m width line (tokens rest)) = line ++ rest := by
  induction h with
  | nothing => exact ⟨rfl, rfl⟩
  | @last line hline =>
    have hkept : [line].filter (· ≠ []) = [line] := List.filter_cons_of_pos (by simpa using hline)
    exact ⟨hkept.symm, by rw [List.append_nil]; exact List.intercalate_singleton⟩
  | @space line rest lines hfits h ih =>
    obtain ⟨hlines, hjoin⟩ := ih hfit.of_space
    rw [setWhole_space hm hfits]
    exact ⟨hlines, hjoin.trans (List.append_assoc line [' '] rest)⟩
  | @word line w rest lines hline hw hrest hfits h ih =>
    obtain ⟨hlines, hjoin⟩ := ih (hfit.of_word hm hw hrest).2
    rw [setWhole_word hw hrest hfits]
    exact ⟨hlines, hjoin.trans (List.append_assoc line w rest)⟩
  | @endAtSpace line rest lines hfull h ih =>
    obtain ⟨hlines, hjoin⟩ := ih hfit.of_space
    have hline : line ≠ [] := by
      rintro rfl
      rw [hm.nil] at hfull
      omega
    rw [setWhole_endAtSpace hm hfull, joinSpaced_cons (setWhole_ne_nil m width _ _), hjoin, hlines]
    exact ⟨(List.filter_cons_of_pos (by simpa using hline)).symm, rfl⟩
  | @endAtWord line w rest lines hline hw hrest hfull h ih =>
    obtain ⟨hlines, hjoin⟩ := ih hfit
    have hfits := (hfit.of_word hm hw hrest).1
    rw [setWhole_endAtWord hm hw hrest hfits hfull, joinSpaced_cons (setWhole_ne_nil m width _ _),
      hjoin, hlines]
    exact ⟨(List.filter_cons_of_pos (by simpa using hline)).symm, by simp⟩
  | @dropSpace w rest lines hw hrest hfull h ih =>
    -- the line that holds nothing but the space is left out, and the space with it
    obtain ⟨hlines, hjoin⟩ := ih hfit
    have hfits := (hfit.of_word hm hw hrest).1
    have hnone : width < m.text ([] ++ [' ']) + m.text w := by
      rw [List.nil_append, hm.space]
      exact hfull
    rw [← List.nil_append [' '], setWhole_endAtWord hm hw hrest hfits hnone,
      joinSpaced_cons (setWhole_ne_nil m width _ _), hjoin, hlines]
    exact ⟨(List.filter_cons_of_neg (by simp)).symm, rfl⟩
  | @cutWord w rest lines hw hrest hwide h ih =>
    exact absurd (hfit.of_word hm hw hrest).1 (Nat.not_le_of_lt hwide)

/-! ## 4. Where a line can come to hold nothing -/

/-- The text ends with a space, or it has a space in front of a word that takes the whole width,
    where the space is the first character or follows another space. -/
def TightSpace (m : Measure) (width : Nat) (s : List Char) : Prop :=
  s.getLast? = some ' ' ∨ ∃ w, m.text w = width ∧ [[], w] <:+: s.splitOn ' '

theorem TightSpace.behind {rest : List Char} (h : rest = [] ∨ TightSpace m width rest)
    (line : List Char) : TightSpace m width (line ++ ' ' :: rest) := by
  rcases h with rfl | hlast | ⟨w, hw, hpieces⟩
  · exact .inl List.getLast?_concat
  · refine .inl ?_
    rw [← List.singleton_append, ← List.append_assoc, List.getLast?_append, hlast]
    rfl
  · refine .inr ⟨w, hw, hpieces.trans ?_⟩
    rw [List.splitOn_append_cons_self]
    exact (List.suffix_append _ _).isInfix

/-- **No line holds nothing, unless a space is tight.** -/
theorem Sets.tightSpace (hm : m.Sane) (hwidth : 1 ≤ width) {line rest : List Char}
    {lines : List (List Char)} (h : Sets m width line rest lines) (hfit : WordsFit m width rest)
    (hempty : [] ∈ setWhole m width line (tokens rest)) :
    line ++ rest = [] ∨ TightSpace m width (line ++ rest) := by
  induction h with
  | nothing => exact .inl rfl
  | last hline => exact absurd (List.mem_singleton.mp hempty).symm hline
  | @space line rest lines hfits h ih =>
    rw [setWhole_space hm hfits] at hempty
    rw [List.append_cons]
    exact ih hfit.of_space hempty
  | @word line w rest lines hline hw hrest hfits h ih =>
    rw [setWhole_word hw hrest hfits] at hempty
    rw [← List.append_assoc]
    exact ih (hfit.of_word hm hw hrest).2 hempty
  | @endAtSpace line rest lines hfull h ih =>
    rw [setWhole_endAtSpace hm hfull] at hempty
    rcases List.mem_cons.mp hempty with rfl | hempty
    · rw [hm.nil] at hfull
      omega
    · exact .inr (TightSpace.behind (ih hfit.of_space hempty) line)
  | @endAtWord line w rest lines hline hw hrest hfull h ih =>
    rw [setWhole_endAtWord hm hw hrest (hfit.of_word hm hw hrest).1 hfull] at hempty
    rcases List.mem_cons.mp hempty with rfl | hempty
    · exact absurd rfl hline
    · rw [← List.append_cons]
      exact .inr (TightSpace.behind (ih hfit hempty) line)
  | @dropSpace w rest lines hw hrest hfull h ih =>
    have hfits := (hfit.of_word hm hw hrest).1
    refine .inr (.inr ⟨w, by omega, ?_⟩)
    show [[], w] <:+: (' ' :: (w ++ rest)).splitOn ' '
    rw [splitOn_space, splitOn_word hw.no_space hrest]
    exact (List.prefix_append [[], w] _).isInfix
  | cutWord hw hrest hwide h ih =>
    exact absurd (hfit.of_word hm hw hrest).1 (Nat.not_le_of_lt hwide)

/-! ## 5. Whole segments -/

theorem length_joinSpaced : ∀ {lines : List (List Char)}, lines ≠ [] →
    (joinSpaced lines).length + 1 = lines.flatten.length + lines.length
  | [], h => absurd rfl h
  | [line], _ => by simp [joinSpaced]
  | line :: next :: lines, _ => by
      have ih := length_joinSpaced (List.cons_ne_nil next lines)
      rw [joinSpaced_cons (List.cons_ne_nil next lines), List.flatten_cons, List.length_append,
        List.length_append, List.length_cons, List.length_cons]
      omega

/-- Every empty line that is left out makes the joined lines shorter. -/
theorem joinSpaced_filter_eq_iff {lines : List (List Char)} (h : lines.filter (· ≠ []) ≠ []) :
    joinSpaced (lines.filter (· ≠ [])) = joinSpaced lines ↔ [] ∉ lines := by
  have hlines : lines ≠ [] := by
    rintro rfl
    exact h rfl
  constructor
  · intro hjoin hempty
    have hkept := length_joinSpaced h
    rw [hjoin, length_joinSpaced hlines, List.flatten_filter_ne_nil] at hkept
    have hall := List.length_filter_eq_length_iff.mp (Nat.add_left_cancel hkept).symm [] hempty
    exact absurd hall (by simp)
  · intro hempty
    have hall : lines.filter (· ≠ []) = lines := by
      refine List.filter_eq_self.mpr fun line hline => ?_
      simpa using fun e : line = [] => hempty (e ▸ hline)
    rw [hall]

/-- **When the lines of a segment give it back**: when none of the lines that drop one space each is
    empty, unless the segment is. -/
theorem joinSpaced_wrapSegment_iff (hm : m.Sane) (hwidth : 1 ≤ width) {s : List Char}
    (hfit : WordsFit m width s) : joinSpaced (wrapSegment m width s) = s ↔
      s = [] ∨ [] ∉ setWhole m width [] (tokens s) := by
  by_cases hs : s = []
  · subst hs
    rw [wrapSegment_nil]
    exact iff_of_true rfl (.inl rfl)
  · have hsets : Sets m width [] s (wrapSegment m width s) := wrapSegment_sets hm hs
    obtain ⟨hlines, hjoin⟩ := hsets.eq_setWhole hm hwidth hfit
    have hsome := hsets.ne_nil hs
    rw [hlines] at hsome
    rw [or_iff_right hs, ← joinSpaced_filter_eq_iff hsome, ← hlines, hjoin, List.nil_append]

/-- **Spacing is kept but for lines that would hold nothing.** Take a segment of a text whose words
    all fit. Lines that drop one space each give it back. Its lines in the wrapped text are these
    without the empty ones, so that they give it back exactly when there is no empty one; and there
    is none if no space of the segment is tight. Of the width functions it is only assumed that the
    empty text takes no column and a space takes one. -/
theorem spacing_kept_iff (hm : m.Sane) (hwidth : 1 ≤ width) (t : List Char) :
    wrap m width t = (segments (collapse t)).flatMap (wrapSegment m width) ∧
      ∀ s ∈ segments (collapse t), WordsFit m width s →
        let kept := setWhole m width [] (tokens s)
        joinSpaced kept = s ∧
          (s ≠ [] → wrapSegment m width s = kept.filter (· ≠ [])) ∧
          (joinSpaced (wrapSegment m width s) = s ↔ s = [] ∨ [] ∉ kept) ∧
          (¬ TightSpace m width s → joinSpaced (wrapSegment m width s) = s) := by
  refine ⟨wrap_of_width m hwidth t, fun s _ hfit => ?_⟩
  have hiff := joinSpaced_wrapSegment_iff hm hwidth hfit
  have hlayout := (layout_sets hm s).eq_setWhole hm hwidth hfit
  refine ⟨hlayout.2, fun hs => ?_, hiff, fun htight => hiff.mpr ?_⟩
  · exact ((wrapSegment_sets hm hs).eq_setWhole hm hwidth hfit).1
  · by_cases hs : s = []
    · exact .inl hs
    · refine .inr fun hempty => ?_
      cases (layout_sets hm s).tightSpace hm hwidth hfit hempty with
      | inl h => exact hs h
      | inr h => exact htight h

/-- The spaces of this text are kept. It has runs of spaces, and lines end in the middle of them. -/
theorem spacing_kept_in_runs :
    let s := "ab  cd     ef".toList
    Measure.display.Sane ∧ 1 ≤ 4 ∧ s ∈ segments (collapse s) ∧ WordsFit .display 4 s ∧
      ¬ TightSpace .display 4 s ∧ joinSpaced (wrapSegment .display 4 s) = s := by
  intro s
  have hm := Measure.display_sane
  have hwidth : 1 ≤ 4 := by decide
  have hs : s ∈ segments (collapse s) := by decide
  have hfit : WordsFit .display 4 s := by
    show ∀ w ∈ s.splitOn ' ', Measure.display.text w ≤ 4
    decide
  have htight : ¬ TightSpace .display 4 s := by
    have hnarrow : ∀ w ∈ s.splitOn ' ', Measure.display.text w ≠ 4 := by decide
    rintro (hlast | ⟨w, hw, hpieces⟩)
    · exact absurd hlast (by decide)
    · exact hnarrow w (hpieces.subset (by simp)) hw
  exact ⟨hm, hwidth, hs, hfit, htight,
    ((spacing_kept_iff hm hwidth s).2 s hs hfit).2.2.2 htight⟩

/-- Two spaces in front of a word that takes the whole width. The lines end at one of them only, but
    they do not give the text back. -/
theorem spacing_lost :
    let s := "abcd  efgh".toList
    segments (collapse s) = [s] ∧ WordsFit .display 4 s ∧
      wrap .display 4 s = ["abcd".toList, "efgh".toList] ∧ joinSpaced (wrap .display 4 s) ≠ s := by
  intro s
  have hm := Measure.display_sane
  have hone : segments (collapse s) = [s] := by decide
  have hfit : WordsFit .display 4 s := by
    show ∀ w ∈ s.splitOn ' ', Measure.display.text w ≤ 4
    decide
  have hlines : wrap .display 4 s = ["abcd".toList, "efgh".toList] := by
    have hsets : Sets .display 4 [] s (wrapSegment .display 4 s) := wrapSegment_sets hm (by decide)
    rw [wrap_of_width .display (by decide), hone, List.flatMap_singleton,
      (hsets.eq_setWhole hm (by decide) hfit).1]
    decide
  refine ⟨hone, hfit, hlines, ?_⟩
  rw [hlines]
  decide

end SequenceChart.Text
