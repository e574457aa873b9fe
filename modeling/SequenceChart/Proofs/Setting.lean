import SequenceChart.Text.Wrap

/-!
# How lines are set

`layout` works on tokens. This file says the same of the text itself: what a line ends at, and what
is dropped there.

* `Solid` is a text that may be a word, and `BeginsApart`, `EndsApart` say that a word may stand in
  front of a text or behind it;
* `tokens_space`, `tokens_solid` and `tokens_eq_cons` say what the first token of a text is;
* `Sets m width line rest lines` holds the rules for setting lines, each with the condition under
  which it applies. `layout_sets` says that these are the rules of `layout`, so that what is to be
  shown of the lines of a segment may be shown by induction on them.
-/

namespace SequenceChart.Text

/-! ## 1. Words in a text -/

/-- A text without spaces that is not empty. -/
structure Solid (w : List Char) : Prop where
  ne_nil : w ≠ []
  no_space : ' ' ∉ w

/-- A word may stand in front of the text: it begins with a space, or there is none. -/
def BeginsApart (rest : List Char) : Prop :=
  rest = [] ∨ ∃ after, rest = ' ' :: after

/-- A word may stand behind the text: it ends with a space, or there is none. -/
def EndsApart (line : List Char) : Prop :=
  line = [] ∨ ∃ before, line = before ++ [' ']

theorem beginsApart_space (rest : List Char) : BeginsApart (' ' :: rest) :=
  .inr ⟨rest, rfl⟩

theorem endsApart_space (line : List Char) : EndsApart (line ++ [' ']) :=
  .inr ⟨line, rfl⟩

theorem Solid.ne_space {w : List Char} (h : Solid w) : w ≠ [' '] :=
  fun e => h.no_space (e ▸ List.mem_singleton_self ' ')

/-- No word may stand in front of a word. -/
theorem Solid.not_beginsApart {w : List Char} (h : Solid w) (rest : List Char) :
    ¬ BeginsApart (w ++ rest) := by
  rintro (hnil | ⟨after, hspace⟩)
  · exact h.ne_nil (List.append_eq_nil_iff.mp hnil).1
  · obtain ⟨c, cs, rfl⟩ := List.exists_cons_of_ne_nil h.ne_nil
    have hc : c = ' ' := (List.cons.inj hspace).1
    exact h.no_space (hc ▸ List.mem_cons_self)

/-- No word may stand behind a word. -/
theorem Solid.not_endsApart {w : List Char} (h : Solid w) (line : List Char) :
    ¬ EndsApart (line ++ w) := by
  rintro (hnil | ⟨before, hspace⟩)
  · exact h.ne_nil (List.append_eq_nil_iff.mp hnil).2
  · have hlast := congrArg List.getLast? hspace
    rw [List.getLast?_concat, List.getLast?_append, List.getLast?_eq_some_getLast h.ne_nil,
      Option.some_or] at hlast
    exact h.no_space (Option.some.inj hlast ▸ List.getLast_mem h.ne_nil)

/-- A character that is no space stands in front of a word, or is one by itself. -/
theorem Solid.cons {c : Char} {w : List Char} (hc : c ≠ ' ') (hw : ' ' ∉ w) : Solid (c :: w) where
  ne_nil := List.cons_ne_nil c w
  no_space hm := (List.mem_cons.mp hm).elim (fun e => hc e.symm) hw

/-- **A text begins with a space or with a word** that may stand in front of the rest. -/
theorem begins_with_token : ∀ s : List Char, s = [] ∨ (∃ rest, s = ' ' :: rest) ∨
    ∃ w rest, Solid w ∧ BeginsApart rest ∧ s = w ++ rest
  | [] => .inl rfl
  | c :: s => by
      by_cases hc : c = ' '
      · exact .inr (.inl ⟨s, by rw [hc]⟩)
      · refine .inr (.inr ?_)
        rcases begins_with_token s with rfl | ⟨rest, rfl⟩ | ⟨w, rest, hw, hrest, rfl⟩
        · exact ⟨[c], [], Solid.cons hc List.not_mem_nil, .inl rfl, rfl⟩
        · exact ⟨[c], _, Solid.cons hc List.not_mem_nil, beginsApart_space rest, rfl⟩
        · exact ⟨c :: w, rest, Solid.cons hc hw.no_space, hrest, rfl⟩

/-! ## 2. The first token -/

theorem tokens_space (rest : List Char) : tokens (' ' :: rest) = [' '] :: tokens rest :=
  rfl

theorem tokens_solid : ∀ {w rest : List Char}, Solid w → BeginsApart rest →
    tokens (w ++ rest) = w :: tokens rest
  | [], _, hw, _ => absurd rfl hw.ne_nil
  | [c], rest, hw, hrest => by
      have hc : c ≠ ' ' := fun e => hw.no_space (e ▸ List.mem_cons_self)
      rcases hrest with rfl | ⟨after, rfl⟩
      · simp [tokens, consWord, hc]
      · simp [tokens, consWord, hc]
  | c :: d :: w, rest, hw, hrest => by
      have hc : c ≠ ' ' := fun e => hw.no_space (e ▸ List.mem_cons_self)
      have htail : Solid (d :: w) :=
        ⟨List.cons_ne_nil d w, fun hm => hw.no_space (List.mem_cons_of_mem c hm)⟩
      have ih := tokens_solid htail hrest
      rw [List.cons_append, tokens, if_neg hc, ih, consWord, if_neg htail.ne_space]

/-- **The first token of a text** is a space, or the word up to the next space. -/
theorem tokens_eq_cons {s t : List Char} {ts : List (List Char)} (h : tokens s = t :: ts) :
    (t = [' '] ∧ ∃ rest, s = ' ' :: rest ∧ ts = tokens rest) ∨
      (Solid t ∧ ∃ rest, s = t ++ rest ∧ BeginsApart rest ∧ ts = tokens rest) := by
  rcases begins_with_token s with rfl | ⟨rest, rfl⟩ | ⟨w, rest, hw, hrest, rfl⟩
  · cases h
  · rw [tokens_space] at h
    obtain ⟨rfl, rfl⟩ := List.cons.inj h
    exact .inl ⟨rfl, rest, rfl, rfl⟩
  · rw [tokens_solid hw hrest] at h
    obtain ⟨rfl, rfl⟩ := List.cons.inj h
    exact .inr ⟨hw, rest, rfl, hrest, rfl⟩

theorem tokens_eq_nil {s : List Char} (h : tokens s = []) : s = [] := by
  rcases begins_with_token s with rfl | ⟨rest, rfl⟩ | ⟨w, rest, hw, hrest, rfl⟩
  · rfl
  · cases h
  · rw [tokens_solid hw hrest] at h
    cases h

/-! ## 3. The pieces between spaces -/

theorem splitOn_space (rest : List Char) : (' ' :: rest).splitOn ' ' = [] :: rest.splitOn ' ' :=
  List.splitOn_append_cons_self_of_not_mem List.not_mem_nil rest

/-- The pieces of a text in front of which a word may stand begin with an empty piece. -/
theorem splitOn_beginsApart {rest : List Char} (hrest : BeginsApart rest) :
    rest.splitOn ' ' = [] :: (rest.splitOn ' ').tail := by
  rcases hrest with rfl | ⟨after, rfl⟩
  · rfl
  · rw [splitOn_space]
    rfl

/-- The first piece of a text that begins with a word is the word. The other pieces are those of the
    text behind it. -/
theorem splitOn_word {w rest : List Char} (hw : ' ' ∉ w) (hrest : BeginsApart rest) :
    (w ++ rest).splitOn ' ' = w :: (rest.splitOn ' ').tail := by
  rcases hrest with rfl | ⟨after, rfl⟩
  · rw [List.append_nil, List.splitOn_eq_singleton hw]
    rfl
  · rw [List.splitOn_append_cons_self_of_not_mem hw, splitOn_space]
    rfl

/-! ## 4. The rules for setting lines -/

/-- **How lines are set**: with `line` on the current line and `rest` still to be set, the lines
    are these. A word is only ever set behind a space or at the beginning of a line. -/
inductive Sets (m : Measure) (width : Nat) :
    List Char → List Char → List (List Char) → Prop where
  /-- Nothing is left, and the current line is empty. -/
  | nothing : Sets m width [] [] []
  /-- Nothing is left, and the current line is the last one. -/
  | last {line : List Char} (hline : line ≠ []) : Sets m width line [] [line]
  /-- A space goes on the current line. -/
  | space {line rest : List Char} {lines : List (List Char)}
      (hfits : m.text line + 1 ≤ width) (h : Sets m width (line ++ [' ']) rest lines) :
      Sets m width line (' ' :: rest) lines
  /-- A word goes on the current line. -/
  | word {line w rest : List Char} {lines : List (List Char)} (hline : EndsApart line)
      (hw : Solid w) (hrest : BeginsApart rest) (hfits : m.text line + m.text w ≤ width)
      (h : Sets m width (line ++ w) rest lines) : Sets m width line (w ++ rest) lines
  /-- The current line ends at a space for which there is no place. The space is dropped. -/
  | endAtSpace {line rest : List Char} {lines : List (List Char)}
      (hfull : width < m.text line + 1) (h : Sets m width [] rest lines) :
      Sets m width line (' ' :: rest) (line :: lines)
  /-- The current line ends in front of a word for which there is no place. The space in front of
      the word is dropped. -/
  | endAtWord {line w rest : List Char} {lines : List (List Char)} (hline : line ≠ [])
      (hw : Solid w) (hrest : BeginsApart rest)
      (hfull : width < m.text (line ++ [' ']) + m.text w)
      (h : Sets m width [] (w ++ rest) lines) :
      Sets m width (line ++ [' ']) (w ++ rest) (line :: lines)
  /-- As before, but the space that is dropped is all that the current line holds. This makes no
      empty line. -/
  | dropSpace {w rest : List Char} {lines : List (List Char)} (hw : Solid w)
      (hrest : BeginsApart rest) (hfull : width < 1 + m.text w)
      (h : Sets m width [] (w ++ rest) lines) : Sets m width [' '] (w ++ rest) lines
  /-- A word that is too wide for an empty line is cut, and what is cut off is a line. -/
  | cutWord {w rest : List Char} {lines : List (List Char)} (hw : Solid w)
      (hrest : BeginsApart rest) (hwide : width < m.text w)
      (h : Sets m width [] ((cut m.char width w).2 ++ rest) lines) :
      Sets m width [] (w ++ rest) ((cut m.char width w).1 :: lines)

variable {m : Measure} {width : Nat}

/-- The empty text fits at any width. -/
theorem Measure.Sane.nil_le (hm : m.Sane) (width : Nat) : m.text [] ≤ width := by
  rw [hm.nil]
  exact Nat.zero_le width

theorem dropLastSpace_space (line : List Char) : dropLastSpace (line ++ [' ']) = line := by
  simp [dropLastSpace]

theorem Solid.no_space_cut_snd {w : List Char} (hw : Solid w) (char : Char → Nat) (limit : Nat) :
    ' ' ∉ (cut char limit w).2 := by
  intro hm
  refine hw.no_space ?_
  rw [← cut_append char limit w]
  exact List.mem_append_right _ hm

/-- What is left of a word that is cut is a word, if there is anything left. -/
theorem Solid.cut_snd {w : List Char} (hw : Solid w) (char : Char → Nat)
    (hne : (cut char width w).2 ≠ []) : Solid (cut char width w).2 where
  ne_nil := hne
  no_space := hw.no_space_cut_snd char width

/-- The rules are those of the layout. -/
theorem layout_sets_of_tokens (hm : m.Sane) (line : List Char) (ts : List (List Char)) :
    ∀ rest, ts = tokens rest → EndsApart line ∨ BeginsApart rest →
      Sets m width line rest (layout m width line ts) := by
  have hempty : ∀ {rest}, EndsApart [] ∨ BeginsApart rest := .inl (.inl rfl)
  induction line, ts using layout.induct m width with
  | case1 =>
    intro rest hts _
    rw [layout, if_pos rfl, tokens_eq_nil hts.symm]
    exact .nothing
  | case2 line hne =>
    intro rest hts _
    rw [layout, if_neg hne, tokens_eq_nil hts.symm]
    exact .last hne
  | case3 line t ts hfits ih =>
    intro rest hts hapart
    rw [layout, if_pos hfits]
    rcases tokens_eq_cons hts.symm with ⟨rfl, after, rfl, rfl⟩ | ⟨ht, after, rfl, hafter, rfl⟩
    · rw [hm.space] at hfits
      exact .space hfits (ih after rfl (.inl (endsApart_space line)))
    · have hline := hapart.resolve_right (ht.not_beginsApart after)
      exact .word hline ht hafter hfits (ih after rfl (.inr hafter))
  | case4 line ts hfits ih =>
    intro rest hts _
    rw [layout, if_neg hfits, if_pos rfl]
    rcases tokens_eq_cons hts.symm with ⟨_, after, rfl, rfl⟩ | ⟨ht, _⟩
    · rw [hm.space] at hfits
      exact .endAtSpace (Nat.lt_of_not_le hfits) (ih after rfl hempty)
    · exact absurd rfl ht.ne_space
  | case5 line t ts hfits hspace hne hdrop ih =>
    intro rest hts hapart
    have hrest := ih rest hts hempty
    rw [layout, if_neg hfits, if_neg hspace, if_pos hne, if_pos hdrop]
    rcases tokens_eq_cons hts.symm with ⟨rfl, _⟩ | ⟨ht, after, rfl, hafter, rfl⟩
    · exact absurd rfl hspace
    · obtain ⟨before, rfl⟩ :=
        (hapart.resolve_right (ht.not_beginsApart after)).resolve_left hne
      rw [dropLastSpace_space] at hdrop
      rw [hdrop, List.nil_append, hm.space] at hfits
      rw [hdrop]
      exact .dropSpace ht hafter (Nat.lt_of_not_le hfits) hrest
  | case6 line t ts hfits hspace hne hdrop ih =>
    intro rest hts hapart
    have hrest := ih rest hts hempty
    rw [layout, if_neg hfits, if_neg hspace, if_pos hne, if_neg hdrop]
    rcases tokens_eq_cons hts.symm with ⟨rfl, _⟩ | ⟨ht, after, rfl, hafter, rfl⟩
    · exact absurd rfl hspace
    · obtain ⟨before, rfl⟩ :=
        (hapart.resolve_right (ht.not_beginsApart after)).resolve_left hne
      rw [dropLastSpace_space] at hdrop ⊢
      exact .endAtWord hdrop ht hafter (Nat.lt_of_not_le hfits) hrest
  | case7 line t ts hfits hspace hline hrest ih =>
    intro rest hts _
    rw [layout, if_neg hfits, if_neg hspace, if_neg hline, if_pos hrest]
    obtain rfl := Classical.not_not.mp hline
    rw [hm.nil, Nat.zero_add] at hfits
    rcases tokens_eq_cons hts.symm with ⟨rfl, _⟩ | ⟨ht, after, rfl, hafter, rfl⟩
    · exact absurd rfl hspace
    · refine .cutWord ht hafter (Nat.lt_of_not_le hfits) ?_
      rw [hrest]
      exact ih after rfl hempty
  | case8 line t ts hfits hspace hline hrest ih =>
    intro rest hts _
    rw [layout, if_neg hfits, if_neg hspace, if_neg hline, if_neg hrest]
    obtain rfl := Classical.not_not.mp hline
    rw [hm.nil, Nat.zero_add] at hfits
    rcases tokens_eq_cons hts.symm with ⟨rfl, _⟩ | ⟨ht, after, rfl, hafter, rfl⟩
    · exact absurd rfl hspace
    · have htail := ht.cut_snd m.char hrest
      exact .cutWord ht hafter (Nat.lt_of_not_le hfits)
        (ih _ (tokens_solid htail hafter).symm hempty)

theorem layout_sets (hm : m.Sane) (s : List Char) :
    Sets m width [] s (layout m width [] (tokens s)) :=
  layout_sets_of_tokens hm [] (tokens s) s rfl (.inl (.inl rfl))

/-- As long as there is something to set, there is a line. -/
theorem Sets.ne_nil {line rest : List Char} {lines : List (List Char)}
    (h : Sets m width line rest lines) : line ++ rest ≠ [] → lines ≠ [] := by
  induction h with
  | nothing => exact fun h => absurd rfl h
  | last => exact fun _ => List.cons_ne_nil _ _
  | @space line rest lines hfits h ih =>
    rw [List.append_cons]
    exact ih
  | @word line w rest lines hline hw hrest hfits h ih =>
    rw [← List.append_assoc]
    exact ih
  | endAtSpace => exact fun _ => List.cons_ne_nil _ _
  | endAtWord => exact fun _ => List.cons_ne_nil _ _
  | dropSpace hw hrest hfull h ih =>
    rw [List.nil_append] at ih
    exact fun _ => ih fun e => hw.ne_nil (List.append_eq_nil_iff.mp e).1
  | cutWord => exact fun _ => List.cons_ne_nil _ _

/-- An empty segment is one empty line. -/
theorem wrapSegment_nil (m : Measure) (width : Nat) : wrapSegment m width [] = [[]] := by
  simp [wrapSegment, tokens, layout]

/-- **The lines of a segment are set by the rules**, if it is not empty. -/
theorem wrapSegment_sets (hm : m.Sane) {s : List Char} (hs : s ≠ []) :
    Sets m width [] s (wrapSegment m width s) := by
  have h : Sets m width [] s (layout m width [] (tokens s)) := layout_sets hm s
  have hlines := h.ne_nil hs
  unfold wrapSegment
  split
  · rename_i hnone
    exact absurd hnone hlines
  · exact h

/-- The segments of a text are wrapped one by one. -/
theorem wrap_of_width (m : Measure) (hwidth : 1 ≤ width) (t : List Char) :
    wrap m width t = (segments (collapse t)).flatMap (wrapSegment m width) := by
  have hw : width ≠ 0 := by omega
  unfold wrap
  simp only [if_neg hw]

end SequenceChart.Text
