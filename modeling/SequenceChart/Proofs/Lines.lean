import SequenceChart.Proofs.Setting

/-!
# Lines one after the other

The rules of `Sets` put one token after the other on a line. Seen from the beginning of a line they
do one thing together: they make a first line, drop a space in front of it or behind it, and leave
the rest of the text to the lines that follow.

* `Filled` is a line that was filled token by token, as long as there was place;
* `Stretch` is a line with the spaces that are dropped on its two sides, and `spanned` is the text
  that stretches take up;
* `FirstLine m width text p rest` says that the first line of a text is that of `p`, and that the
  next line begins with `rest`. `Lines` are first lines one after the other;
* `Sets.lines` says that the rules lead to such lines, so that what is to be shown of all lines of a
  segment is shown of a first line, and then by induction on the lines.
-/

namespace SequenceChart.Text

/-! ## 1. Stretches of a text -/

/-- A line, and how many spaces are dropped before and behind it. -/
structure Stretch where
  before : Nat
  line : List Char
  behind : Nat
  deriving DecidableEq, Repr

/-- What a stretch takes up of the text. -/
def Stretch.text (p : Stretch) : List Char :=
  List.replicate p.before ' ' ++ (p.line ++ List.replicate p.behind ' ')

/-- The text that stretches take up together. -/
def spanned (ps : List Stretch) : List Char :=
  ps.flatMap Stretch.text

@[simp] theorem spanned_nil : spanned [] = [] :=
  rfl

@[simp] theorem spanned_cons (p : Stretch) (ps : List Stretch) :
    spanned (p :: ps) = p.text ++ spanned ps :=
  List.flatMap_cons

theorem spanned_append (ps qs : List Stretch) : spanned (ps ++ qs) = spanned ps ++ spanned qs :=
  List.flatMap_append

/-! ## 2. The first line -/

/-- **A line that was filled**: each space and each word on it had place when it was set. -/
inductive Filled (m : Measure) (width : Nat) : List Char → Prop where
  | nothing : Filled m width []
  | space {line : List Char} (h : Filled m width line) (hfits : m.text line + 1 ≤ width) :
      Filled m width (line ++ [' '])
  | word {line w : List Char} (h : Filled m width line) (hline : EndsApart line) (hw : Solid w)
      (hfits : m.text line + m.text w ≤ width) : Filled m width (line ++ w)

/-- **The first line of a text**, and the rest of the text where the next line begins. -/
inductive FirstLine (m : Measure) (width : Nat) : List Char → Stretch → List Char → Prop where
  /-- The line holds all of the text. -/
  | whole {line : List Char} (hne : line ≠ []) (hline : Filled m width line) :
      FirstLine m width line ⟨0, line, 0⟩ []
  /-- The line ends at a space for which there is no place. -/
  | atSpace {line rest : List Char} (hne : line ≠ []) (hline : Filled m width line)
      (hfull : width < m.text line + 1) :
      FirstLine m width (line ++ ' ' :: rest) ⟨0, line, 1⟩ rest
  /-- The line ends in front of a word for which there is no place behind the space. -/
  | atWord {line w rest : List Char} (hne : line ≠ []) (hline : Filled m width line)
      (hw : Solid w) (hrest : BeginsApart rest)
      (hfull : width < m.text (line ++ [' ']) + m.text w) :
      FirstLine m width (line ++ ' ' :: (w ++ rest)) ⟨0, line, 1⟩ (w ++ rest)
  /-- The line is cut off a word that is too wide. -/
  | cutWord {w rest : List Char} (hw : Solid w) (hrest : BeginsApart rest)
      (hwide : width < m.text w) :
      FirstLine m width (w ++ rest) ⟨0, (cut m.char width w).1, 0⟩ ((cut m.char width w).2 ++ rest)
  /-- A single space in front of a word for which there is no place behind it makes no line. -/
  | behindSpace {w rest next : List Char} {p : Stretch} (hw : Solid w) (hrest : BeginsApart rest)
      (hfull : width < 1 + m.text w) (h : FirstLine m width (w ++ rest) p next) :
      FirstLine m width (' ' :: (w ++ rest)) { p with before := p.before + 1 } next

/-- **The lines of a text**, one first line after the other. -/
inductive Lines (m : Measure) (width : Nat) : List Char → List Stretch → Prop where
  | nothing : Lines m width [] []
  | cons {text next : List Char} {p : Stretch} {ps : List Stretch}
      (h : FirstLine m width text p next) (hnext : Lines m width next ps) :
      Lines m width text (p :: ps)

variable {m : Measure} {width : Nat}

/-! ## 3. What a first line takes up -/

theorem cut_fst_ne_nil (char : Char → Nat) (limit : Nat) {w : List Char} (hw : w ≠ []) :
    (cut char limit w).1 ≠ [] := by
  obtain ⟨c, cs, rfl⟩ := List.exists_cons_of_ne_nil hw
  exact List.cons_ne_nil c _

/-- A first line and what follows make up the text. -/
theorem FirstLine.text_append {text next : List Char} {p : Stretch}
    (h : FirstLine m width text p next) : p.text ++ next = text := by
  induction h with
  | whole => simp [Stretch.text]
  | atSpace => simp [Stretch.text]
  | atWord => simp [Stretch.text]
  | @cutWord w rest hw hrest hwide =>
    show ([] ++ ((cut m.char width w).1 ++ [])) ++ _ = _
    rw [List.nil_append, List.append_nil, ← List.append_assoc, cut_append]
  | behindSpace hw hrest hfull h ih =>
    rw [← ih]
    simp [Stretch.text, List.replicate_succ]

theorem FirstLine.line_ne_nil {text next : List Char} {p : Stretch}
    (h : FirstLine m width text p next) : p.line ≠ [] := by
  induction h with
  | whole hne => exact hne
  | atSpace hne => exact hne
  | atWord hne => exact hne
  | cutWord hw => exact cut_fst_ne_nil m.char width hw.ne_nil
  | behindSpace hw hrest hfull h ih => exact ih

theorem Stretch.text_ne_nil {p : Stretch} (h : p.line ≠ []) : p.text ≠ [] := by
  intro hnone
  unfold Stretch.text at hnone
  exact h (List.append_eq_nil_iff.mp (List.append_eq_nil_iff.mp hnone).2).1

theorem FirstLine.text_ne_nil {text next : List Char} {p : Stretch}
    (h : FirstLine m width text p next) : text ≠ [] := by
  rintro rfl
  exact Stretch.text_ne_nil h.line_ne_nil (List.append_eq_nil_iff.mp h.text_append).1

theorem FirstLine.next_suffix {text next : List Char} {p : Stretch}
    (h : FirstLine m width text p next) : next <:+ text :=
  ⟨p.text, h.text_append⟩

/-- Nothing is dropped in front of a line that begins with a word. -/
theorem FirstLine.before_of_word {w rest next : List Char} {p : Stretch} (hw : Solid w)
    (h : FirstLine m width (w ++ rest) p next) : p.before = 0 := by
  generalize htext : w ++ rest = text at h
  cases h with
  | whole => rfl
  | atSpace => rfl
  | atWord => rfl
  | cutWord => rfl
  | behindSpace =>
    refine absurd ?_ (hw.not_beginsApart rest)
    rw [htext]
    exact beginsApart_space _

/-- **On each side of a line one space is dropped at the most.** -/
theorem FirstLine.dropped_le {text next : List Char} {p : Stretch}
    (h : FirstLine m width text p next) : p.before ≤ 1 ∧ p.behind ≤ 1 := by
  induction h with
  | whole => exact ⟨Nat.zero_le 1, Nat.zero_le 1⟩
  | atSpace => exact ⟨Nat.zero_le 1, Nat.le_refl 1⟩
  | atWord => exact ⟨Nat.zero_le 1, Nat.le_refl 1⟩
  | cutWord => exact ⟨Nat.zero_le 1, Nat.zero_le 1⟩
  | @behindSpace w rest next p hw hrest hfull h ih =>
    have hnone := h.before_of_word hw
    refine ⟨?_, ih.2⟩
    show p.before + 1 ≤ 1
    omega

theorem Lines.spanned_eq {text : List Char} {ps : List Stretch} (h : Lines m width text ps) :
    spanned ps = text := by
  induction h with
  | nothing => rfl
  | cons h _ ih => rw [spanned_cons, ih, h.text_append]

/-- The first line of a text, and the lines that follow. -/
theorem Lines.uncons {text : List Char} {p : Stretch} {ps : List Stretch}
    (h : Lines m width text (p :: ps)) :
    FirstLine m width text p (spanned ps) ∧ Lines m width (spanned ps) ps := by
  cases h with
  | cons h hnext =>
    rw [hnext.spanned_eq]
    exact ⟨h, hnext⟩

theorem Lines.exists_first {text : List Char} {ps : List Stretch} (h : Lines m width text ps)
    (hne : text ≠ []) : ∃ p next qs, ps = p :: qs ∧ FirstLine m width text p next ∧
      Lines m width next qs := by
  cases h with
  | nothing => exact absurd rfl hne
  | cons h hnext => exact ⟨_, _, _, rfl, h, hnext⟩

/-- What holds of every first line holds of all lines. -/
theorem Lines.forall {P : Stretch → Prop} (hfirst : ∀ {text next : List Char} {p : Stretch},
    FirstLine m width text p next → P p) {text : List Char} {ps : List Stretch}
    (h : Lines m width text ps) : ∀ p ∈ ps, P p := by
  induction h with
  | nothing => exact fun p hp => absurd hp List.not_mem_nil
  | cons h _ ih =>
    intro p hp
    rcases List.mem_cons.mp hp with rfl | hp
    · exact hfirst h
    · exact ih p hp

/-- From each line on, the lines are those of the text that is left. -/
theorem Lines.drop {text : List Char} {ps qs : List Stretch} (h : Lines m width text (ps ++ qs)) :
    Lines m width (spanned qs) qs := by
  induction ps generalizing text with
  | nil =>
    rw [List.nil_append] at h
    rwa [h.spanned_eq]
  | cons p ps ih => exact ih h.uncons.2

/-! ## 4. The rules lead to lines -/

/-- The line in front of a space that was set is filled. -/
theorem Filled.of_space {line : List Char} (h : Filled m width (line ++ [' '])) :
    Filled m width line := by
  generalize htext : line ++ [' '] = text at h
  cases h with
  | nothing => exact absurd htext (by simp)
  | space h hfits => exact List.append_cancel_right htext ▸ h
  | @word before w h hline hw hfits => exact absurd (htext ▸ endsApart_space line) (hw.not_endsApart _)

/-- **The lines that the rules set** are first lines one after the other. -/
theorem Sets.lines (hm : m.Sane) (hwidth : 1 ≤ width) {line rest : List Char}
    {lines : List (List Char)} (h : Sets m width line rest lines) (hfilled : Filled m width line) :
    ∃ ps, Lines m width (line ++ rest) ps ∧ ps.map Stretch.line = lines := by
  induction h with
  | nothing => exact ⟨[], .nothing, rfl⟩
  | @last line hline =>
    rw [List.append_nil]
    exact ⟨[⟨0, line, 0⟩], .cons (.whole hline hfilled) .nothing, rfl⟩
  | @space line rest lines hfits h ih =>
    rw [List.append_cons]
    exact ih (hfilled.space hfits)
  | @word line w rest lines hline hw hrest hfits h ih =>
    rw [← List.append_assoc]
    exact ih (hfilled.word hline hw hfits)
  | @endAtSpace line rest lines hfull h ih =>
    have hline : line ≠ [] := by
      rintro rfl
      rw [hm.nil] at hfull
      omega
    obtain ⟨ps, hps, hlines⟩ := ih .nothing
    exact ⟨⟨0, line, 1⟩ :: ps, .cons (.atSpace hline hfilled hfull) hps, congrArg _ hlines⟩
  | @endAtWord line w rest lines hline hw hrest hfull h ih =>
    obtain ⟨ps, hps, hlines⟩ := ih .nothing
    rw [← List.append_cons]
    exact ⟨⟨0, line, 1⟩ :: ps, .cons (.atWord hline hfilled.of_space hw hrest hfull) hps,
      congrArg _ hlines⟩
  | @dropSpace w rest lines hw hrest hfull h ih =>
    obtain ⟨ps, hps, hlines⟩ := ih .nothing
    have hne : w ++ rest ≠ [] := fun e => hw.ne_nil (List.append_eq_nil_iff.mp e).1
    obtain ⟨p, next, qs, rfl, hfirst, hnext⟩ := hps.exists_first hne
    have hbehind : FirstLine m width (' ' :: (w ++ rest)) { p with before := p.before + 1 } next :=
      .behindSpace hw hrest hfull hfirst
    exact ⟨{ p with before := p.before + 1 } :: qs, .cons hbehind hnext, hlines⟩
  | @cutWord w rest lines hw hrest hwide h ih =>
    obtain ⟨ps, hps, hlines⟩ := ih .nothing
    exact ⟨⟨0, (cut m.char width w).1, 0⟩ :: ps, .cons (.cutWord hw hrest hwide) hps,
      congrArg _ hlines⟩

/-- **The lines of a segment that is not empty** are set one after the other. -/
theorem wrapSegment_lines (hm : m.Sane) (hwidth : 1 ≤ width) {s : List Char} (hs : s ≠ []) :
    ∃ ps, Lines m width s ps ∧ ps.map Stretch.line = wrapSegment m width s :=
  (wrapSegment_sets hm hs).lines hm hwidth .nothing

end SequenceChart.Text
