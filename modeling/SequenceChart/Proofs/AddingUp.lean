import SequenceChart.Proofs.DisplayColumns
import SequenceChart.Proofs.Lines
import SequenceChart.Proofs.Wrapping

/-!
# Texts whose columns add up

For most texts the columns are those of the characters, added up. Of such a text more can be said
than of texts in general: a line that was filled fits, and what is longer is wider.

* `Measure.Additive` are the measures that add up on every text. `Measure.AddsUp` says of one text
  that its columns add up, for every piece of it;
* `wrapSegment_summed` says that the lines of such a text are those for the measure that adds up
  the characters, so that one may always go over to an additive measure;
* `Measure.display_addsUp` gives texts whose display columns add up: those without characters that
  join with others.
-/

namespace SequenceChart.Text

/-! ## 1. Measures that add up -/

/-- The columns of every text are those of its characters, and a space takes one. -/
structure Measure.Additive (m : Measure) : Prop where
  space : m.char ' ' = 1
  adds : ∀ t, m.text t = charSum m.char t

/-- The columns of every piece of a text are those of its characters. -/
def Measure.AddsOn (m : Measure) (s : List Char) : Prop :=
  ∀ piece, piece <:+: s → m.text piece = charSum m.char piece

/-- **The columns of a text that is wrapped add up**, for every piece that can be on a line, and a
    space takes one. -/
structure Measure.AddsUp (m : Measure) (t : List Char) : Prop where
  space : m.char ' ' = 1
  pieces : ∀ s ∈ segments (collapse t), m.AddsOn s

/-- The measure that adds up the columns of the characters. -/
def Measure.summed (m : Measure) : Measure := ⟨charSum m.char, m.char⟩

theorem Measure.AddsUp.additive {m : Measure} {t : List Char} (h : m.AddsUp t) :
    m.summed.Additive :=
  ⟨h.space, fun _ => rfl⟩

variable {m : Measure} {width : Nat}

theorem Measure.Additive.append (hm : m.Additive) (a b : List Char) :
    m.text (a ++ b) = m.text a + m.text b := by
  rw [hm.adds, hm.adds, hm.adds, charSum_append]

theorem Measure.Additive.sane (hm : m.Additive) : m.Sane where
  nil := hm.adds []
  space := by rw [hm.adds, charSum, hm.space]; rfl

/-- A space takes one column wherever it stands. -/
theorem Measure.Additive.append_space (hm : m.Additive) (a b : List Char) :
    m.text (a ++ ' ' :: b) = m.text a + 1 + m.text b := by
  rw [← List.singleton_append, hm.append, hm.append, hm.sane.space, Nat.add_assoc]

/-- What is part of a text is no wider. -/
theorem Measure.Additive.le_of_infix (hm : m.Additive) {a b : List Char} (h : a <:+: b) :
    m.text a ≤ m.text b := by
  obtain ⟨before, behind, rfl⟩ := h
  rw [hm.append, hm.append]
  omega

/-- **A line that was filled fits.** -/
theorem Filled.le (hm : m.Additive) {line : List Char} (h : Filled m width line) :
    m.text line ≤ width := by
  induction h with
  | nothing => exact hm.sane.nil_le width
  | space _ hfits =>
    rw [hm.append, hm.sane.space]
    exact hfits
  | word _ _ _ hfits =>
    rw [hm.append]
    exact hfits

/-! ## 2. Going over to an additive measure -/

theorem consWord_flatten (c : Char) (ts : List (List Char)) :
    (consWord c ts).flatten = c :: ts.flatten := by
  cases ts with
  | nil => rfl
  | cons t ts =>
    rw [consWord]
    split <;> rfl

/-- The tokens of a segment make it up. -/
theorem tokens_flatten (s : List Char) : (tokens s).flatten = s := by
  induction s with
  | nil => rfl
  | cons c s ih =>
    rw [tokens]
    split
    · rename_i hc
      rw [List.flatten_cons, ih, hc]
      rfl
    · rw [consWord_flatten, ih]

theorem Measure.AddsOn.of_infix {s s' : List Char} (h : m.AddsOn s) (hs : s' <:+: s) :
    m.AddsOn s' :=
  fun piece hpiece => h piece (hpiece.trans hs)

theorem Measure.AddsOn.part {s a piece b : List Char} (h : m.AddsOn s)
    (hs : s = a ++ (piece ++ b)) : m.text piece = m.summed.text piece :=
  h piece ⟨a, b, by rw [hs, List.append_assoc]⟩

/-- The layout asks only for the columns of pieces of the text. -/
theorem layout_summed (m : Measure) (width : Nat) (line : List Char) (ts : List (List Char)) :
    m.AddsOn (line ++ ts.flatten) → layout m width line ts = layout m.summed width line ts := by
  -- what a step compares with the width, and what it leaves when the line has ended
  have hsum : ∀ {line t : List Char} {ts : List (List Char)},
      m.AddsOn (line ++ (t :: ts).flatten) →
        m.text line + m.text t = m.summed.text line + m.summed.text t := by
    intro line t ts h
    rw [h line (List.prefix_append line _).isInfix, h t ⟨line, ts.flatten, by simp⟩]
    rfl
  have hleft : ∀ {line s s' : List Char}, m.AddsOn (line ++ s) → s' <:+ s → m.AddsOn ([] ++ s') :=
    fun h hs => h.of_infix (hs.trans (List.suffix_append _ _)).isInfix
  induction line, ts using layout.induct m width with
  | case1 =>
    intro _
    rw [layout, layout]
  | case2 line hne =>
    intro _
    rw [layout, layout]
  | case3 line t ts hfits ih =>
    intro h
    have hnext : m.AddsOn ((line ++ t) ++ ts.flatten) := by
      rw [List.append_assoc]
      exact h
    rw [hsum h] at hfits
    rw [layout, hsum h, if_pos hfits, ih hnext]
    conv => rhs; rw [layout, if_pos hfits]
  | case4 line ts hfits ih =>
    intro h
    rw [hsum h] at hfits
    rw [layout, hsum h, if_neg hfits, if_pos rfl, ih (hleft h (List.suffix_append _ _))]
    conv => rhs; rw [layout, if_neg hfits, if_pos rfl]
  | case5 line t ts hfits hspace hne hdrop ih =>
    intro h
    rw [hsum h] at hfits
    rw [layout, hsum h, if_neg hfits, if_neg hspace, if_pos hne, if_pos hdrop,
      ih (hleft h (List.suffix_refl _))]
    conv => rhs; rw [layout, if_neg hfits, if_neg hspace, if_pos hne, if_pos hdrop]
  | case6 line t ts hfits hspace hne hdrop ih =>
    intro h
    rw [hsum h] at hfits
    rw [layout, hsum h, if_neg hfits, if_neg hspace, if_pos hne, if_neg hdrop,
      ih (hleft h (List.suffix_refl _))]
    conv => rhs; rw [layout, if_neg hfits, if_neg hspace, if_pos hne, if_neg hdrop]
  | case7 line t ts hfits hspace hline hrest ih =>
    intro h
    rw [hsum h] at hfits
    rw [layout, hsum h, if_neg hfits, if_neg hspace, if_neg hline, if_pos hrest,
      ih (hleft h (List.suffix_append _ _))]
    conv => rhs; rw [layout, if_neg hfits, if_neg hspace, if_neg hline]
    exact (if_pos hrest).symm
  | case8 line t ts hfits hspace hline hrest ih =>
    intro h
    have htail : ((cut m.char width t).2 :: ts).flatten <:+ (t :: ts).flatten := by
      refine ⟨(cut m.char width t).1, ?_⟩
      rw [List.flatten_cons, List.flatten_cons, ← List.append_assoc, cut_append]
    rw [hsum h] at hfits
    rw [layout, hsum h, if_neg hfits, if_neg hspace, if_neg hline, if_neg hrest,
      ih (hleft h htail)]
    conv => rhs; rw [layout, if_neg hfits, if_neg hspace, if_neg hline]
    exact (if_neg hrest).symm

/-- **The lines of a segment whose columns add up** are those for the measure that adds up the
    characters. -/
theorem wrapSegment_summed {s : List Char} (h : m.AddsOn s) (width : Nat) :
    wrapSegment m width s = wrapSegment m.summed width s := by
  have hlayout := layout_summed m width [] (tokens s) (by rwa [List.nil_append, tokens_flatten])
  unfold wrapSegment
  rw [hlayout]

/-! ## 3. Display columns that add up -/

/-- A character that takes the same columns in a text as by itself, if it stands in front of others
    of its kind. -/
def steady (c : Char) : Bool :=
  step .plain c = (charColumns c, .plain)

theorem scan_of_steady {t : List Char} (h : ∀ c ∈ t, steady c = true) :
    scan t = (charSum charColumns t, .plain) := by
  induction t with
  | nil => rfl
  | cons c t ih =>
    have hc : step .plain c = (charColumns c, .plain) :=
      of_decide_eq_true (h c List.mem_cons_self)
    rw [scan_cons, ih fun x hx => h x (List.mem_cons_of_mem c hx), hc]
    rfl

theorem columns_of_steady {t : List Char} (h : ∀ c ∈ t, steady c = true) :
    columns t = charSum charColumns t := by
  rw [columns, scan_of_steady h]
  rfl

/-- **The display columns of a text add up** if its characters are steady. -/
theorem Measure.display_addsUp {t : List Char} (h : ∀ c ∈ collapse t, steady c = true) :
    Measure.display.AddsUp t where
  space := by decide
  pieces s hs piece hpiece := by
    have hsteady := segments_keeps (collapse t) h s hs
    exact columns_of_steady fun c hc => hsteady c (hpiece.subset hc)

end SequenceChart.Text
