import SequenceChart.Proofs.Setting
import SequenceChart.Proofs.Wrapping

/-!
# Wrapping a single word

A word is a text of letters that take one column each. Nothing in it asks for a break, so wrapping
keeps it whole as long as it fits, and otherwise cuts it at the width.

* `Word` says what a word is, `lowercase_word` that a text of lower-case letters is one;
* `Fits` says that a width leaves a text of so many characters whole;
* `wrap_word_eq_self_iff` says when wrapping leaves a word whole, and `wrap_word_eq_iff` when two
  widths lay it out alike: no two widths cut it at the same place.
-/

namespace SequenceChart.Text

/-! ## 1. Words -/

/-- A text on one line, without spaces and without anything that asks for a break. -/
structure Seamless (t : List Char) : Prop where
  ne_nil : t ≠ []
  no_breaking : ∀ c ∈ t, breaking c = false
  no_space : ' ' ∉ t
  no_backslash : '\\' ∉ t

/-- A word whose characters take one column each, together and alone. -/
structure Word (m : Measure) (t : List Char) : Prop extends Seamless t where
  nil : m.text [] = 0
  text : m.text t = t.length
  char : ∀ c ∈ t, m.char c = 1

/-- A width leaves a text of so many columns on one line. Width 0 does not wrap. -/
def Fits (width columns : Nat) : Prop :=
  width = 0 ∨ columns ≤ width

theorem collapseFrom_of_clean : ∀ {t : List Char}, (∀ c ∈ t, breaking c = false) →
    ∀ inRun, collapseFrom inRun t = t
  | [], _, _ => rfl
  | c :: t, h, inRun => by
      have hc : ¬ breaking c = true := by rw [h c List.mem_cons_self]; decide
      have ih := collapseFrom_of_clean (fun x hx => h x (List.mem_cons_of_mem c hx)) false
      rw [collapseFrom, if_neg hc, ih]

/-- A text that asks for no break is one segment. -/
theorem segments_of_not_break {t : List Char} (h : ¬ ['\\', 'n'] <:+: t) : segments t = [t] := by
  induction t using segments.induct with
  | case1 => rfl
  | case2 cs ih => exact absurd (List.prefix_append ['\\', 'n'] cs).isInfix h
  | case3 c cs hno ih =>
    have hrest : ¬ ['\\', 'n'] <:+: cs := fun hbreak => h (List.infix_cons hbreak)
    rw [segments, ih hrest, consHead]
    exact hno

theorem segments_of_not_mem {t : List Char} (h : '\\' ∉ t) : segments t = [t] :=
  segments_of_not_break fun hbreak => h (hbreak.subset List.mem_cons_self)

theorem tokens_of_not_mem {t : List Char} (hne : t ≠ []) (h : ' ' ∉ t) : tokens t = [t] := by
  have htokens : tokens (t ++ []) = t :: tokens [] := tokens_solid ⟨hne, h⟩ (.inl rfl)
  rw [List.append_nil] at htokens
  exact htokens

/-- A token that is not empty is set somewhere. -/
theorem layout_ne_nil (m : Measure) (width : Nat) {t : List Char} (h : t ≠ []) :
    layout m width [] [t] ≠ [] := by
  rw [layout]
  split
  · rw [layout, List.nil_append, if_neg h]
    exact List.cons_ne_nil _ _
  · split
    · exact List.cons_ne_nil _ _
    · rw [if_neg (not_not_intro rfl)]
      split <;> exact List.cons_ne_nil _ _

/-- Wrapping a text without a seam sets it as one token. -/
theorem wrap_seamless (m : Measure) {width : Nat} (hw : width ≠ 0) {t : List Char}
    (h : Seamless t) : wrap m width t = layout m width [] [t] := by
  have hcollapse : collapse t = t := collapseFrom_of_clean h.no_breaking false
  obtain ⟨line, lines, hlayout⟩ := List.exists_cons_of_ne_nil (layout_ne_nil m width h.ne_nil)
  rw [wrap, hcollapse, segments_of_not_mem h.no_backslash, List.flatMap_singleton, if_neg hw,
    wrapSegment, tokens_of_not_mem h.ne_nil h.no_space, hlayout]

/-- The end of a text without a seam has none either. -/
theorem Seamless.drop {t : List Char} (h : Seamless t) {n : Nat} (hn : n < t.length) :
    Seamless (t.drop n) where
  ne_nil := by
    rw [Ne, List.drop_eq_nil_iff]
    omega
  no_breaking c hc := h.no_breaking c (List.mem_of_mem_drop hc)
  no_space hs := h.no_space (List.mem_of_mem_drop hs)
  no_backslash hs := h.no_backslash (List.mem_of_mem_drop hs)

/-! ## 2. Cutting a word -/

theorem fill_of_one {char : Char → Nat} (limit : Nat) : ∀ {cs : List Char},
    (∀ c ∈ cs, char c = 1) → ∀ used, used ≤ limit →
    fill char limit used cs = (cs.take (limit - used), cs.drop (limit - used))
  | [], _, _, _ => by simp [fill]
  | c :: cs, h, used, hused => by
      have hc := h c List.mem_cons_self
      unfold fill
      by_cases hfull : limit < used + char c
      · have hnone : limit - used = 0 := by omega
        rw [if_pos hfull, hnone]
        rfl
      · have hmore : limit - used = limit - (used + 1) + 1 := by omega
        have ih := fill_of_one limit (fun x hx => h x (List.mem_cons_of_mem c hx)) (used + 1)
          (by omega)
        rw [if_neg hfull, hc, ih, hmore]
        rfl

theorem cut_of_one {char : Char → Nat} {limit : Nat} (hlimit : limit ≠ 0) {t : List Char}
    (h : ∀ c ∈ t, char c = 1) : cut char limit t = (t.take limit, t.drop limit) := by
  cases t with
  | nil => simp [cut]
  | cons c cs =>
    have hrest := fill_of_one limit (fun x hx => h x (List.mem_cons_of_mem c hx)) 1 (by omega)
    obtain ⟨k, rfl⟩ := Nat.exists_eq_succ_of_ne_zero hlimit
    rw [cut, h c List.mem_cons_self, hrest]
    rfl

/-! ## 3. When a word stays whole -/

variable {m : Measure} {t : List Char}

theorem wrap_word_of_fits (h : Word m t) {width : Nat} (hfits : Fits width t.length) :
    wrap m width t = [t] := by
  have hcollapse : collapse t = t := collapseFrom_of_clean h.no_breaking false
  rcases hfits with rfl | hle
  · rw [wrap, hcollapse, segments_of_not_mem h.no_backslash]
    rfl
  · have hpos := List.length_pos_iff.mpr h.ne_nil
    have hsum : m.text [] + m.text t ≤ width := by rw [h.nil, h.text]; omega
    rw [wrap_seamless m (by omega) h.toSeamless, layout, if_pos hsum, layout, List.nil_append,
      if_neg h.ne_nil]

/-- A word that is too wide is cut at the width, and its rest is wrapped for itself. -/
theorem wrap_word_of_not_fits (h : Word m t) {width : Nat} (hfits : ¬ Fits width t.length) :
    wrap m width t = t.take width :: wrap m width (t.drop width) := by
  have hw : width ≠ 0 := fun e => hfits (.inl e)
  have hlt : width < t.length := Nat.lt_of_not_le fun hle => hfits (.inr hle)
  have hsum : ¬ m.text [] + m.text t ≤ width := by rw [h.nil, h.text]; omega
  have hspace : t ≠ [' '] := fun e => h.no_space (e ▸ List.mem_cons_self)
  have hrest := h.toSeamless.drop hlt
  rw [wrap_seamless m hw h.toSeamless, wrap_seamless m hw hrest, layout, if_neg hsum,
    if_neg hspace, if_neg (not_not_intro rfl), cut_of_one hw h.char, if_neg hrest.ne_nil]

/-- **A word stays whole exactly when it fits.** -/
theorem wrap_word_eq_self_iff (h : Word m t) (width : Nat) :
    wrap m width t = [t] ↔ Fits width t.length := by
  refine ⟨fun hwhole => ?_, wrap_word_of_fits h⟩
  refine Classical.byContradiction fun hfits => ?_
  rw [wrap_word_of_not_fits h hfits] at hwhole
  exact wrap_ne_nil m width _ (List.cons.inj hwhole).2

/-- **Two widths lay a word out alike** only if they are the same or both leave it whole. -/
theorem wrap_word_eq_iff (h : Word m t) (width other : Nat) :
    wrap m width t = wrap m other t ↔
      width = other ∨ (Fits width t.length ∧ Fits other t.length) := by
  constructor
  · intro hsame
    by_cases hfits : Fits width t.length
    · rw [wrap_word_of_fits h hfits] at hsame
      exact .inr ⟨hfits, (wrap_word_eq_self_iff h other).mp hsame.symm⟩
    · have hother : ¬ Fits other t.length := by
        intro hfits'
        rw [wrap_word_of_fits h hfits'] at hsame
        exact hfits ((wrap_word_eq_self_iff h width).mp hsame)
      rw [wrap_word_of_not_fits h hfits, wrap_word_of_not_fits h hother] at hsame
      have hlength := congrArg List.length (List.cons.inj hsame).1
      have hlt : width < t.length := Nat.lt_of_not_le fun hle => hfits (.inr hle)
      have hlt' : other < t.length := Nat.lt_of_not_le fun hle => hother (.inr hle)
      rw [List.length_take, List.length_take] at hlength
      omega
  · rintro (rfl | ⟨hfits, hfits'⟩)
    · rfl
    · rw [wrap_word_of_fits h hfits, wrap_word_of_fits h hfits']

/-! ## 4. Lower-case letters -/

theorem toNat_of_isLower {c : Char} (h : c.isLower = true) : 97 ≤ c.toNat ∧ c.toNat ≤ 122 := by
  unfold Char.isLower at h
  simp only [Bool.and_eq_true, decide_eq_true_eq] at h
  exact ⟨h.1, h.2⟩

/-- A lower-case letter takes one column, alone and behind other such letters. -/
theorem step_plain_of_isLower {c : Char} (h : c.isLower = true) : step .plain c = (1, .plain) := by
  have hrange := toNat_of_isLower h
  have hr : ¬ c = '\r' := by rintro rfl; simp at hrange
  have hn : ¬ c = '\n' := by rintro rfl; simp at hrange
  have hle : c.toNat ≤ 0xA0 := by omega
  show stepUnselected .plain c = _
  unfold stepUnselected
  rw [if_pos hle]
  simp [hr, hn, Behind.waiting]

theorem scan_of_isLower : ∀ {t : List Char}, (∀ c ∈ t, c.isLower = true) →
    scan t = (t.length, .plain)
  | [], _ => rfl
  | c :: t, h => by
      have ih := scan_of_isLower fun x hx => h x (List.mem_cons_of_mem c hx)
      have hc := step_plain_of_isLower (h c List.mem_cons_self)
      show ((step (scan t).2 c).1 + (scan t).1, (step (scan t).2 c).2) = _
      rw [ih, hc, List.length_cons, Nat.add_comm]

theorem charColumns_of_isLower {c : Char} (h : c.isLower = true) : charColumns c = 1 := by
  have hrange := toNat_of_isLower h
  unfold charColumns
  rw [if_neg (by simp; omega), if_pos (by omega)]

/-- **A text of lower-case letters is a word** of as many columns as letters. -/
theorem lowercase_word {t : List Char} (hne : t ≠ []) (hall : t.all Char.isLower = true) :
    Word Measure.display t := by
  have h : ∀ c ∈ t, c.isLower = true := List.all_eq_true.mp hall
  refine ⟨⟨hne, fun c hc => ?_, fun hs => ?_, fun hs => ?_⟩, rfl, ?_, fun c hc => ?_⟩
  · have hlower := h c hc
    by_cases hb : breaking c = true
    · unfold breaking at hb
      simp only [Bool.or_eq_true, decide_eq_true_eq] at hb
      rcases hb with (rfl | rfl) | rfl <;> exact absurd hlower (by decide)
    · simpa using hb
  · exact absurd (h ' ' hs) (by decide)
  · exact absurd (h '\\' hs) (by decide)
  · show columns t = t.length
    rw [columns, scan_of_isLower h]
    rfl
  · exact charColumns_of_isLower (h c hc)

end SequenceChart.Text
