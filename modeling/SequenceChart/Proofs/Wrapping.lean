import SequenceChart.Text.Wrap

/-!
# What stands on a wrapped line

Wrapping moves characters and makes none up: whatever holds of the collapsed text, character by
character, holds of every line (`wrap_keeps`). The collapsed text has no line end, so no line has
one (`wrap_clean`), and there is always a line (`wrap_ne_nil`).
-/

namespace SequenceChart.Text

/-! ## 1. The collapsed text -/

theorem collapseFrom_clean : ∀ (inRun : Bool) (t : List Char), ∀ c ∈ collapseFrom inRun t,
    breaking c = false
  | _, [], _, hc => by cases hc
  | inRun, d :: t, c, hc => by
      have ih := fun b => collapseFrom_clean b t c
      unfold collapseFrom at hc
      by_cases hd : breaking d = true
      · rw [if_pos hd] at hc
        split at hc
        · exact ih true hc
        · rcases List.mem_cons.mp hc with rfl | hc
          · decide
          · exact ih true hc
      · rw [if_neg hd] at hc
        rcases List.mem_cons.mp hc with rfl | hc
        · simpa using hd
        · exact ih false hc

/-! ## 2. Pieces of a text -/

variable {P : Char → Prop}

theorem consHead_keeps {c : Char} (hc : P c) : ∀ {ss : List (List Char)},
    (∀ s ∈ ss, ∀ x ∈ s, P x) → ∀ s ∈ consHead c ss, ∀ x ∈ s, P x
  | [], _, s, hs, x, hx => by
      rw [consHead, List.mem_singleton] at hs
      rw [hs, List.mem_singleton] at hx
      exact hx ▸ hc
  | t :: ss, h, s, hs, x, hx => by
      rcases List.mem_cons.mp hs with rfl | hs
      · rcases List.mem_cons.mp hx with rfl | hx
        · exact hc
        · exact h t List.mem_cons_self x hx
      · exact h s (List.mem_cons_of_mem t hs) x hx

theorem segments_keeps (t : List Char) : (∀ x ∈ t, P x) → ∀ s ∈ segments t, ∀ x ∈ s, P x := by
  induction t using segments.induct with
  | case1 =>
    intro _ s hs x hx
    rw [segments, List.mem_singleton] at hs
    rw [hs] at hx
    cases hx
  | case2 cs ih =>
    intro h s hs x hx
    rw [segments] at hs
    rcases List.mem_cons.mp hs with rfl | hs
    · cases hx
    · exact ih (fun y hy => h y (List.mem_cons_of_mem _ (List.mem_cons_of_mem _ hy))) s hs x hx
  | case3 c cs hno ih =>
    intro h
    rw [segments]
    · exact consHead_keeps (h c List.mem_cons_self)
        (ih fun y hy => h y (List.mem_cons_of_mem c hy))
    · exact hno

theorem segments_ne_nil (t : List Char) : segments t ≠ [] := by
  unfold segments
  split
  · exact List.cons_ne_nil _ _
  · exact List.cons_ne_nil _ _
  · unfold consHead
    split <;> exact List.cons_ne_nil _ _

theorem consWord_keeps {c : Char} (hc : P c) : ∀ {ts : List (List Char)},
    (∀ t ∈ ts, ∀ x ∈ t, P x) → ∀ t ∈ consWord c ts, ∀ x ∈ t, P x
  | [], _, t, ht, x, hx => by
      rw [consWord, List.mem_singleton] at ht
      rw [ht, List.mem_singleton] at hx
      exact hx ▸ hc
  | u :: ts, h, t, ht, x, hx => by
      rw [consWord] at ht
      split at ht
      · rcases List.mem_cons.mp ht with rfl | ht
        · rw [List.mem_singleton] at hx
          exact hx ▸ hc
        · exact h t ht x hx
      · rcases List.mem_cons.mp ht with rfl | ht
        · rcases List.mem_cons.mp hx with rfl | hx
          · exact hc
          · exact h u List.mem_cons_self x hx
        · exact h t (List.mem_cons_of_mem u ht) x hx

theorem tokens_keeps : ∀ {s : List Char}, (∀ x ∈ s, P x) → ∀ t ∈ tokens s, ∀ x ∈ t, P x
  | [], _, t, ht, _, _ => by cases ht
  | c :: s, h, t, ht, x, hx => by
      have ih := tokens_keeps fun y hy => h y (List.mem_cons_of_mem c hy)
      unfold tokens at ht
      split at ht
      · rename_i hspace
        rcases List.mem_cons.mp ht with rfl | ht
        · rw [List.mem_singleton] at hx
          exact hx ▸ hspace ▸ h c List.mem_cons_self
        · exact ih t ht x hx
      · exact consWord_keeps (h c List.mem_cons_self) ih t ht x hx

/-! ## 3. Lines -/

theorem dropLastSpace_keeps {line : List Char} (h : ∀ x ∈ line, P x) :
    ∀ x ∈ dropLastSpace line, P x := by
  intro x hx
  unfold dropLastSpace at hx
  split at hx
  · exact h x (List.dropLast_subset line hx)
  · exact h x hx

/-- The two pieces of a word that is cut are made of its characters. -/
theorem cut_keeps (char : Char → Nat) (limit : Nat) {w : List Char} (h : ∀ x ∈ w, P x) :
    (∀ x ∈ (cut char limit w).1, P x) ∧ ∀ x ∈ (cut char limit w).2, P x := by
  rw [← cut_append char limit w] at h
  exact ⟨fun x hx => h x (List.mem_append_left _ hx), fun x hx => h x (List.mem_append_right _ hx)⟩

/-- **Lines are made of the characters of the tokens** and of what the first line held already. -/
theorem layout_keeps (m : Measure) (width : Nat) (line : List Char) (ts : List (List Char)) :
    (∀ x ∈ line, P x) → (∀ t ∈ ts, ∀ x ∈ t, P x) →
    ∀ l ∈ layout m width line ts, ∀ x ∈ l, P x := by
  have hnone : ∀ x ∈ ([] : List Char), P x := fun x hx => absurd hx List.not_mem_nil
  induction line, ts using layout.induct m width with
  | case1 =>
    intro _ _ l hl
    rw [layout, if_pos rfl] at hl
    cases hl
  | case2 line hne =>
    intro hline _ l hl
    rw [layout, if_neg hne, List.mem_singleton] at hl
    exact hl ▸ hline
  | case3 line t ts hfits ih =>
    intro hline hts l hl
    rw [layout, if_pos hfits] at hl
    refine ih (fun x hx => ?_) (fun u hu => hts u (List.mem_cons_of_mem t hu)) l hl
    rcases List.mem_append.mp hx with hx | hx
    · exact hline x hx
    · exact hts t List.mem_cons_self x hx
  | case4 line ts hfits ih =>
    intro hline hts l hl
    rw [layout, if_neg hfits, if_pos rfl] at hl
    rcases List.mem_cons.mp hl with rfl | hl
    · exact hline
    · exact ih hnone (fun u hu => hts u (List.mem_cons_of_mem _ hu)) l hl
  | case5 line t ts hfits hspace hne hdrop ih =>
    intro _ hts l hl
    rw [layout, if_neg hfits, if_neg hspace, if_pos hne, if_pos hdrop] at hl
    exact ih hnone hts l hl
  | case6 line t ts hfits hspace hne hdrop ih =>
    intro hline hts l hl
    rw [layout, if_neg hfits, if_neg hspace, if_pos hne, if_neg hdrop] at hl
    rcases List.mem_cons.mp hl with rfl | hl
    · exact dropLastSpace_keeps hline
    · exact ih hnone hts l hl
  | case7 line t ts hfits hspace hempty hrest ih =>
    intro _ hts l hl
    have hcut := cut_keeps m.char width (hts t List.mem_cons_self)
    rw [layout, if_neg hfits, if_neg hspace, if_neg hempty, if_pos hrest] at hl
    rcases List.mem_cons.mp hl with rfl | hl
    · exact hcut.1
    · exact ih hnone (fun u hu => hts u (List.mem_cons_of_mem t hu)) l hl
  | case8 line t ts hfits hspace hempty hrest ih =>
    intro _ hts l hl
    have hcut := cut_keeps m.char width (hts t List.mem_cons_self)
    rw [layout, if_neg hfits, if_neg hspace, if_neg hempty, if_neg hrest] at hl
    rcases List.mem_cons.mp hl with rfl | hl
    · exact hcut.1
    · refine ih hnone (fun u hu => ?_) l hl
      rcases List.mem_cons.mp hu with rfl | hu
      · exact hcut.2
      · exact hts u (List.mem_cons_of_mem t hu)

theorem wrapSegment_keeps (m : Measure) (width : Nat) {s : List Char} (h : ∀ x ∈ s, P x) :
    ∀ l ∈ wrapSegment m width s, ∀ x ∈ l, P x := by
  have hlines := layout_keeps m width [] (tokens s) (fun x hx => absurd hx List.not_mem_nil)
    (tokens_keeps h)
  intro l hl x hx
  unfold wrapSegment at hl
  split at hl
  · rw [List.mem_singleton] at hl
    rw [hl] at hx
    cases hx
  · exact hlines l hl x hx

theorem wrapSegment_ne_nil (m : Measure) (width : Nat) (s : List Char) :
    wrapSegment m width s ≠ [] := by
  unfold wrapSegment
  split
  · exact List.cons_ne_nil _ _
  · assumption

/-! ## 4. Whole texts -/

/-- **Every line is made of characters of the collapsed text.** -/
theorem wrap_keeps (m : Measure) (width : Nat) {t : List Char} (h : ∀ x ∈ collapse t, P x) :
    ∀ l ∈ wrap m width t, ∀ x ∈ l, P x := by
  intro l hl
  obtain ⟨s, hs, hl⟩ := List.mem_flatMap.mp hl
  have hsegment := segments_keeps (collapse t) h s hs
  split at hl
  · rw [List.mem_singleton] at hl
    exact hl ▸ hsegment
  · exact wrapSegment_keeps m width hsegment l hl

/-- No line holds a tab or a line end. -/
theorem wrap_clean (m : Measure) (width : Nat) (t : List Char) :
    ∀ l ∈ wrap m width t, ∀ c ∈ l, breaking c = false :=
  wrap_keeps m width (collapseFrom_clean false t)

/-- There is always a line. -/
theorem wrap_ne_nil (m : Measure) (width : Nat) (t : List Char) : wrap m width t ≠ [] := by
  intro h
  obtain ⟨s, ss, hs⟩ := List.exists_cons_of_ne_nil (segments_ne_nil (collapse t))
  unfold wrap at h
  rw [hs, List.flatMap_cons, List.append_eq_nil_iff] at h
  have hfirst := h.1
  split at hfirst
  · cases hfirst
  · exact wrapSegment_ne_nil m width s hfirst

end SequenceChart.Text
