import SequenceChart.Proofs.Lines
import SequenceChart.Proofs.Wrapping

/-!
# Wrapped lines hold the text

Wrapping drops spaces and nothing else, and keeps all other characters in their order.

* `intercalate_segments` and `not_break_of_mem_segments` say what the segments of a text are: joined
  by the two characters that ask for a line break they are the text, and none of them asks for one;
* `exists_stretches` takes a segment apart into its lines and the spaces around them;
* `filter_lines` says that the spaces are all that is missing from the lines.
-/

namespace SequenceChart.Text

/-! ## 1. Segments -/

theorem intercalate_consHead (sep : List Char) (c : Char) {ss : List (List Char)} (hss : ss ≠ []) :
    sep.intercalate (consHead c ss) = c :: sep.intercalate ss := by
  obtain ⟨s, ss, rfl⟩ := List.exists_cons_of_ne_nil hss
  rw [consHead]
  cases ss with
  | nil => rw [List.intercalate_singleton, List.intercalate_singleton]
  | cons r ss =>
    rw [List.intercalate_cons_cons, List.intercalate_cons_cons]
    rfl

/-- The segments with the breaks between them are the text. -/
theorem intercalate_segments (t : List Char) : ['\\', 'n'].intercalate (segments t) = t := by
  induction t using segments.induct with
  | case1 => exact List.intercalate_singleton
  | case2 cs ih =>
    rw [segments, List.intercalate_cons_of_ne_nil (segments_ne_nil cs), ih]
    rfl
  | case3 c cs hno ih =>
    rw [segments, intercalate_consHead _ c (segments_ne_nil cs), ih]
    exact hno

/-- The first segment stands at the beginning of the text. -/
theorem begins_with_head_segment {t s : List Char} {ss : List (List Char)}
    (h : segments t = s :: ss) : s <+: t := by
  have hall := intercalate_segments t
  rw [h] at hall
  cases ss with
  | nil =>
    rw [List.intercalate_singleton] at hall
    exact hall ▸ List.prefix_refl s
  | cons r ss =>
    rw [List.intercalate_cons_cons, List.append_assoc] at hall
    exact ⟨_, hall⟩

/-- No segment asks for a break. -/
theorem not_break_of_mem_segments (t : List Char) :
    ∀ s ∈ segments t, ¬ ['\\', 'n'] <:+: s := by
  have hnone : ¬ ['\\', 'n'] <:+: [] := fun h => absurd (List.infix_nil.mp h) (by decide)
  induction t using segments.induct with
  | case1 =>
    intro s hs
    rw [segments, List.mem_singleton] at hs
    exact hs ▸ hnone
  | case2 cs ih =>
    intro s hs
    rw [segments] at hs
    rcases List.mem_cons.mp hs with rfl | hs
    · exact hnone
    · exact ih s hs
  | case3 c cs hno ih =>
    intro s hs
    obtain ⟨r, ss, hsegments⟩ := List.exists_cons_of_ne_nil (segments_ne_nil cs)
    rw [segments, hsegments, consHead] at hs
    · rw [hsegments] at ih
      rcases List.mem_cons.mp hs with rfl | hs
      · -- a break at the front would be one of the text
        intro hbreak
        rcases List.infix_cons_iff.mp hbreak with hfront | hbreak
        · obtain ⟨hc, hnext⟩ := List.cons_prefix_cons.mp hfront
          obtain ⟨after, hafter⟩ := hnext.trans (begins_with_head_segment hsegments)
          exact hno after hc.symm hafter.symm
        · exact ih r List.mem_cons_self hbreak
      · exact ih s (List.mem_cons_of_mem r hs)
    · exact hno

/-! ## 2. The lines of one segment -/

/-- The lines of a segment, which stays on one line at width 0. -/
def segmentLines (m : Measure) (width : Nat) (s : List Char) : List (List Char) :=
  if width = 0 then [s] else wrapSegment m width s

/-- The stretches drop at most one space on each side of a line, and none at width 0. -/
def DropsFew (width : Nat) (ps : List Stretch) : Prop :=
  ∀ p ∈ ps, p.before ≤ 1 ∧ p.behind ≤ 1 ∧ (width = 0 → p.before = 0 ∧ p.behind = 0)

variable {m : Measure}

/-- One line that takes up all of the text. -/
theorem spanned_whole (s : List Char) : spanned [⟨0, s, 0⟩] = s := by
  simp [Stretch.text]

theorem exists_stretches (hm : m.Sane) (width : Nat) (s : List Char) :
    ∃ ps, ps.map Stretch.line = segmentLines m width s ∧ spanned ps = s ∧ ps ≠ [] ∧
      DropsFew width ps := by
  have hone : DropsFew width [⟨0, s, 0⟩] := by
    intro p hp
    rw [List.mem_singleton] at hp
    subst hp
    exact ⟨Nat.zero_le 1, Nat.zero_le 1, fun _ => ⟨rfl, rfl⟩⟩
  unfold segmentLines
  by_cases hwidth : width = 0
  · rw [if_pos hwidth]
    exact ⟨[⟨0, s, 0⟩], rfl, spanned_whole s, List.cons_ne_nil _ _, hone⟩
  · rw [if_neg hwidth]
    by_cases hs : s = []
    · subst hs
      rw [wrapSegment_nil]
      exact ⟨[⟨0, [], 0⟩], rfl, rfl, List.cons_ne_nil _ _, hone⟩
    · obtain ⟨ps, hps, hlines⟩ := wrapSegment_lines hm (Nat.one_le_iff_ne_zero.mpr hwidth) hs
      refine ⟨ps, hlines, hps.spanned_eq, ?_, fun p hp => ?_⟩
      · rintro rfl
        exact hs hps.spanned_eq.symm
      · have hfew := hps.forall (fun h => h.dropped_le) p hp
        exact ⟨hfew.1, hfew.2, fun h => absurd h hwidth⟩

theorem filter_text (p : Stretch) : p.text.filter (· ≠ ' ') = p.line.filter (· ≠ ' ') := by
  have hnone : ∀ n : Nat, (List.replicate n ' ').filter (· ≠ ' ') = [] := fun n =>
    List.filter_eq_nil_iff.mpr fun c hc => by simpa using List.eq_of_mem_replicate hc
  unfold Stretch.text
  rw [List.filter_append, List.filter_append, hnone, hnone, List.nil_append, List.append_nil]

/-- But for spaces the lines hold what the stretches take up. -/
theorem filter_lines (ps : List Stretch) :
    (ps.map Stretch.line).flatten.filter (· ≠ ' ') = (spanned ps).filter (· ≠ ' ') := by
  induction ps with
  | nil => rfl
  | cons p ps ih =>
    rw [List.map_cons, List.flatten_cons, List.filter_append, ih, spanned_cons, List.filter_append,
      filter_text]

theorem filter_groups (groups : List (List Stretch)) :
    (groups.flatMap (List.map Stretch.line)).flatten.filter (· ≠ ' ') =
      (groups.map spanned).flatten.filter (· ≠ ' ') := by
  induction groups with
  | nil => rfl
  | cons ps groups ih =>
    rw [List.flatMap_cons, List.flatten_append, List.filter_append, ih, filter_lines, List.map_cons,
      List.flatten_cons, List.filter_append]

/-! ## 3. Whole texts -/

theorem wrap_eq_segmentLines (m : Measure) (width : Nat) (t : List Char) :
    wrap m width t = (segments (collapse t)).flatMap (segmentLines m width) :=
  rfl

/-- **Wrapping loses, doubles and moves nothing.** The segments of a text are what stands between
    the breaks that it asks for. Each of them has its own lines, one group after the other, and is
    made up of these lines in their order and of spaces: not more than one is dropped on each side
    of a line, and none at width 0. Without their spaces lines and segments are the same
    characters. Of the width functions it is only assumed that the empty text takes no column and a
    space takes one. -/
theorem content_kept (hm : m.Sane) (width : Nat) (t : List Char) :
    ['\\', 'n'].intercalate (segments (collapse t)) = collapse t ∧
    (∀ s ∈ segments (collapse t), ¬ ['\\', 'n'] <:+: s) ∧
    (∃ groups : List (List Stretch),
      wrap m width t = groups.flatMap (List.map Stretch.line) ∧
      groups.map spanned = segments (collapse t) ∧
      ∀ ps ∈ groups, ps ≠ [] ∧ DropsFew width ps) ∧
    (wrap m width t).flatten.filter (· ≠ ' ') =
      (segments (collapse t)).flatten.filter (· ≠ ' ') := by
  obtain ⟨stretches, hstretches⟩ := Classical.skolem.mp (exists_stretches hm width)
  have hlines : wrap m width t =
      ((segments (collapse t)).map stretches).flatMap (List.map Stretch.line) := by
    rw [wrap_eq_segmentLines, List.flatMap_map]
    exact congrArg (List.flatMap · _) (funext fun s => (hstretches s).1.symm)
  have hspanned : ((segments (collapse t)).map stretches).map spanned = segments (collapse t) := by
    rw [List.map_map]
    exact (List.map_congr_left fun s _ => (hstretches s).2.1).trans (List.map_id _)
  refine ⟨intercalate_segments _, not_break_of_mem_segments _,
    ⟨_, hlines, hspanned, fun ps hps => ?_⟩, ?_⟩
  · obtain ⟨s, _, rfl⟩ := List.mem_map.mp hps
    exact (hstretches s).2.2
  · rw [hlines, filter_groups, hspanned]

/-- A word that is wider than the lines, two spaces in a row, and a break. -/
theorem content_kept_cut :
    let t := "ab  日本語\\n c".toList
    Measure.display.Sane ∧
      (∃ groups : List (List Stretch),
        wrap .display 3 t = groups.flatMap (List.map Stretch.line) ∧
        groups.map spanned = ["ab  日本語".toList, " c".toList] ∧
        ∀ ps ∈ groups, ps ≠ [] ∧ DropsFew 3 ps) ∧
      (wrap .display 3 t).flatten.filter (· ≠ ' ') = "ab日本語c".toList := by
  intro t
  have hm := Measure.display_sane
  have hsegments : segments (collapse t) = ["ab  日本語".toList, " c".toList] := by decide
  obtain ⟨_, _, hgroups, hcharacters⟩ := content_kept hm 3 t
  rw [hsegments] at hgroups hcharacters
  exact ⟨hm, hgroups, hcharacters⟩

end SequenceChart.Text
