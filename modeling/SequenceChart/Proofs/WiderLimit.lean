import SequenceChart.Proofs.Greedy

/-!
# Wider lines are no more lines

A text is wrapped twice, at a narrow and at a wide width, and its columns add up. The two runs break
the text at different places, and one may be in the middle of a word that the other kept whole. But
the wide run stays ahead: if it begins a line no later than the narrow run does, it begins the next
line no later either.

* `FirstLine.reaches` and `FirstLine.reaches_in_word` say how far a line goes: past every beginning
  of the text for which there is place;
* `FirstLine.ends_by_space` says where a line ends that begins with a word as wide as itself;
* `FirstLine.stays_ahead` compares one line of both runs, and `Lines.length_le` follows by induction
  on the lines of the narrow run. `wider_no_longer` says it of whole texts.
-/

namespace SequenceChart.Text

variable {m : Measure} {width : Nat}

/-! ## 1. Beginnings and ends of a text -/

/-- A beginning of a text goes past one of its characters, or the character still comes, with what
    follows it. -/
theorem append_cases {l b line after : List Char} {c : Char} (h : l ++ b = line ++ c :: after) :
    after <:+ b.tail ∨ ∃ d, l = line ++ c :: d ∧ after = d ++ b := by
  rcases List.append_eq_append_iff.mp h with ⟨d, rfl, rfl⟩ | ⟨d, rfl, hd⟩
  · cases d with
    | nil => exact .inl (List.suffix_refl after)
    | cons x d => exact .inl ((List.suffix_cons c after).trans (List.suffix_append d _))
  · cases d with
    | nil =>
      refine .inl ?_
      rw [List.nil_append] at hd
      rw [← hd]
      exact List.suffix_refl _
    | cons x d =>
      obtain ⟨rfl, hafter⟩ := List.cons.inj hd
      exact .inr ⟨d, rfl, hafter⟩

/-- An end of a text is an end of the rest of it, or the rest behind an end of what comes first. -/
theorem suffix_append_cases {y a b : List Char} (h : y <:+ a ++ b) :
    y <:+ b ∨ ∃ u, u <:+ a ∧ u ≠ [] ∧ y = u ++ b := by
  obtain ⟨d, hd⟩ := h
  rcases List.append_eq_append_iff.mp hd with ⟨u, rfl, rfl⟩ | ⟨c, _, rfl⟩
  · by_cases hu : u = []
    · rw [hu]
      exact .inl (List.suffix_refl b)
    · exact .inr ⟨u, List.suffix_append d u, hu, rfl⟩
  · exact .inl (List.suffix_append c y)

/-! ## 2. How far a line goes -/

/-- **A line goes past each beginning of the text for which there is place**, if a space follows it
    or nothing. -/
theorem FirstLine.reaches (hm : m.Additive) {text next l b : List Char} {p : Stretch}
    (h : FirstLine m width text p next) (htext : l ++ b = text) (hb : BeginsApart b)
    (hfits : m.text l ≤ width) : next <:+ b.tail := by
  -- the beginning does not go past the place where the line is full
  have hstops : ∀ {piece after : List Char}, width < m.text piece → l ≠ piece ++ after := by
    rintro piece after hfull rfl
    rw [hm.append] at hfits
    omega
  cases h with
  | whole => exact List.nil_suffix
  | @atSpace line rest hne hline hfull =>
    rcases append_cases htext with hrest | ⟨d, hl, _⟩
    · exact hrest
    · rw [List.append_cons] at hl
      rw [← hm.sane.space, ← hm.append] at hfull
      exact absurd hl (hstops hfull)
  | @atWord line w rest hne hline hw hrest hfull =>
    rcases append_cases htext with hrest | ⟨d, hl, hd⟩
    · exact hrest
    · obtain ⟨c, rfl, _⟩ := hw.begins hb hd.symm
      rw [List.append_cons, ← List.append_assoc] at hl
      rw [← hm.append] at hfull
      exact absurd hl (hstops hfull)
  | @cutWord w rest hw hrest hwide =>
    obtain ⟨c, hl, _⟩ := hw.begins hb htext
    exact absurd hl (hstops hwide)
  | @behindSpace w rest next p hw hrest hfull hnext =>
    have hstart : l ++ b = [] ++ ' ' :: (w ++ rest) := htext
    rcases append_cases hstart with hafter | ⟨d, hl, hd⟩
    · exact hnext.next_suffix.trans hafter
    · obtain ⟨c, rfl, _⟩ := hw.begins hb hd.symm
      have hspace : l = ([' '] ++ w) ++ c := hl
      rw [← hm.sane.space, ← hm.append] at hfull
      exact absurd hspace (hstops hfull)

/-- **A line goes past each beginning of its first word for which there is place**, and past its
    first character. -/
theorem FirstLine.reaches_in_word (hm : m.Additive) {u z next : List Char} {p : Stretch}
    (h : FirstLine m width (u ++ z) p next) (hu : Solid u) (hfits : Within m width u) :
    next <:+ z := by
  generalize htext : u ++ z = text at h
  cases h with
  | whole => exact List.nil_suffix
  | @atSpace line rest hne hline hfull =>
    obtain ⟨c, rfl, rfl⟩ := hu.begins (beginsApart_space _) htext.symm
    exact (List.suffix_cons ' ' _).trans (List.suffix_append c _)
  | @atWord line w rest hne hline hw hrest hfull =>
    obtain ⟨c, rfl, rfl⟩ := hu.begins (beginsApart_space _) htext.symm
    exact (List.suffix_cons ' ' _).trans (List.suffix_append c _)
  | @cutWord w rest hw hrest hwide =>
    obtain ⟨c, rfl, rfl⟩ := hu.begins hrest htext.symm
    unfold Within at hfits
    rw [hm.adds] at hfits
    have hlength := cut_fst_longest (List.prefix_append u c) hfits
    have hcut := cut_append m.char width (u ++ c)
    have hleft : (cut m.char width (u ++ c)).2 <:+ c := by
      refine List.suffix_of_suffix_length_le ⟨_, hcut⟩ (List.suffix_append u c) ?_
      have hsum := congrArg List.length hcut
      rw [List.length_append, List.length_append] at hsum
      omega
    obtain ⟨d, hd⟩ := hleft
    exact ⟨d, by rw [← List.append_assoc, hd]⟩
  | @behindSpace w rest next p hw hrest hfull hnext =>
    exact absurd (htext ▸ beginsApart_space _) (hu.not_beginsApart z)

/-- **A line that begins with a word ends by the next space**, if there is no place for the word and
    a space. -/
theorem FirstLine.ends_by_space (hm : m.Additive) {w rest next : List Char} {p : Stretch}
    (h : FirstLine m width (w ++ rest) p next) (hw : Solid w) (hrest : BeginsApart rest)
    (hfull : width < 1 + m.text w) : rest.tail <:+ next := by
  -- a line that was filled does not go past the word
  have hends : ∀ {line c : List Char}, Filled m width line → line = w ++ c → BeginsApart c →
      c = [] := by
    rintro line c hline rfl hc
    refine hc.resolve_right ?_
    rintro ⟨after, rfl⟩
    have hle := hline.le hm
    rw [hm.append_space] at hle
    omega
  generalize htext : w ++ rest = text at h
  cases h with
  | whole hne hline =>
    rw [hends hline htext.symm hrest]
    exact List.suffix_refl []
  | @atSpace line after hne hline =>
    obtain ⟨c, hc, rfl⟩ := hw.begins (beginsApart_space _) htext.symm
    rw [hends hline hc hrest.left]
    exact List.suffix_refl _
  | @atWord line w' after hne hline hw' hafter =>
    obtain ⟨c, hc, rfl⟩ := hw.begins (beginsApart_space _) htext.symm
    rw [hends hline hc hrest.left]
    exact List.suffix_refl _
  | @cutWord w' after hw' hafter =>
    obtain ⟨c, rfl, rfl⟩ := hw.begins hafter htext.symm
    have hc : c = [] := hrest.left.eq_nil fun hspace =>
      hw'.no_space (List.mem_append_right w hspace)
    rw [hc]
    exact (List.tail_suffix after).trans (List.suffix_append _ _)
  | behindSpace => exact absurd (htext ▸ beginsApart_space _) (hw.not_beginsApart rest)

/-! ## 3. Two runs -/

/-- A line that begins with a space in front of a word that has no place behind it is that of the
    word. -/
theorem FirstLine.behind_space (hm : m.Additive) {w rest next : List Char} {p : Stretch}
    (h : FirstLine m width (' ' :: (w ++ rest)) p next) (hw : Solid w)
    (hfull : width < 1 + m.text w) : ∃ q, FirstLine m width (w ++ rest) q next := by
  -- a line that was filled does not begin with the space and the word
  have hnone : ∀ {line c : List Char}, Filled m width line → line ≠ ' ' :: (w ++ c) := by
    rintro line c hline rfl
    have hle := hline.le hm
    rw [← List.cons_append, hm.append, ← List.singleton_append, hm.append, hm.sane.space] at hle
    omega
  have hbefore : ∀ {line after : List Char}, Filled m width line → line ≠ [] →
      ' ' :: (w ++ rest) ≠ line ++ ' ' :: after := by
    intro line after hline hne hspace
    obtain ⟨x, line, rfl⟩ := List.exists_cons_of_ne_nil hne
    obtain ⟨rfl, hword⟩ := List.cons.inj hspace
    obtain ⟨c, rfl, _⟩ := hw.begins (beginsApart_space after) hword.symm
    exact hnone hline rfl
  generalize htext : ' ' :: (w ++ rest) = text at h
  cases h with
  | whole hne hline => exact absurd htext.symm (hnone hline)
  | atSpace hne hline => exact absurd htext (hbefore hline hne)
  | atWord hne hline => exact absurd htext (hbefore hline hne)
  | @cutWord w' after hw' hafter =>
    exact absurd (htext ▸ beginsApart_space _) (hw'.not_beginsApart after)
  | @behindSpace w' after next p hw' hafter hfull hnext =>
    obtain ⟨_, hsame⟩ := List.cons.inj htext
    exact ⟨p, hsame ▸ hnext⟩

variable {narrow wide : Nat}

/-- The wide line goes past the space that ends the narrow one. -/
theorem FirstLine.passes_space (hm : m.Additive) (hle : narrow ≤ wide)
    {line after y next : List Char} {q : Stretch} (hline : Filled m narrow line)
    (hy : FirstLine m wide y q next) (hyx : y <:+ line ++ ' ' :: after) : next <:+ after := by
  rw [List.append_cons] at hyx
  rcases suffix_append_cases hyx with hafter | ⟨u, hu, hne, rfl⟩
  · exact hy.next_suffix.trans hafter
  · obtain ⟨l, rfl, hl⟩ := (List.suffix_concat_iff.mp hu).resolve_left hne
    have hfits := Nat.le_trans (hm.le_of_infix hl.isInfix) (hline.le hm)
    exact hy.reaches hm (List.append_cons l ' ' after) (beginsApart_space after)
      (Nat.le_trans hfits hle)

/-- The wide line goes past what the narrow run cuts off a word. -/
theorem FirstLine.passes_cut (hm : m.Additive) (hle : narrow ≤ wide) {w after y next : List Char}
    {q : Stretch} (hw : Solid w) (hy : FirstLine m wide y q next)
    (hyx : y <:+ (cut m.char narrow w).1 ++ after) : next <:+ after := by
  rcases suffix_append_cases hyx with hafter | ⟨u, hu, hne, rfl⟩
  · exact hy.next_suffix.trans hafter
  · have hsolid : Solid u := by
      refine ⟨hne, fun hspace => hw.no_space ?_⟩
      rw [← cut_append m.char narrow w]
      exact List.mem_append_left _ (hu.subset hspace)
    have hfits : Within m wide u := by
      rcases hm.within_cut narrow w with hcut | ⟨c, hc⟩
      · exact .inl (Nat.le_trans (hm.le_of_infix hu.isInfix) (Nat.le_trans hcut hle))
      · rw [hc] at hu
        have hsingle := (List.suffix_cons_iff.mp hu).resolve_right fun hnil =>
          hne (List.suffix_nil.mp hnil)
        exact .inr ⟨c, hsingle⟩
    exact hy.reaches_in_word hm hsolid hfits

/-- **The wide run stays ahead**: it begins the next line no later than the narrow run, if it began
    this one no later. -/
theorem FirstLine.stays_ahead (hm : m.Additive) (hle : narrow ≤ wide) {x y next next' : List Char}
    {p q : Stretch} (hx : FirstLine m narrow x p next) (hy : FirstLine m wide y q next')
    (hyx : y <:+ x) : next' <:+ next := by
  induction hx generalizing y q next' with
  | whole hne hline =>
    have hfits := Nat.le_trans (hm.le_of_infix hyx.isInfix) (hline.le hm)
    exact hy.reaches hm (List.append_nil y) (.inl rfl) (Nat.le_trans hfits hle)
  | atSpace hne hline => exact hy.passes_space hm hle hline hyx
  | atWord hne hline => exact hy.passes_space hm hle hline hyx
  | @cutWord w rest hw hrest hwide =>
    rw [← cut_append m.char narrow w, List.append_assoc] at hyx
    exact hy.passes_cut hm hle hw hyx
  | @behindSpace w rest next p hw hrest hfull hnext ih =>
    rcases List.suffix_cons_iff.mp hyx with rfl | hbehind
    · by_cases hplace : wide < 1 + m.text w
      · obtain ⟨q, hq⟩ := hy.behind_space hm hw hplace
        exact ih hq (List.suffix_refl _)
      · have hfits : m.text ([' '] ++ w) ≤ wide := by
          rw [hm.append, hm.sane.space]
          exact Nat.le_of_not_lt hplace
        exact (hy.reaches hm rfl hrest hfits).trans (hnext.ends_by_space hm hw hrest hfull)
    · exact ih hy hbehind

/-- **The wide run sets no more lines** than the narrow run that began no later. -/
theorem Lines.length_le (hm : m.Additive) (hle : narrow ≤ wide) {x y : List Char}
    {ps qs : List Stretch} (hx : Lines m narrow x ps) (hy : Lines m wide y qs) (hyx : y <:+ x) :
    qs.length ≤ ps.length := by
  induction hx generalizing y qs with
  | nothing =>
    cases hy with
    | nothing => exact Nat.le_refl 0
    | cons hq => exact absurd (List.suffix_nil.mp hyx) hq.text_ne_nil
  | cons hp _ ih =>
    cases hy with
    | nothing => exact Nat.zero_le _
    | cons hq hnext => exact Nat.succ_le_succ (ih hnext (hp.stays_ahead hm hle hq hyx))

/-! ## 4. Segments and texts -/

/-- A text for which there is place is a line. -/
theorem FirstLine.of_fits (hm : m.Additive) {text next : List Char} {p : Stretch}
    (h : FirstLine m width text p next) (hfits : m.text text ≤ width) :
    p.line = text ∧ next = [] := by
  cases h with
  | whole => exact ⟨rfl, rfl⟩
  | atSpace hne hline hfull =>
    rw [hm.append_space] at hfits
    omega
  | @atWord line w rest hne hline hw hrest hfull =>
    rw [hm.append_space, hm.append] at hfits
    rw [hm.append, hm.sane.space] at hfull
    omega
  | cutWord hw hrest hwide =>
    rw [hm.append] at hfits
    omega
  | @behindSpace w rest next p hw hrest hfull =>
    rw [← List.singleton_append, hm.append, hm.sane.space, hm.append] at hfits
    omega

theorem wrapSegment_of_fits (hm : m.Additive) (hwidth : 1 ≤ width) {s : List Char}
    (hfits : m.text s ≤ width) : wrapSegment m width s = [s] := by
  by_cases hs : s = []
  · rw [hs, wrapSegment_nil]
  · obtain ⟨ps, hps, hlines⟩ := wrapSegment_lines hm.sane hwidth hs
    obtain ⟨p, next, qs, rfl, hfirst, hnext⟩ := hps.exists_first hs
    obtain ⟨hline, rfl⟩ := hfirst.of_fits hm hfits
    cases hnext with
    | nothing => rw [← hlines, ← hline, List.map_singleton]
    | cons hq => exact absurd rfl hq.text_ne_nil

theorem wrapSegment_length_le (hm : m.Additive) (hnarrow : 1 ≤ narrow) (hle : narrow ≤ wide)
    (s : List Char) : (wrapSegment m wide s).length ≤ (wrapSegment m narrow s).length := by
  by_cases hs : s = []
  · exact Nat.le_of_eq (by rw [hs, wrapSegment_nil, wrapSegment_nil])
  · obtain ⟨ps, hps, hlines⟩ := wrapSegment_lines hm.sane hnarrow hs
    obtain ⟨qs, hqs, hlines'⟩ := wrapSegment_lines hm.sane (Nat.le_trans hnarrow hle) hs
    rw [← hlines, ← hlines', List.length_map, List.length_map]
    exact hps.length_le hm hle hqs (List.suffix_refl s)

theorem length_flatMap_le {α β : Type} {f g : α → List β} : ∀ {l : List α},
    (∀ a ∈ l, (f a).length ≤ (g a).length) → (l.flatMap f).length ≤ (l.flatMap g).length
  | [], _ => Nat.le_refl 0
  | a :: l, h => by
      have ih := length_flatMap_le fun x hx => h x (List.mem_cons_of_mem a hx)
      rw [List.flatMap_cons, List.flatMap_cons, List.length_append, List.length_append]
      exact Nat.add_le_add (h a List.mem_cons_self) ih

/-- Width 0 asks for the breaks of the text alone. -/
theorem wrap_zero (m : Measure) (t : List Char) :
    wrap m 0 t = (segments (collapse t)).flatMap fun s => [s] :=
  rfl

/-- **A wider limit never needs more lines**, and no limit needs the fewest. These are also the
    lines of a limit that every segment of the text keeps to. -/
theorem wider_no_longer (m : Measure) {narrow wide : Nat} (hnarrow : 1 ≤ narrow)
    (hle : narrow ≤ wide) {t : List Char} (hadds : m.AddsUp t) :
    (wrap m wide t).length ≤ (wrap m narrow t).length ∧
    (wrap m 0 t).length ≤ (wrap m wide t).length ∧
    (wrap m 0 t).length ≤ (wrap m narrow t).length ∧
    ((∀ s ∈ segments (collapse t), m.text s ≤ wide) → wrap m wide t = wrap m 0 t) := by
  have hm := hadds.additive
  have hwide := Nat.le_trans hnarrow hle
  have hone : ∀ width s, [s].length ≤ (wrapSegment m width s).length := fun width s =>
    List.length_pos_iff.mpr (wrapSegment_ne_nil m width s)
  rw [wrap_of_width m hwide, wrap_of_width m hnarrow, wrap_zero]
  refine ⟨length_flatMap_le fun s hs => ?_, length_flatMap_le fun s _ => hone wide s,
    length_flatMap_le fun s _ => hone narrow s,
    fun hfits => congrArg List.flatten (List.map_congr_left fun s hs => ?_)⟩
  · have hsegment := hadds.pieces s hs
    rw [wrapSegment_summed hsegment, wrapSegment_summed hsegment]
    exact wrapSegment_length_le hm hnarrow hle s
  · have hsegment := hadds.pieces s hs
    have hsum := hfits s hs
    rw [hsegment s (List.infix_refl s)] at hsum
    rw [wrapSegment_summed hsegment]
    exact wrapSegment_of_fits hm hwide hsum

/-- A word that is cut at the narrow width, in front of wide characters and of more than one space,
    and a break. The wide width keeps both segments whole. -/
theorem wider_no_longer_whole :
    let t := "etoile  e\u0301 日本\\n  d".toList
    1 ≤ 3 ∧ 3 ≤ 14 ∧ Measure.display.AddsUp t ∧
      (∀ s ∈ segments (collapse t), Measure.display.text s ≤ 14) ∧
      (wrap .display 14 t).length ≤ (wrap .display 3 t).length ∧
      wrap .display 14 t = wrap .display 0 t := by
  intro t
  have hsteady : (collapse t).all steady = true := by decide +kernel
  have hadds : Measure.display.AddsUp t := Measure.display_addsUp (List.all_eq_true.mp hsteady)
  have hsegments : (segments (collapse t)).all (fun s => columns s ≤ 14) = true := by
    decide +kernel
  have hfits : ∀ s ∈ segments (collapse t), Measure.display.text s ≤ 14 := fun s hs =>
    of_decide_eq_true (List.all_eq_true.mp hsegments s hs)
  obtain ⟨hlength, _, _, hwhole⟩ :=
    wider_no_longer .display (show 1 ≤ 3 by decide) (show 3 ≤ 14 by decide) hadds
  exact ⟨by decide, by decide, hadds, hfits, hlength, hwhole hfits⟩

end SequenceChart.Text
