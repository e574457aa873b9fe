import SequenceChart.Proofs.Spelled

/-!
# Passing over what a text spells

A value that nobody asks for is passed over by a reader of its own, which looks at less: it takes a
surrogate for a character, does not work out numbers, and does not skip blanks at the same places.
It still gets behind every value that can be read.

* `skipString_of_stringRest` and `skipNumber_of_read` say so of strings and numbers;
* `nextItem_eq_item`, `nextKey_eq_key` and their companions say where an item or a key begins, and
  `skipNextItem_of_item`, `skipNextKey_of_key` that the other reader finds it, too;
* `skip_of_spells` says that what a text spells is passed over, however deep it is: a text has fewer
  brackets than the reader allows.
-/

namespace SequenceChart.Json

/-! ## 1. Strings -/

theorem skipString_quote (rest : List Char) : Takes (skipString ('"' :: rest)) () rest := by
  rw [skipString, if_pos rfl]
  exact ⟨_, rfl, rfl, rfl⟩

theorem skipString_escape {cs behind rest : List Char} (h : Takes (skipEscaped cs) () behind)
    (hmore : Takes (skipString behind) () rest) : Takes (skipString ('\\' :: cs)) () rest := by
  obtain ⟨t, ht, -, rfl⟩ := h
  have hquote : ¬ '\\' = '"' := by decide
  rw [skipString, if_neg hquote, if_pos rfl, ht]
  exact hmore.map (g := id) fun _ => ⟨rfl, rfl⟩

theorem skipEscaped_number {cs : List Char} {t : Taken Nat cs} (h : hex4 cs = .ok t) :
    Takes (skipEscaped ('u' :: cs)) () t.rest := by
  have hskip : skipEscaped ('u' :: cs) = (hex4 cs).map fun t => (t.map fun _ => ()).later := rfl
  rw [hskip, h]
  exact ⟨_, rfl, rfl, rfl⟩

/-- The second surrogate is an escape of its own. -/
theorem trail_eq_ok {cs : List Char} {t : Taken Nat cs} (h : trail cs = .ok t) :
    ∃ text, cs = '\\' :: 'u' :: text ∧ ∃ u, hex4 text = .ok u ∧ t.rest = u.rest := by
  unfold trail at h
  split at h
  · cases h
  · rename_i text
    split at h
    · cases h
    · rename_i u hu
      split at h
      · cases h
        exact ⟨text, rfl, u, hu, rfl⟩
      · cases h
  · cases h
  · cases h
  · cases h

/-- The number of a character is read from one escape, or from two: those of its surrogates. -/
theorem codePoint_eq_ok {cs : List Char} {t : Taken Char cs} (h : codePoint cs = .ok t) :
    ∃ u, hex4 cs = .ok u ∧ (t.rest = u.rest ∨
      ∃ text, u.rest = '\\' :: 'u' :: text ∧ ∃ w, hex4 text = .ok w ∧ t.rest = w.rest) := by
  unfold codePoint at h
  split at h
  · cases h
  · rename_i u hu
    refine ⟨u, hu, ?_⟩
    split_ifs at h with htrail hlead
    · obtain ⟨low, hlow, rfl⟩ := map_eq_ok h
      exact .inr (trail_eq_ok hlow)
    · cases h
      exact .inl rfl

/-- An escape that is read is passed over, or else it is two. -/
theorem skipEscaped_of_escaped {cs : List Char} {t : Taken Char cs} (h : escaped cs = .ok t) :
    Takes (skipEscaped cs) () t.rest ∨
      ∃ text, Takes (skipEscaped cs) () ('\\' :: text) ∧ Takes (skipEscaped text) () t.rest := by
  unfold escaped at h
  split at h
  · cases h
  · rename_i c rest
    split at h
    · rename_i d hshort
      cases h
      refine .inl ⟨.first (), ?_, rfl, rfl⟩
      rw [skipEscaped, hshort]
      rfl
    · split_ifs at h with hu
      subst hu
      obtain ⟨t, ht, rfl⟩ := map_eq_ok h
      obtain ⟨u, hu, hrest | ⟨text, htext, w, hw, hrest⟩⟩ := codePoint_eq_ok ht
      · exact .inl (hrest ▸ skipEscaped_number hu)
      · exact .inr ⟨'u' :: text, htext ▸ skipEscaped_number hu, hrest ▸ skipEscaped_number hw⟩

/-- **A string that is read is passed over.** -/
theorem skipString_of_stringRest (cs : List Char) : ∀ t, stringRest cs = .ok t →
    Takes (skipString cs) () t.rest := by
  fun_induction stringRest cs with
  | case1 | case3 | case5 => exact fun _ h => by cases h
  | case2 rest =>
    rintro _ ⟨⟩
    exact skipString_quote rest
  | case4 rest u hu _ ih =>
    intro t h
    obtain ⟨t, ht, rfl⟩ := map_eq_ok h
    have hmore := ih t ht
    rcases skipEscaped_of_escaped hu with hone | ⟨text, hlead, htrail⟩
    · exact skipString_escape hone hmore
    · exact skipString_escape hlead (skipString_escape htrail hmore)
  | case6 c rest hquote hslash hcontrol ih =>
    intro t h
    obtain ⟨t, ht, rfl⟩ := map_eq_ok h
    rw [skipString, if_neg hquote, if_neg hslash, if_neg hcontrol]
    exact (ih t ht).map (g := id) fun _ => ⟨rfl, rfl⟩

theorem skipString_of_read {cs rest : List Char} {s : String} (h : Takes (readString cs) s rest) :
    Takes (skipString cs) () rest := by
  obtain ⟨_, hx, -, rfl⟩ := h
  obtain ⟨t, ht, rfl⟩ := map_eq_ok hx
  exact skipString_of_stringRest cs t ht

/-! ## 2. Numbers -/

section Numbers

variable {a b : Cause} {cs : List Char}

-- the parts of a number name the cause at the end of the text, and nothing else depends on it
theorem wholePart_any {t : Taken (List Char) cs} (h : wholePart a cs = .ok t) :
    wholePart b cs = .ok t := by
  cases cs with
  | nil => cases h
  | cons c cs => exact h

theorem fractionPart_any {t : Part (List Char) cs} (h : fractionPart a cs = .ok t) :
    fractionPart b cs = .ok t := by
  cases cs with
  | nil => exact h
  | cons c cs =>
    cases cs with
    | nil =>
      unfold fractionPart at h ⊢
      dsimp only at h ⊢
      split_ifs at h ⊢
      exact h
    | cons d ds => exact h

theorem exponentDigits_any {t : Taken (List Char) cs} (h : exponentDigits a cs = .ok t) :
    exponentDigits b cs = .ok t := by
  cases cs with
  | nil => cases h
  | cons c cs => exact h

theorem exponentPart_any {t : Part (Option Exponent) cs} (h : exponentPart a cs = .ok t) :
    exponentPart b cs = .ok t := by
  cases cs with
  | nil => exact h
  | cons c cs =>
    unfold exponentPart at h ⊢
    dsimp only at h ⊢
    split_ifs at h ⊢
    · obtain ⟨u, hu, rfl⟩ := map_eq_ok h
      rw [exponentDigits_any hu]
      rfl
    · exact h

/-- What is said of a text that ends too early does not change what is read of one that does not. -/
theorem numeral_any {t : Taken Numeral cs} (h : numeral a cs = .ok t) : numeral b cs = .ok t := by
  unfold numeral at h ⊢
  dsimp only at h ⊢
  split at h
  · cases h
  · rename_i whole hwhole
    rw [wholePart_any hwhole]
    dsimp only
    split at h
    · cases h
    · rename_i fraction hfraction
      rw [fractionPart_any hfraction]
      dsimp only
      split at h
      · cases h
      · rename_i exponent hexponent
        rw [exponentPart_any hexponent]
        exact h

theorem skipNumber_of_read {n : Number} {rest : List Char} (h : Takes (readNumber cs) n rest) :
    Takes (skipNumber cs) () rest := by
  obtain ⟨t, ht, -, rfl⟩ := h
  unfold readNumber at ht
  split at ht
  · cases ht
  · rename_i u hu
    split at ht
    · cases ht
      unfold skipNumber
      rw [numeral_any hu]
      exact ⟨_, rfl, rfl, rfl⟩
    · cases ht

end Numbers

/-! ## 3. Marks -/

section Marks

variable {first : Bool} {cs text : List Char}

theorem skipSpace_of_cons {c : Char} (h : skipSpace cs = c :: text) :
    skipSpace (c :: text) = c :: text := by
  have hc : isSpace c = false := by
    have hhead := List.head?_dropWhile_not isSpace cs
    unfold skipSpace at h
    rw [h] at hhead
    simpa using hhead
  unfold skipSpace
  rw [List.dropWhile_cons_of_neg (by simp [hc])]

theorem nextItem_eq_close {t : Taken Unit cs} (h : nextItem first cs = .ok (.close t)) :
    skipSpace cs = ']' :: t.rest := by
  unfold nextItem at h
  split at h
  · cases h
  · rename_i c text hspace
    split_ifs at h with hclose
    · cases h
      subst hclose
      exact hspace
    · cases h
    · split at h
      · cases h
      · split_ifs at h
        cases h

/-- An item begins behind the bracket or behind a comma, and blanks. -/
theorem nextItem_eq_item {r : Rest cs} (h : nextItem first cs = .ok (.item r)) :
    ∃ c text, r.rest = c :: text ∧ c ≠ ']' ∧
      (first = true ∧ skipSpace cs = c :: text ∨
        first = false ∧ ∃ more, skipSpace cs = ',' :: more ∧ skipSpace more = c :: text) := by
  unfold nextItem at h
  split at h
  · cases h
  · rename_i c text hspace
    split_ifs at h with hclose hfirst hcomma
    · cases h
    · cases h
      exact ⟨c, text, rfl, hclose, .inl ⟨hfirst, hspace⟩⟩
    · split at h
      · cases h
      · rename_i d ds hspace'
        split_ifs at h with hclose'
        cases h
        exact ⟨d, ds, rfl, hclose', .inr ⟨by simpa using hfirst, text, hcomma ▸ hspace, hspace'⟩⟩

theorem nextKey_eq_close {t : Taken Unit cs} (h : nextKey first cs = .ok (.close t)) :
    skipSpace cs = '\x7d' :: t.rest := by
  unfold nextKey at h
  split at h
  · cases h
  · rename_i c text hspace
    split_ifs at h with hclose
    · cases h
      subst hclose
      exact hspace
    · obtain ⟨_, _, h⟩ := map_eq_ok h
      cases h
    · split at h
      · cases h
      · split_ifs at h
        obtain ⟨_, _, h⟩ := map_eq_ok h
        cases h

theorem readKey_eq_ok {t : Taken String cs} (h : readKey cs = .ok t) :
    ∃ text, cs = '"' :: text ∧ Takes (readString text) t.value t.rest := by
  unfold readKey at h
  split at h
  · rename_i text
    obtain ⟨t, ht, rfl⟩ := map_eq_ok h
    exact ⟨text, rfl, t, ht, rfl, rfl⟩
  · cases h

/-- A key begins behind the brace or behind a comma, and blanks. -/
theorem nextKey_eq_key {k : Taken String cs} (h : nextKey first cs = .ok (.key k)) :
    ∃ text, Takes (readString text) k.value k.rest ∧
      (first = true ∧ skipSpace cs = '"' :: text ∨
        first = false ∧ ∃ more, skipSpace cs = ',' :: more ∧ skipSpace more = '"' :: text) := by
  unfold nextKey at h
  split at h
  · cases h
  · rename_i c text hspace
    split_ifs at h with hclose hfirst hcomma
    · cases h
    · obtain ⟨t, ht, hk⟩ := map_eq_ok h
      cases hk
      obtain ⟨text', htext, hread⟩ := readKey_eq_ok ht
      exact ⟨text', hread, .inl ⟨hfirst, hspace.trans htext⟩⟩
    · split at h
      · cases h
      · rename_i d ds hspace'
        split_ifs at h with hclose'
        obtain ⟨t, ht, hk⟩ := map_eq_ok h
        cases hk
        obtain ⟨text', htext, hread⟩ := readKey_eq_ok ht
        exact ⟨text', hread,
          .inr ⟨by simpa using hfirst, text, hcomma ▸ hspace, hspace'.trans htext⟩⟩

theorem skipNextItem_close (first : Bool) (h : skipSpace cs = ']' :: text) :
    ∃ t, skipNextItem first cs = .ok (.close t) ∧ t.rest = text := by
  unfold skipNextItem
  split <;> rename_i heq <;> cases h.symm.trans heq
  exact ⟨_, rfl, rfl⟩

/-- An item is passed over from where it is read, or from the blanks in front of it. -/
theorem skipNextItem_of_item {r : Rest cs} (h : nextItem first cs = .ok (.item r)) :
    ∃ r', skipNextItem first cs = .ok (.item r') ∧ skipSpace r'.rest = r.rest := by
  obtain ⟨c, text, hrest, hclose, ⟨rfl, hspace⟩ | ⟨rfl, more, hcomma, hspace⟩⟩ :=
    nextItem_eq_item h
  · unfold skipNextItem
    split <;> rename_i heq <;> cases hspace.symm.trans heq
    rw [if_neg hclose, if_pos rfl, hrest]
    exact ⟨_, rfl, skipSpace_of_cons hspace⟩
  · unfold skipNextItem
    split <;> rename_i heq <;> cases hcomma.symm.trans heq
    rw [hrest]
    exact ⟨_, rfl, hspace⟩

theorem skipNextKey_close (first : Bool) (h : skipSpace cs = '\x7d' :: text) :
    ∃ t, skipNextKey first cs = .ok (.close t) ∧ t.rest = text := by
  unfold skipNextKey
  split <;> rename_i heq <;> cases h.symm.trans heq
  exact ⟨_, rfl, rfl⟩

theorem skipKey_of_read {s : String} {rest : List Char} (h : skipSpace cs = '"' :: text)
    (hread : Takes (readString text) s rest) : Takes (skipKey cs) () rest := by
  unfold skipKey
  split <;> rename_i heq <;> cases h.symm.trans heq
  rw [if_pos rfl]
  exact (skipString_of_read hread).map (g := id) fun _ => ⟨rfl, rfl⟩

theorem skipNextKey_of_key {k : Taken String cs} (h : nextKey first cs = .ok (.key k)) :
    ∃ k', skipNextKey first cs = .ok (.key k') ∧ k'.rest = k.rest := by
  obtain ⟨text, hread, ⟨rfl, hspace⟩ | ⟨rfl, more, hcomma, hspace⟩⟩ := nextKey_eq_key h
  · obtain ⟨t, ht, -, hrest⟩ := skipKey_of_read (skipSpace_of_cons hspace) hread
    unfold skipNextKey
    split <;> rename_i heq <;> cases hspace.symm.trans heq
    rw [if_neg (by decide), if_pos rfl, ht]
    exact ⟨_, rfl, hrest⟩
  · obtain ⟨t, ht, -, hrest⟩ := skipKey_of_read hspace hread
    unfold skipNextKey
    split <;> rename_i heq <;> cases hcomma.symm.trans heq
    rw [if_neg (by decide), if_neg (by decide), if_pos rfl, ht]
    exact ⟨_, rfl, hrest⟩

end Marks

/-! ## 4. Values -/

section Values

variable {S : Spelling Json} {value : Reader Unit} {bound : Nat}

/-- The items that a text spells are passed over, with as many brackets allowed as the text has
    characters: what stands behind a bracket is shorter, so the bound is enough again. -/
theorem SpellsItems.skipped (hblank : ∀ {cs v rest}, S (skipSpace cs) v rest → S cs v rest)
    (hvalue : ∀ {cs v rest}, S cs v rest → cs.length ≤ bound → Takes (value cs) () rest)
    {first : Bool} {cs rest : List Char} {vs : List Json} (h : SpellsItems S first cs vs rest) :
    cs.length ≤ bound → ∃ us, Takes (items skipNextItem value first cs) us rest := by
  induction h with
  | close h =>
    intro _
    obtain ⟨t, ht, hrest⟩ := skipNextItem_close _ (nextItem_eq_close h)
    exact ⟨[], items_close ht hrest⟩
  | more h hv _ ih =>
    intro hbound
    obtain ⟨r, hr, hrest⟩ := skipNextItem_of_item h
    have hwithin := r.within
    obtain ⟨t, ht, -, rfl⟩ := hvalue (hblank (hrest.symm ▸ hv)) (by omega)
    have hshorter := t.shorter
    obtain ⟨us, hus⟩ := ih (by omega)
    rw [items_of_item hr, ht]
    exact ⟨t.value :: us, hus.map fun _ => ⟨rfl, rfl⟩⟩

theorem SpellsMembers.skipped
    (hvalue : ∀ {cs v rest}, S cs v rest → cs.length ≤ bound → Takes (value cs) () rest)
    {first : Bool} {cs rest : List Char} {ms : Members} (h : SpellsMembers S first cs ms rest) :
    cs.length ≤ bound → Takes (members skipNextKey (skipMember value) first () cs) () rest := by
  induction h with
  | close h =>
    intro _
    obtain ⟨t, ht, hrest⟩ := skipNextKey_close _ (nextKey_eq_close h)
    exact members_close ht hrest
  | @more _ _ _ _ k c v _ h hcolon hv _ ih =>
    intro hbound
    obtain ⟨k', hk', hrest⟩ := skipNextKey_of_key h
    have hkey := k.shorter
    have hmark := c.shorter
    obtain ⟨t, ht, -, rfl⟩ := hvalue hv (by omega)
    have hmember : Takes (skipMember value () () k'.rest) () t.rest := by
      rw [hrest]
      unfold skipMember
      rw [hcolon]
      simp only [ht]
      exact ⟨_, rfl, rfl, rfl⟩
    have hshorter := t.shorter
    have hmore := ih (by omega)
    obtain ⟨u, hu, -, hbehind⟩ := hmember
    rw [members_of_key hk', hu]
    rw [← hbehind] at hmore
    exact hmore.map (g := id) fun _ => ⟨rfl, rfl⟩

end Values

theorem SpellsScalar.skipped {cs rest : List Char} {v : Json} (h : SpellsScalar cs v rest) :
    Takes (skipScalar cs) () rest := by
  cases h with
  | null | yes | no => exact ⟨_, rfl, rfl, rfl⟩
  | number hc h =>
    rw [skipScalar, if_neg (ne_of_beginsNumber hc (by decide)), if_pos hc]
    exact skipNumber_of_read h
  | string h =>
    rw [skipScalar, if_pos rfl]
    exact (skipString_of_read h).map (g := id) fun _ => ⟨rfl, rfl⟩

/-- What is passed over of a value, by its first character. -/
theorem skipLevel_eq {inside : Option (Reader Unit)} {cs text : List Char} {c : Char}
    (h : skipSpace cs = c :: text) : skipLevel inside cs =
      if c = '[' then
        match inside with
        | none => .error (.behind .tooDeep (c :: text))
        | some value =>
          (items skipNextItem value true text).map fun t => (t.map fun _ => ()).later.spaced h
      else if c = '\x7b' then
        match inside with
        | none => .error (.behind .tooDeep (c :: text))
        | some value =>
          (members skipNextKey (skipMember value) true () text).map fun t => t.later.spaced h
      else (skipScalar (c :: text)).map (Taken.spaced h) := by
  unfold skipLevel
  split <;> rename_i heq <;> cases h.symm.trans heq
  rfl

theorem SpellsScalar.skipLevel {inside : Option (Reader Unit)} {cs rest : List Char} {v : Json}
    (h : SpellsScalar (skipSpace cs) v rest) : Takes (Json.skipLevel inside cs) () rest := by
  obtain ⟨c, text, hspace, hlist, hobject⟩ := h.opens_nothing
  rw [skipLevel_eq hspace, if_neg hlist, if_neg hobject]
  exact (hspace ▸ h.skipped).map (g := id) fun _ => ⟨rfl, rfl⟩

theorem skipSpace_skipSpace (cs : List Char) : skipSpace (skipSpace cs) = skipSpace cs := by
  cases h : skipSpace cs with
  | nil => rfl
  | cons c text => exact skipSpace_of_cons h

/-- Blanks in front of a value say nothing. -/
theorem Spells.of_skipSpace {levels : Nat} {cs rest : List Char} {v : Json}
    (h : Spells levels (skipSpace cs) v rest) : Spells levels cs v rest := by
  cases levels <;>
  · cases h with
    | scalar h => exact .scalar (skipSpace_skipSpace cs ▸ h)
    | array h hinside hvs => exact .array (skipSpace_skipSpace cs ▸ h) hinside hvs
    | object h hinside hms => exact .object (skipSpace_skipSpace cs ▸ h) hinside hms

/-- What is left behind a bracket is shorter than the text. -/
theorem lt_of_skipSpace {cs text : List Char} {c : Char} (h : skipSpace cs = c :: text) :
    text.length < cs.length :=
  Nat.lt_of_succ_le (length_le_of_skipSpace h)

theorem Spells.skipped : ∀ {levels : Nat} {cs rest : List Char} {v : Json},
    Spells levels cs v rest → ∀ bound, cs.length ≤ bound → Takes (skipLevels bound cs) () rest
  | 0, cs, rest, v, h, bound, _ => by
      cases h with
      | scalar h => cases bound <;> exact h.skipLevel
      | array _ hinside _ => cases hinside
      | object _ hinside _ => cases hinside
  | levels + 1, cs, rest, v, h, bound, hbound => by
      cases h with
      | scalar h => cases bound <;> exact h.skipLevel
      | array hspace hinside hvs =>
        cases hinside
        have htext := lt_of_skipSpace hspace
        obtain ⟨n, rfl⟩ : ∃ n, bound = n + 1 := ⟨bound - 1, by omega⟩
        obtain ⟨us, hus⟩ := hvs.skipped Spells.of_skipSpace
          (fun h hn => Spells.skipped h n hn) (by omega)
        rw [skipLevels, skipLevel_eq hspace, if_pos rfl]
        exact hus.map (g := fun _ => ()) fun _ => ⟨rfl, rfl⟩
      | object hspace hinside hms =>
        cases hinside
        have htext := lt_of_skipSpace hspace
        obtain ⟨n, rfl⟩ : ∃ n, bound = n + 1 := ⟨bound - 1, by omega⟩
        have hmembers := hms.skipped (fun h hn => Spells.skipped h n hn) (by omega)
        rw [skipLevels, skipLevel_eq hspace, if_neg (by decide), if_pos rfl]
        exact hmembers.map (g := id) fun _ => ⟨rfl, rfl⟩

/-- **What a text spells is passed over**, however deep it is. -/
theorem skip_of_spells {levels : Nat} {cs rest : List Char} {v : Json}
    (h : Spells levels cs v rest) : Takes (skip cs) () rest :=
  h.skipped cs.length (Nat.le_refl _)

end SequenceChart.Json
