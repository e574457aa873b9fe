import SequenceChart.Proofs.Quoting

/-!
# What stands between quotes

A reader of a quoted text goes through it from left to right. A backslash takes the next character
with it, whatever that is, and the first quote that is not taken closes the text.

* `Enclosed` are the texts that the reader goes through without being closed and without a backslash
  left over. Escaped texts are such texts (`enclosed_escape`), and so are escaped lines
  (`enclosed_escapeLines`);
* `untilQuote` is the reader, and `untilQuote_eq_some_iff` says that it stops behind an enclosed text
  and nowhere else;
* `endRun` counts the backslashes at the end of a text. In an enclosed text they come in pairs
  (`Enclosed.endRun_even`);
* `FreeLineEnds` says that no line end of a text is taken by a backslash.
-/

namespace SequenceChart.Text

/-! ## 1. Enclosed texts -/

/-- **A text that may stand between quotes as it is**: each backslash has a character to take, and
    every quote is taken. -/
inductive Enclosed : List Char → Prop where
  | nothing : Enclosed []
  | taken (c : Char) {cs : List Char} (h : Enclosed cs) : Enclosed ('\\' :: c :: cs)
  | plain {c : Char} {cs : List Char} (hb : c ≠ '\\') (hq : c ≠ '"') (h : Enclosed cs) :
      Enclosed (c :: cs)

theorem Enclosed.append {a b : List Char} (ha : Enclosed a) (hb : Enclosed b) :
    Enclosed (a ++ b) := by
  induction ha with
  | nothing => exact hb
  | taken c _ ih => exact .taken c ih
  | plain hc hq _ ih => exact .plain hc hq ih

/-- Backslashes in pairs take one another. -/
theorem enclosed_pairs : ∀ k : Nat, Enclosed (List.replicate (2 * k) '\\')
  | 0 => .nothing
  | k + 1 => .taken '\\' (enclosed_pairs k)

/-- Backslashes in front of a character that is no quote, be it taken or not. -/
theorem enclosed_run {c : Char} (hb : c ≠ '\\') (hq : c ≠ '"') {cs : List Char} (h : Enclosed cs) :
    ∀ k : Nat, Enclosed (List.replicate k '\\' ++ c :: cs)
  | 0 => .plain hb hq h
  | 1 => .taken c h
  | k + 2 => .taken '\\' (enclosed_run hb hq h k)

/-- **An escaped text is enclosed**, whatever it holds. -/
theorem enclosed_escape (t : List Char) : Enclosed (escape t) := by
  induction t using backslashes_induct with
  | atEnd k =>
    rw [escape_backslashes]
    exact enclosed_pairs k
  | before k c rest hb ih =>
    by_cases hq : c = '"'
    · rw [hq, escape_before_quote]
      exact (enclosed_pairs k).append (.taken '"' ih)
    · rw [escape_before hb hq]
      exact enclosed_run hb hq ih k

theorem escapeLines_singleton (l : List Char) : escapeLines [l] = escape l :=
  List.intercalate_singleton

theorem escapeLines_cons_cons (l l' : List Char) (lines : List (List Char)) :
    escapeLines (l :: l' :: lines) = escape l ++ '\n' :: escapeLines (l' :: lines) :=
  intercalate_lineEnd (escape l) (escape l') (lines.map escape)

/-- Escaped lines are enclosed, with the line ends between them. -/
theorem enclosed_escapeLines : ∀ lines : List (List Char), Enclosed (escapeLines lines)
  | [] => .nothing
  | [l] => by
      rw [escapeLines_singleton]
      exact enclosed_escape l
  | l :: l' :: lines => by
      have hrest := enclosed_escapeLines (l' :: lines)
      rw [escapeLines_cons_cons]
      exact (enclosed_escape l).append (.plain (by decide) (by decide) hrest)

/-! ## 2. Reading up to the quote that closes -/

/-- **Reads behind an opening quote**, up to the quote that closes: what stands before that quote, and
    what is left behind it. -/
def untilQuote : List Char → Option (List Char × List Char)
  | [] => none
  | '"' :: cs => some ([], cs)
  | '\\' :: c :: cs => (untilQuote cs).map fun read => ('\\' :: c :: read.1, read.2)
  | c :: cs => (untilQuote cs).map fun read => (c :: read.1, read.2)

theorem untilQuote_plain {c : Char} (hb : c ≠ '\\') (hq : c ≠ '"') (cs : List Char) :
    untilQuote (c :: cs) = (untilQuote cs).map fun read => (c :: read.1, read.2) := by
  rw [untilQuote]
  · exact hq
  · exact fun _ _ h => absurd h hb

/-- An enclosed text does not close, and does not take the quote that stands behind it. -/
theorem Enclosed.untilQuote_append {body : List Char} (h : Enclosed body) (rest : List Char) :
    untilQuote (body ++ '"' :: rest) = some (body, rest) := by
  induction h with
  | nothing => rfl
  | @taken c cs _ ih =>
    show (untilQuote (cs ++ '"' :: rest)).map _ = _
    rw [ih]
    rfl
  | @plain c cs hb hq _ ih =>
    rw [List.cons_append, untilQuote_plain hb hq, ih]
    rfl

theorem enclosed_of_untilQuote {cs body rest : List Char} (h : untilQuote cs = some (body, rest)) :
    Enclosed body ∧ cs = body ++ '"' :: rest := by
  induction cs using untilQuote.induct generalizing body with
  | case1 => cases h
  | case2 cs =>
    obtain ⟨rfl, rfl⟩ := Prod.mk.inj (Option.some.inj h)
    exact ⟨.nothing, rfl⟩
  | case3 c cs ih =>
    obtain ⟨⟨inner, left⟩, hread, heq⟩ := Option.map_eq_some_iff.mp h
    obtain ⟨rfl, rfl⟩ := Prod.mk.inj heq
    obtain ⟨hinner, rfl⟩ := ih hread
    exact ⟨.taken c hinner, rfl⟩
  | case4 c cs hq htaken ih =>
    by_cases hb : c = '\\'
    · -- a backslash with nothing behind it
      cases cs with
      | nil => rw [hb] at h; cases h
      | cons d ds => exact absurd rfl (htaken d ds hb)
    · rw [untilQuote_plain hb hq] at h
      obtain ⟨⟨inner, left⟩, hread, heq⟩ := Option.map_eq_some_iff.mp h
      obtain ⟨rfl, rfl⟩ := Prod.mk.inj heq
      obtain ⟨hinner, rfl⟩ := ih hread
      exact ⟨.plain hb hq hinner, rfl⟩

/-- **The reader stops at a quote with an enclosed text before it**, and at no other place. -/
theorem untilQuote_eq_some_iff {cs body rest : List Char} :
    untilQuote cs = some (body, rest) ↔ Enclosed body ∧ cs = body ++ '"' :: rest := by
  constructor
  · exact enclosed_of_untilQuote
  · rintro ⟨h, rfl⟩
    exact h.untilQuote_append rest

/-- **Escaping delimits a text and can be undone.** Behind an opening quote, the reader goes through an
    escaped text up to the quote that is put behind it, and leaves what follows, whatever the text is
    and whatever follows. There is a decoder that gives every text back from what it is escaped to,
    so that different texts are escaped differently. -/
theorem escape_delimits_and_decodes :
    (∀ t rest : List Char, untilQuote (escape t ++ '"' :: rest) = some (escape t, rest)) ∧
    (∃ decode : List Char → List Char, ∀ t, decode (escape t) = t) ∧
    Function.Injective escape := by
  have hdecode : Function.LeftInverse unescape escape := unescape_escape
  refine ⟨fun t rest => ?_, ⟨unescape, hdecode⟩, hdecode.injective⟩
  exact untilQuote_eq_some_iff.mpr ⟨enclosed_escape t, rfl⟩

/-! ## 3. Backslashes at the end of a text -/

/-- How many backslashes stand at the end of a text. -/
def endRun (t : List Char) : Nat :=
  (t.reverse.takeWhile (· = '\\')).length

theorem endRun_concat (t : List Char) (c : Char) :
    endRun (t ++ [c]) = if c = '\\' then endRun t + 1 else 0 := by
  unfold endRun
  rw [List.reverse_concat, List.takeWhile_cons]
  by_cases hb : c = '\\' <;> simp [hb]

/-- Only what stands behind the last other character counts. -/
theorem endRun_append_cons {c : Char} (hb : c ≠ '\\') (a b : List Char) :
    endRun (a ++ c :: b) = endRun b := by
  have hstop : (c :: a.reverse).takeWhile (· = '\\') = [] :=
    List.takeWhile_cons_of_neg (by simpa using hb)
  unfold endRun
  rw [List.reverse_append, List.reverse_cons, List.append_assoc, List.singleton_append,
    List.takeWhile_append, hstop, List.append_nil]
  split
  · rename_i hall
    exact hall.symm
  · rfl

theorem endRun_replicate (k : Nat) : endRun (List.replicate k '\\') = k := by
  simp [endRun]

theorem Enclosed.endRun_append {body : List Char} (h : Enclosed body) : ∀ before : List Char,
    endRun before % 2 = 0 → endRun (before ++ body) % 2 = 0 := by
  induction h with
  | nothing =>
    intro before heven
    rw [List.append_nil]
    exact heven
  | @taken c cs _ ih =>
    intro before heven
    rw [List.append_cons, List.append_cons]
    refine ih _ ?_
    rw [endRun_concat, endRun_concat, if_pos rfl]
    split <;> omega
  | @plain c cs hb _ _ ih =>
    intro before _
    rw [List.append_cons]
    refine ih _ ?_
    rw [endRun_concat, if_neg hb]

/-- **At the end of an enclosed text backslashes come in pairs.** -/
theorem Enclosed.endRun_even {body : List Char} (h : Enclosed body) : endRun body % 2 = 0 :=
  h.endRun_append [] rfl

/-! ## 4. Line ends behind backslashes -/

/-- **No line end of the text is taken by a backslash**: in front of each stands an even number of
    backslashes, or none. -/
def FreeLineEnds (t : List Char) : Prop :=
  ∀ before after : List Char, t = before ++ '\n' :: after → endRun before % 2 = 0

theorem freeLineEnds_of_not_mem {t : List Char} (h : '\n' ∉ t) : FreeLineEnds t := by
  rintro before after rfl
  exact absurd (List.mem_append_right before List.mem_cons_self) h

theorem freeLineEnds_replicate (k : Nat) : FreeLineEnds (List.replicate k '\\') :=
  freeLineEnds_of_not_mem fun h => absurd (List.eq_of_mem_replicate h) (by decide)

/-- **Line ends are free on both sides of a character** that is no backslash, and the character is
    free itself if it is a line end. -/
theorem freeLineEnds_append_cons_iff {c : Char} (hb : c ≠ '\\') {a b : List Char} :
    FreeLineEnds (a ++ c :: b) ↔
      FreeLineEnds a ∧ (c = '\n' → endRun a % 2 = 0) ∧ FreeLineEnds b := by
  constructor
  · intro h
    refine ⟨?_, ?_, ?_⟩
    · rintro before after rfl
      exact h before (after ++ c :: b) (by rw [List.append_assoc, List.cons_append])
    · rintro rfl
      exact h a b rfl
    · rintro before after rfl
      have heven := h (a ++ c :: before) after (by rw [List.append_assoc, List.cons_append])
      rwa [endRun_append_cons hb] at heven
  · rintro ⟨ha, hc, hrest⟩ before after heq
    rcases List.append_eq_append_iff.mp heq with ⟨d, rfl, hd⟩ | ⟨d, rfl, hd⟩
    · cases d with
      | nil =>
        rw [List.append_nil]
        exact hc (List.cons.inj hd).1
      | cons x d =>
        obtain ⟨rfl, rfl⟩ := List.cons.inj hd
        rw [endRun_append_cons hb]
        exact hrest d after rfl
    · cases d with
      | nil =>
        rw [List.append_nil] at hc
        exact hc (List.cons.inj hd).1.symm
      | cons x d =>
        obtain ⟨rfl, _⟩ := List.cons.inj hd
        exact ha before d rfl

/-- Behind a run of backslashes a character is free unless it is a line end and the run is odd. -/
theorem freeLineEnds_run_iff {c : Char} (hb : c ≠ '\\') {k : Nat} {rest : List Char} :
    FreeLineEnds (List.replicate k '\\' ++ c :: rest) ↔
      (c = '\n' → k % 2 = 0) ∧ FreeLineEnds rest := by
  rw [freeLineEnds_append_cons_iff hb, endRun_replicate, and_iff_right (freeLineEnds_replicate k)]

end SequenceChart.Text
