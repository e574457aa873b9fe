import SequenceChart.Proofs.AddingUp
import SequenceChart.Proofs.ColumnBound

/-!
# The layout is greedy

Where the columns of a text add up, a line takes as much of it as there is place for.

* `WordAt` is a word of a text, and `Found` says what the first line of the text does with it: the
  word stands on the line, or is cut there, or is left for the lines that follow;
* `CutUp` says how a word is cut that is wider than a line: no piece could be longer;
* `Greedy` puts together what makes a layout greedy: words that fit stay whole, wider words are cut
  up on lines of their own, no line ends before it must, and no line is too wide;
* `greedy_layout` says that the lines of every text are such a layout.
-/

namespace SequenceChart.Text

/-! ## 1. Words of a text -/

/-- **A word of a text**, with what stands before and behind it. -/
structure WordAt (text before w behind : List Char) : Prop where
  whole : text = before ++ (w ++ behind)
  solid : Solid w
  endsApart : EndsApart before
  beginsApart : BeginsApart behind

theorem WordAt.text_ne_nil {text before w behind : List Char} (h : WordAt text before w behind) :
    text ≠ [] := by
  intro hnone
  have hword := (List.append_eq_nil_iff.mp (h.whole.symm.trans hnone)).2
  exact h.solid.ne_nil (List.append_eq_nil_iff.mp hword).1

theorem EndsApart.eq_nil {a : List Char} (h : EndsApart a) (hno : ' ' ∉ a) : a = [] := by
  rcases h with rfl | ⟨b, rfl⟩
  · rfl
  · exact absurd (List.mem_append_right b List.mem_cons_self) hno

theorem BeginsApart.eq_nil {a : List Char} (h : BeginsApart a) (hno : ' ' ∉ a) : a = [] := by
  rcases h with rfl | ⟨b, rfl⟩
  · rfl
  · exact absurd List.mem_cons_self hno

/-- A text begins as the whole does. -/
theorem BeginsApart.left {a b : List Char} (h : BeginsApart (a ++ b)) : BeginsApart a := by
  cases a with
  | nil => exact .inl rfl
  | cons x a =>
    obtain ⟨after, hafter⟩ := h.resolve_left (List.cons_ne_nil x _)
    exact .inr ⟨a, by rw [(List.cons.inj hafter).1]⟩

/-- What stands behind a space ends as the whole does. -/
theorem EndsApart.of_space {a b : List Char} (h : EndsApart (a ++ ' ' :: b)) : EndsApart b := by
  obtain ⟨before, hbefore⟩ := h.resolve_left (by simp)
  rcases List.eq_nil_or_concat b with rfl | ⟨b, c, rfl⟩
  · exact .inl rfl
  · rw [List.concat_eq_append] at hbefore ⊢
    have hconcat : (a ++ ' ' :: b) ++ [c] = before ++ [' '] := by
      rw [List.append_assoc]
      exact hbefore
    rw [(List.append_singleton_inj.mp hconcat).2]
    exact endsApart_space b

/-- A word stands behind a given space of the text or in front of it. -/
theorem Solid.split_at_space {w a b before behind : List Char} (hw : Solid w)
    (h : a ++ ' ' :: b = before ++ (w ++ behind)) :
    (∃ c, before = a ++ ' ' :: c ∧ b = c ++ (w ++ behind)) ∨
      ∃ c, a = before ++ (w ++ c) ∧ behind = c ++ ' ' :: b := by
  rcases List.append_eq_append_iff.mp h with ⟨d, rfl, hd⟩ | ⟨d, rfl, hd⟩
  · cases d with
    | nil => exact absurd (.inr ⟨b, hd.symm⟩) (hw.not_beginsApart behind)
    | cons x d =>
      obtain ⟨rfl, hb⟩ := List.cons.inj hd
      exact .inl ⟨d, rfl, hb⟩
  · rcases List.append_eq_append_iff.mp hd with ⟨e, rfl, he⟩ | ⟨e, rfl, he⟩
    · exact .inr ⟨e, rfl, he⟩
    · cases e with
      | nil => exact .inr ⟨[], by rw [List.append_nil, List.append_nil], he.symm⟩
      | cons x e =>
        obtain ⟨rfl, _⟩ := List.cons.inj he
        exact absurd (List.mem_append_right d List.mem_cons_self) hw.no_space

/-- A word at the beginning of a text is part of each beginning that is followed by a space. -/
theorem Solid.begins {w l a b : List Char} (hw : Solid w) (hb : BeginsApart b)
    (h : l ++ b = w ++ a) : ∃ c, l = w ++ c ∧ a = c ++ b := by
  rcases List.append_eq_append_iff.mp h with ⟨c, rfl, rfl⟩ | ⟨c, rfl, rfl⟩
  · cases c with
    | nil => exact ⟨[], by rw [List.append_nil, List.append_nil], rfl⟩
    | cons x c =>
      obtain ⟨after, hspace⟩ := hb.resolve_left (List.cons_ne_nil x _)
      have hx : x = ' ' := (List.cons.inj hspace).1
      exact absurd (hx ▸ List.mem_append_right l List.mem_cons_self) hw.no_space
  · exact ⟨c, rfl, rfl⟩

/-- The words of a text that begins with a word are this one and those of the rest. -/
theorem WordAt.of_solid {w' rest before w behind : List Char}
    (h : WordAt (w' ++ rest) before w behind) (hw' : Solid w') (hrest : BeginsApart rest) :
    (before = [] ∧ w = w' ∧ behind = rest) ∨
      ∃ c, before = w' ++ (c ++ [' ']) ∧ rest = c ++ ' ' :: (w ++ behind) := by
  have hwhole := h.whole
  rcases h.endsApart with rfl | ⟨d, rfl⟩
  · obtain ⟨c, rfl, rfl⟩ := h.solid.begins hrest hwhole
    obtain rfl : c = [] := h.beginsApart.left.eq_nil fun hspace =>
      hw'.no_space (List.mem_append_right w hspace)
    exact .inl ⟨rfl, (List.append_nil w).symm, rfl⟩
  · rw [← List.append_cons] at hwhole
    obtain ⟨c, rfl, hafter⟩ := hw'.begins (beginsApart_space (w ++ behind)) hwhole.symm
    exact .inr ⟨c, List.append_assoc w' c [' '], hafter⟩

/-! ## 2. What the first line does with a word -/

variable {m : Measure} {width : Nat}

/-- **What the first line of a text does with a word** of it: `p` is the line, and `next` is where
    the next line begins. -/
inductive Found (m : Measure) (width : Nat) (p : Stretch) (next before w behind : List Char) :
    Prop where
  /-- The word stands on the line. -/
  | onLine {x y : List Char} (hfilled : Filled m width p.line) (hline : p.line = x ++ (w ++ y))
      (hbefore : before = List.replicate p.before ' ' ++ x) : Found m width p next before w behind
  /-- The word begins the line and is cut there. -/
  | cutOff (hwide : width < m.text w) (hbefore : before = List.replicate p.before ' ')
      (hline : p.line = (cut m.char width w).1) (hbehind : p.behind = 0)
      (hnext : next = (cut m.char width w).2 ++ behind) : Found m width p next before w behind
  /-- The word is left for the lines that follow. -/
  | later {before' : List Char} (hnext : WordAt next before' w behind)
      (hbefore : before = p.text ++ before') : Found m width p next before w behind

/-- A line that ends at a space has the words in front of the space. -/
theorem Filled.found_of_space {line next before w behind : List Char} (h : Filled m width line)
    (hw : WordAt (line ++ ' ' :: next) before w behind) :
    Found m width ⟨0, line, 1⟩ next before w behind := by
  rcases hw.solid.split_at_space hw.whole with ⟨c, rfl, hnext⟩ | ⟨c, hline, _⟩
  · have hc := hw.endsApart.of_space
    have hbefore : line ++ ' ' :: c = Stretch.text ⟨0, line, 1⟩ ++ c := by simp [Stretch.text]
    exact .later ⟨hnext, hw.solid, hc, hw.beginsApart⟩ hbefore
  · exact .onLine h hline rfl

/-- **Each word of a text is found**, on its first line or behind it. -/
theorem FirstLine.found {text next before w behind : List Char} {p : Stretch}
    (h : FirstLine m width text p next) (hw : WordAt text before w behind) :
    Found m width p next before w behind := by
  induction h generalizing before with
  | whole hne hline => exact .onLine hline hw.whole rfl
  | atSpace hne hline hfull => exact hline.found_of_space hw
  | atWord hne hline hsolid hrest hfull => exact hline.found_of_space hw
  | @cutWord w' rest hsolid hrest hwide =>
    rcases hw.of_solid hsolid hrest with ⟨rfl, rfl, rfl⟩ | ⟨c, rfl, hafter⟩
    · exact .cutOff hwide rfl rfl rfl rfl
    · have hbefore : w' ++ (c ++ [' ']) = Stretch.text ⟨0, (cut m.char width w').1, 0⟩ ++
          ((cut m.char width w').2 ++ (c ++ [' '])) := by
        conv => lhs; rw [← cut_append m.char width w']
        simp [Stretch.text]
      have hends : EndsApart ((cut m.char width w').2 ++ (c ++ [' '])) := by
        rw [← List.append_assoc]
        exact endsApart_space _
      refine .later ⟨?_, hw.solid, hends, hw.beginsApart⟩ hbefore
      rw [hafter, List.append_assoc, ← List.append_cons]
  | @behindSpace w' rest next p hsolid hrest hfull h ih =>
    rcases hw.solid.split_at_space (a := []) hw.whole with ⟨c, rfl, hnext⟩ | ⟨c, hnone, _⟩
    · cases ih ⟨hnext, hw.solid, hw.endsApart.of_space (a := []), hw.beginsApart⟩ with
      | onLine hfilled hline hbefore => exact .onLine hfilled hline (congrArg (' ' :: ·) hbefore)
      | cutOff hwide hbefore hline hbehind hcut =>
        exact .cutOff hwide (congrArg (' ' :: ·) hbefore) hline hbehind hcut
      | later hlater hbefore => exact .later hlater (congrArg (' ' :: ·) hbefore)
    · have hw' := (List.append_eq_nil_iff.mp (List.append_eq_nil_iff.mp hnone.symm).2).1
      exact absurd hw' hw.solid.ne_nil

/-- A word on a line that was filled is no wider than the width. -/
theorem Filled.word_fits (hm : m.Additive) {line x w y : List Char} (h : Filled m width line)
    (hline : line = x ++ (w ++ y)) : m.text w ≤ width := by
  have hpart : w <:+: line := ⟨x, y, by rw [hline, List.append_assoc]⟩
  exact Nat.le_trans (hm.le_of_infix hpart) (h.le hm)

/-- What is cut off a word keeps to the width, or it is a single character. -/
theorem Measure.Additive.within_cut (hm : m.Additive) (width : Nat) (w : List Char) :
    Within m width (cut m.char width w).1 := by
  unfold Within
  rw [hm.adds]
  exact cut_fst_within m.char width w

/-! ## 3. Words on the lines -/

/-- **A word stands whole on one line**, behind the text `before`. -/
inductive OnOneLine (ps : List Stretch) (before w : List Char) : Prop where
  | mk {ps₁ ps₂ : List Stretch} {p : Stretch} {x y : List Char} (hps : ps = ps₁ ++ p :: ps₂)
      (hline : p.line = x ++ (w ++ y))
      (hbefore : before = spanned ps₁ ++ (List.replicate p.before ' ' ++ x)) :
      OnOneLine ps before w

/-- **How a word is cut that is too wide**: `left` is what is left of it behind the pieces. -/
structure CutUp (m : Measure) (width : Nat) (w : List Char) (pieces : List (List Char))
    (left : List Char) : Prop where
  whole : pieces.flatten ++ left = w
  ne_nil : ∀ piece ∈ pieces, piece ≠ []
  within : ∀ piece ∈ pieces, Within m width piece
  /-- No piece could have taken one more character. -/
  maximal : ∀ {done more : List (List Char)} {piece rest : List Char} {c : Char},
    pieces = done ++ piece :: more → more.flatten ++ left = c :: rest →
      width < m.text (piece ++ [c])
  fits : m.text left ≤ width

/-- **A word is cut up on lines of its own**, behind the text `before`. What is left of it begins
    the line behind its pieces. -/
inductive OnItsOwn (m : Measure) (width : Nat) (ps : List Stretch) (before w : List Char) :
    Prop where
  | mk {ps₁ ps₂ : List Stretch} {spaces : Nat} {piece : List Char} {pieces : List (List Char)}
      {left : List Char}
      (hps : ps = ps₁ ++ ⟨spaces, piece, 0⟩ :: (pieces.map (fun piece => ⟨0, piece, 0⟩) ++ ps₂))
      (hbefore : before = spanned ps₁ ++ List.replicate spaces ' ')
      (hcut : CutUp m width w (piece :: pieces) left)
      (hleft : left = [] ∨ ∃ y behind ps₃, ps₂ = ⟨0, left ++ y, behind⟩ :: ps₃) :
      OnItsOwn m width ps before w

theorem OnOneLine.cons {ps : List Stretch} {before w : List Char} (h : OnOneLine ps before w)
    (p : Stretch) : OnOneLine (p :: ps) (p.text ++ before) w := by
  obtain ⟨hps, hline, hbefore⟩ := h
  exact .mk (congrArg (p :: ·) hps) hline
    (by rw [hbefore, spanned_cons, List.append_assoc])

theorem OnItsOwn.cons {ps : List Stretch} {before w : List Char} (h : OnItsOwn m width ps before w)
    (p : Stretch) : OnItsOwn m width (p :: ps) (p.text ++ before) w := by
  obtain ⟨hps, hbefore, hcut, hleft⟩ := h
  exact .mk (congrArg (p :: ·) hps) (by rw [hbefore, spanned_cons, List.append_assoc]) hcut hleft

/-- Nothing is cut off a word that fits. -/
theorem CutUp.nothing {w : List Char} (hfits : m.text w ≤ width) : CutUp m width w [] w where
  whole := rfl
  ne_nil := fun _ hpiece => absurd hpiece List.not_mem_nil
  within := fun _ hpiece => absurd hpiece List.not_mem_nil
  maximal := fun hpieces _ =>
    absurd hpieces.symm (List.append_ne_nil_of_right_ne_nil _ (List.cons_ne_nil _ _))
  fits := hfits

/-- A word is cut up by one cut and by cutting up what is left behind it. -/
theorem CutUp.cons (hm : m.Additive) {w left : List Char} {pieces : List (List Char)} (hw : w ≠ [])
    (h : CutUp m width (cut m.char width w).2 pieces left) :
    CutUp m width w ((cut m.char width w).1 :: pieces) left where
  whole := by rw [List.flatten_cons, List.append_assoc, h.whole, cut_append]
  ne_nil := List.forall_mem_cons.mpr ⟨cut_fst_ne_nil m.char width hw, h.ne_nil⟩
  within := List.forall_mem_cons.mpr ⟨hm.within_cut width w, h.within⟩
  maximal := by
    intro done more piece rest c hpieces hrest
    cases done with
    | nil =>
      obtain ⟨rfl, rfl⟩ := List.cons.inj hpieces
      rw [h.whole] at hrest
      rw [hm.adds]
      exact cut_fst_full hrest
    | cons d done => exact h.maximal (List.cons.inj hpieces).2 hrest
  fits := h.fits

/-- A word at the beginning of a text stands at the beginning of the first line, or is cut there. -/
theorem FirstLine.begins_with_word {w rest next : List Char} {p : Stretch}
    (h : FirstLine m width (w ++ rest) p next) (hw : Solid w) (hrest : BeginsApart rest) :
    (∃ y dropped, p = ⟨0, w ++ y, dropped⟩ ∧ Filled m width (w ++ y)) ∨
      (width < m.text w ∧ p = ⟨0, (cut m.char width w).1, 0⟩ ∧
        next = (cut m.char width w).2 ++ rest) := by
  obtain ⟨before, line, dropped⟩ := p
  obtain rfl : before = 0 := h.before_of_word hw
  cases h.found ⟨rfl, hw, .inl rfl, hrest⟩ with
  | @onLine x y hfilled hline hnone =>
    obtain rfl : x = [] := hnone.symm
    obtain rfl : line = w ++ y := hline
    exact .inl ⟨y, dropped, rfl, hfilled⟩
  | cutOff hwide _ hline hdropped hcut =>
    obtain rfl : dropped = 0 := hdropped
    obtain rfl : line = (cut m.char width w).1 := hline
    exact .inr ⟨hwide, rfl, hcut⟩
  | later _ hnone =>
    exact absurd (List.append_eq_nil_iff.mp hnone.symm).1 (Stretch.text_ne_nil h.line_ne_nil)

/-- **A text without spaces in front of the rest is cut up** on the lines it begins. -/
theorem Lines.cutUp (hm : m.Additive) (w : List Char) {behind : List Char} {ps : List Stretch}
    (h : Lines m width (w ++ behind) ps) (hw : ' ' ∉ w) (hbehind : BeginsApart behind) :
    ∃ pieces left qs, ps = pieces.map (fun piece => ⟨0, piece, 0⟩) ++ qs ∧
      CutUp m width w pieces left ∧
      (left = [] ∨ ∃ y dropped rs, qs = ⟨0, left ++ y, dropped⟩ :: rs) := by
  induction w using cutOffs.induct m width generalizing ps with
  | case1 w hwide ih =>
    have hsolid : Solid w := ⟨hwide.1, hw⟩
    have hne : w ++ behind ≠ [] := List.append_ne_nil_of_left_ne_nil hwide.1 behind
    obtain ⟨p, next, qs, rfl, hfirst, hnext⟩ := h.exists_first hne
    rcases hfirst.begins_with_word hsolid hbehind with ⟨y, _, _, hfilled⟩ | ⟨_, rfl, rfl⟩
    · exact absurd (hfilled.word_fits hm (List.nil_append _).symm) (Nat.not_le_of_lt hwide.2)
    · obtain ⟨pieces, left, rs, rfl, hcut, hleft⟩ :=
        ih hnext (hsolid.no_space_cut_snd m.char width)
      exact ⟨_ :: pieces, left, rs, rfl, hcut.cons hm hwide.1, hleft⟩
  | case2 w hnone =>
    have hfits : m.text w ≤ width := by
      by_cases hne : w = []
      · rw [hne]
        exact hm.sane.nil_le width
      · exact Nat.le_of_not_lt fun hwide => hnone ⟨hne, hwide⟩
    refine ⟨[], w, ps, rfl, .nothing hfits, ?_⟩
    by_cases hempty : w = []
    · exact .inl hempty
    · have hne : w ++ behind ≠ [] := List.append_ne_nil_of_left_ne_nil hempty behind
      obtain ⟨p, next, qs, rfl, hfirst, _⟩ := h.exists_first hne
      rcases hfirst.begins_with_word ⟨hempty, hw⟩ hbehind with ⟨y, dropped, rfl, _⟩ | ⟨hwide, _⟩
      · exact .inr ⟨y, dropped, qs, rfl⟩
      · exact absurd hfits (Nat.not_le_of_lt hwide)

/-- **A word that fits stays whole**, wherever it stands. -/
theorem Lines.onOneLine {text before w behind : List Char} {ps : List Stretch}
    (h : Lines m width text ps) (hw : WordAt text before w behind) (hfits : m.text w ≤ width) :
    OnOneLine ps before w := by
  induction h generalizing before with
  | nothing => exact absurd rfl hw.text_ne_nil
  | @cons text next p ps hfirst hnext ih =>
    cases hfirst.found hw with
    | onLine _ hline hbefore => exact .mk (List.nil_append _).symm hline hbefore
    | cutOff hwide => exact absurd hfits (Nat.not_le_of_lt hwide)
    | later hlater hbefore =>
      rw [hbefore]
      exact (ih hlater).cons p

/-- **A word that is wider than a line is cut up** on lines of its own, wherever it stands. -/
theorem Lines.onItsOwn (hm : m.Additive) {text before w behind : List Char} {ps : List Stretch}
    (h : Lines m width text ps) (hw : WordAt text before w behind) (hwide : width < m.text w) :
    OnItsOwn m width ps before w := by
  induction h generalizing before with
  | nothing => exact absurd rfl hw.text_ne_nil
  | @cons text next p ps hfirst hnext ih =>
    cases hfirst.found hw with
    | onLine hfilled hline _ => exact absurd (hfilled.word_fits hm hline) (Nat.not_le_of_lt hwide)
    | cutOff _ hbefore hline hbehind hcut =>
      obtain ⟨spaces, line, dropped⟩ := p
      obtain rfl : dropped = 0 := hbehind
      obtain rfl : line = (cut m.char width w).1 := hline
      obtain ⟨pieces, left, qs, rfl, hpieces, hleft⟩ :=
        (hcut ▸ hnext).cutUp hm _ (hw.solid.no_space_cut_snd m.char width) hw.beginsApart
      exact .mk (List.nil_append _).symm hbefore (hpieces.cons hm hw.solid.ne_nil) hleft
    | later hlater hbefore =>
      rw [hbefore]
      exact (ih hlater).cons p

/-! ## 4. Where lines end -/

/-- The text from the beginning of a line on: the line, the spaces that are dropped behind it, and
    the rest. -/
def Stretch.onward (p : Stretch) (rest : List Char) : List Char :=
  p.line ++ (List.replicate p.behind ' ' ++ rest)

theorem Stretch.text_append (p : Stretch) (rest : List Char) :
    p.text ++ rest = List.replicate p.before ' ' ++ p.onward rest := by
  rw [Stretch.text, Stretch.onward, List.append_assoc, List.append_assoc]

theorem exists_token {t : List Char} (h : t ≠ []) : ∃ token ts, tokens t = token :: ts :=
  List.exists_cons_of_ne_nil fun hnone => h (tokens_eq_nil hnone)

theorem FirstLine.onward_ne_nil {text next : List Char} {p : Stretch}
    (h : FirstLine m width text p next) : p.onward next ≠ [] :=
  fun hnone => h.line_ne_nil (List.append_eq_nil_iff.mp hnone).1

/-- A line that begins with a word has it as its first token, and nothing is dropped before it. -/
theorem FirstLine.opens_with_word {w rest next : List Char} {p : Stretch}
    (h : FirstLine m width (w ++ rest) p next) (hw : Solid w) (hrest : BeginsApart rest) :
    p.before = 0 ∧ tokens (p.onward next) = w :: tokens rest := by
  have hbefore := h.before_of_word hw
  have htext := h.text_append
  rw [Stretch.text_append, hbefore, List.replicate_zero, List.nil_append] at htext
  exact ⟨hbefore, by rw [htext, tokens_solid hw hrest]⟩

/-- **No line ends too early**: with the spaces that are dropped behind it, there is no place on it
    for the first token of the next line. -/
theorem FirstLine.full (hm : m.Additive) {text next next' : List Char} {p q : Stretch}
    (hp : FirstLine m width text p next) (hq : FirstLine m width next q next') :
    ∃ token ts, tokens (q.onward next') = token :: ts ∧
      width < m.text (p.line ++ (List.replicate (p.behind + q.before) ' ' ++ token)) := by
  induction hp with
  | whole => exact absurd rfl hq.text_ne_nil
  | @atSpace line rest hne hline hfull =>
    obtain ⟨token, ts, htoken⟩ := exists_token hq.onward_ne_nil
    refine ⟨token, ts, htoken, ?_⟩
    rw [Nat.add_comm, List.replicate_succ, List.cons_append, hm.append_space]
    exact Nat.lt_add_right _ hfull
  | @atWord line w rest hne hline hw hrest hfull =>
    obtain ⟨hbefore, htoken⟩ := hq.opens_with_word hw hrest
    refine ⟨w, _, htoken, ?_⟩
    rw [hm.append, hm.sane.space] at hfull
    rw [hbefore, List.replicate_succ, List.cons_append, hm.append_space]
    exact hfull
  | @cutWord w rest hw hrest hwide =>
    rw [← cut_append m.char width w] at hwide
    by_cases hleft : (cut m.char width w).2 = []
    · obtain ⟨token, ts, htoken⟩ := exists_token hq.onward_ne_nil
      refine ⟨token, ts, htoken, ?_⟩
      rw [hleft, List.append_nil] at hwide
      rw [hm.append]
      exact Nat.lt_add_right _ hwide
    · obtain ⟨hbefore, htoken⟩ := hq.opens_with_word (hw.cut_snd m.char hleft) hrest
      refine ⟨_, _, htoken, ?_⟩
      rw [hbefore]
      exact hwide
  | behindSpace hw hrest hfull h ih => exact ih hq

/-- **No line is too wide**, unless it is a single character. -/
theorem FirstLine.within (hm : m.Additive) {text next : List Char} {p : Stretch}
    (h : FirstLine m width text p next) : Within m width p.line := by
  induction h with
  | whole _ hline => exact .inl (hline.le hm)
  | atSpace _ hline => exact .inl (hline.le hm)
  | atWord _ hline => exact .inl (hline.le hm)
  | @cutWord w => exact hm.within_cut width w
  | behindSpace _ _ _ _ ih => exact ih

/-! ## 5. Greedy layouts -/

/-- **A greedy layout** of the text that the stretches take up. -/
structure Greedy (m : Measure) (width : Nat) (ps : List Stretch) : Prop where
  /-- A word that fits on a line stands whole on one. -/
  onOneLine : ∀ {before w behind : List Char}, WordAt (spanned ps) before w behind →
    m.text w ≤ width → OnOneLine ps before w
  /-- A wider word is cut up, beginning on a line of its own. -/
  onItsOwn : ∀ {before w behind : List Char}, WordAt (spanned ps) before w behind →
    width < m.text w → OnItsOwn m width ps before w
  /-- No line ends too early. -/
  full : ∀ {ps₁ ps₂ : List Stretch} {p q : Stretch}, ps = ps₁ ++ p :: q :: ps₂ →
    ∃ token ts, tokens (q.onward (spanned ps₂)) = token :: ts ∧
      width < m.text (p.line ++ (List.replicate (p.behind + q.before) ' ' ++ token))
  /-- No line is too wide, unless it is a single character. -/
  within : ∀ p ∈ ps, Within m width p.line

/-- The lines of a text are a greedy layout of it. -/
theorem Lines.greedy (hm : m.Additive) {text : List Char} {ps : List Stretch}
    (h : Lines m width text ps) : Greedy m width ps where
  onOneLine hw := h.onOneLine (h.spanned_eq ▸ hw)
  onItsOwn hw := h.onItsOwn hm (h.spanned_eq ▸ hw)
  full := by
    rintro ps₁ ps₂ p q rfl
    have hp := h.drop.uncons
    exact hp.1.full hm hp.2.uncons.1
  within := h.forall fun hp => hp.within hm

/-! ## 6. Going over from an additive measure -/

theorem Within.of_summed {line : List Char} (h : Within m.summed width line)
    (hadds : m.text line = m.summed.text line) : Within m width line := by
  unfold Within
  rw [hadds]
  exact h

theorem CutUp.of_summed {w left : List Char} {pieces : List (List Char)}
    (h : CutUp m.summed width w pieces left) (hadds : m.AddsOn w) :
    CutUp m width w pieces left := by
  have hpart : ∀ {done more : List (List Char)} {piece : List Char},
      pieces = done ++ piece :: more → w = done.flatten ++ (piece ++ (more.flatten ++ left)) := by
    rintro done more piece rfl
    rw [← h.whole, List.flatten_append, List.flatten_cons, List.append_assoc, List.append_assoc]
  refine ⟨h.whole, h.ne_nil, fun piece hpiece => ?_, fun hpieces hrest => ?_, ?_⟩
  · obtain ⟨done, more, hpieces⟩ := List.append_of_mem hpiece
    exact (h.within piece hpiece).of_summed (hadds.part (hpart hpieces))
  · have hw := hpart hpieces
    rw [hrest, List.append_cons] at hw
    rw [hadds.part hw]
    exact h.maximal hpieces hrest
  · rw [hadds.part (b := []) (by rw [List.append_nil, h.whole])]
    exact h.fits

/-- **A layout that is greedy for the columns of the characters** is greedy for those of the text,
    if they add up. -/
theorem Greedy.of_summed {ps : List Stretch} (h : Greedy m.summed width ps)
    (hadds : m.AddsOn (spanned ps)) : Greedy m width ps where
  onOneLine := by
    intro before w behind hw hfits
    rw [hadds.part hw.whole] at hfits
    exact h.onOneLine hw hfits
  onItsOwn := by
    intro before w behind hw hwide
    rw [hadds.part hw.whole] at hwide
    obtain ⟨hps, hbefore, hcut, hleft⟩ := h.onItsOwn hw hwide
    have hword : w <:+: spanned ps := ⟨before, behind, by rw [hw.whole, List.append_assoc]⟩
    exact .mk hps hbefore (hcut.of_summed (hadds.of_infix hword)) hleft
  full := by
    intro ps₁ ps₂ p q hps
    obtain ⟨token, ts, htoken, hfull⟩ := h.full hps
    refine ⟨token, ts, htoken, ?_⟩
    have honward : q.onward (spanned ps₂) = token ++ ts.flatten := by
      rw [← tokens_flatten (q.onward (spanned ps₂)), htoken, List.flatten_cons]
    have hspanned : spanned ps = (spanned ps₁ ++ List.replicate p.before ' ') ++
        ((p.line ++ (List.replicate (p.behind + q.before) ' ' ++ token)) ++ ts.flatten) := by
      rw [hps, spanned_append, spanned_cons, spanned_cons, Stretch.text_append, Stretch.onward,
        Stretch.text_append, honward, ← List.replicate_append_replicate]
      simp only [List.append_assoc]
    rw [hadds.part hspanned]
    exact hfull
  within := by
    intro p hp
    obtain ⟨ps₁, ps₂, hps⟩ := List.append_of_mem hp
    have hspanned : spanned ps = (spanned ps₁ ++ List.replicate p.before ' ') ++
        (p.line ++ (List.replicate p.behind ' ' ++ spanned ps₂)) := by
      rw [hps, spanned_append, spanned_cons, Stretch.text_append, Stretch.onward,
        List.append_assoc]
    exact (h.within p hp).of_summed (hadds.part hspanned)

/-! ## 7. Wrapped texts -/

/-- The lines of a segment are a greedy layout of it. -/
theorem exists_greedy (hm : m.Additive) (hwidth : 1 ≤ width) (s : List Char) :
    ∃ ps, ps.map Stretch.line = wrapSegment m width s ∧ spanned ps = s ∧ Greedy m width ps := by
  by_cases hs : s = []
  · have hempty : Greedy m width [⟨0, [], 0⟩] := by
      refine ⟨fun hw => absurd rfl hw.text_ne_nil, fun hw => absurd rfl hw.text_ne_nil,
        fun hps => ?_, fun p hp => ?_⟩
      · have hlength := congrArg List.length hps
        simp only [List.length_append, List.length_cons, List.length_nil] at hlength
        omega
      · rw [List.mem_singleton.mp hp]
        exact .inl (hm.sane.nil_le width)
    rw [hs, wrapSegment_nil]
    exact ⟨[⟨0, [], 0⟩], rfl, rfl, hempty⟩
  · obtain ⟨ps, hps, hlines⟩ := wrapSegment_lines hm.sane hwidth hs
    exact ⟨ps, hlines, hps.spanned_eq, hps.greedy hm⟩

/-- **Wrapping is the greedy layout.** The segments of a text are wrapped one by one, and the lines
    of each are a greedy layout of it: words that fit are on one line, wider words are cut up on
    lines of their own into pieces that could not be longer, no line ends before the next token
    exceeds the width, and no line exceeds it but a single character. All that is assumed is that
    the columns of the text add up, and that a space takes one. -/
theorem greedy_layout (m : Measure) {width : Nat} (hwidth : 1 ≤ width) {t : List Char}
    (hadds : m.AddsUp t) :
    wrap m width t = (segments (collapse t)).flatMap (wrapSegment m width) ∧
    ∀ s ∈ segments (collapse t), ∃ ps, ps.map Stretch.line = wrapSegment m width s ∧
      spanned ps = s ∧ Greedy m width ps := by
  refine ⟨wrap_of_width m hwidth t, fun s hs => ?_⟩
  have hsegment := hadds.pieces s hs
  obtain ⟨ps, hlines, hspanned, hgreedy⟩ := exists_greedy hadds.additive hwidth s
  rw [← wrapSegment_summed hsegment] at hlines
  exact ⟨ps, hlines, hspanned, hgreedy.of_summed (hspanned ▸ hsegment)⟩

/-- Words that fit, words that are cut between wide characters and behind a mark without columns,
    more than one space in a row, and a break. -/
theorem greedy_layout_mixed :
    let t := "a  bc 日本語 e\u0301toile\\n  d".toList
    1 ≤ 3 ∧ Measure.display.AddsUp t ∧
      ∀ s ∈ segments (collapse t), ∃ ps, ps.map Stretch.line = wrapSegment .display 3 s ∧
        spanned ps = s ∧ Greedy .display 3 ps := by
  intro t
  have hsteady : (collapse t).all steady = true := by decide +kernel
  have hadds : Measure.display.AddsUp t := Measure.display_addsUp (List.all_eq_true.mp hsteady)
  exact ⟨by decide, hadds, (greedy_layout .display (by decide) hadds).2⟩

end SequenceChart.Text
