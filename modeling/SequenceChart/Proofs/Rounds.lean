import SequenceChart.Proofs.AddingUp

/-!
# Setting lines round by round

`layout` says which lines tokens are set in. Set one after the other they stand in a queue: every
round takes the first token off, and in two cases puts one back, the word itself where the current
line has to end in front of it, or what is left of it where it was cut.

* `Galley` is where the setting stands and `Galley.round` the next round. `Round` says what a round
  can do, and `Round.layout_eq` that it changes nothing of what comes out in the end;
* `Galley.left` counts the characters in the queue twice, and one more for a current line that is
  not empty. `Round.left_lt` says that it falls in each round, also where a token is put back, so
  that after so many rounds the queue is empty (`exists_rounds`);
* `lines_set_in_rounds` is about a whole segment: the rounds come to an end with its lines.
-/

namespace SequenceChart.Text

/-! ## 1. One round -/

/-- **Where the setting of a segment stands**: the lines that are finished, the current line, and
    the tokens that are still to be set. -/
structure Galley where
  above : List (List Char)
  line : List Char
  queue : List (List Char)
  deriving DecidableEq, Repr

/-- A text that is to be kept, unless it is empty. -/
def unlessEmpty (t : List Char) : List (List Char) :=
  if t = [] then [] else [t]

/-- **One round**: the first token of the queue is set, or the current line ends, or a word is cut.
    There is none if the queue is empty. -/
def Galley.round (m : Measure) (width : Nat) (g : Galley) : Option Galley :=
  match g.queue with
  | [] => none
  | t :: queue =>
    if m.text g.line + m.text t ≤ width then some ⟨g.above, g.line ++ t, queue⟩
    else if t = [' '] then some ⟨g.above ++ [g.line], [], queue⟩
    else if g.line ≠ [] then
      some ⟨g.above ++ unlessEmpty (dropLastSpace g.line), [], t :: queue⟩
    else
      some ⟨g.above ++ [(cut m.char width t).1], [], unlessEmpty (cut m.char width t).2 ++ queue⟩

/-- So many rounds, one after the other. -/
def Galley.rounds (m : Measure) (width : Nat) : Nat → Galley → Option Galley
  | 0, g => some g
  | n + 1, g => (g.round m width).bind (Galley.rounds m width n)

/-- Nothing is set yet of a segment. -/
def Galley.start (s : List Char) : Galley :=
  ⟨[], [], tokens s⟩

/-- The lines in the end. The current line is one of them if it is not empty, or the only one. -/
def Galley.lines (g : Galley) : List (List Char) :=
  if g.line ≠ [] ∨ g.above = [] then g.above ++ [g.line] else g.above

/-- **What a round can do.** -/
inductive Round (m : Measure) (width : Nat) : Galley → Galley → Prop where
  /-- The token goes on the current line. -/
  | take {above queue : List (List Char)} {line t : List Char}
      (hfits : m.text line + m.text t ≤ width) :
      Round m width ⟨above, line, t :: queue⟩ ⟨above, line ++ t, queue⟩
  /-- The current line ends at a space. -/
  | endAtSpace {above queue : List (List Char)} {line : List Char}
      (hfull : ¬ m.text line + m.text [' '] ≤ width) :
      Round m width ⟨above, line, [' '] :: queue⟩ ⟨above ++ [line], [], queue⟩
  /-- The current line ends in front of a word, which is put back. -/
  | putBack {above queue : List (List Char)} {line t : List Char}
      (hfull : ¬ m.text line + m.text t ≤ width) (hword : t ≠ [' ']) (hline : line ≠ []) :
      Round m width ⟨above, line, t :: queue⟩
        ⟨above ++ unlessEmpty (dropLastSpace line), [], t :: queue⟩
  /-- A word is cut, and what is left of it is put back. -/
  | cutWord {above queue : List (List Char)} {t : List Char}
      (hfull : ¬ m.text [] + m.text t ≤ width) (hword : t ≠ [' ']) :
      Round m width ⟨above, [], t :: queue⟩
        ⟨above ++ [(cut m.char width t).1], [], unlessEmpty (cut m.char width t).2 ++ queue⟩

variable {m : Measure} {width : Nat}

/-- There is a round as long as there is a token. -/
theorem exists_round (m : Measure) (width : Nat) {g : Galley} (hqueue : g.queue ≠ []) :
    ∃ g', g.round m width = some g' ∧ Round m width g g' := by
  obtain ⟨above, line, queue⟩ := g
  cases queue with
  | nil => exact absurd rfl hqueue
  | cons t queue =>
    by_cases hfits : m.text line + m.text t ≤ width
    · exact ⟨_, by simp only [Galley.round, if_pos hfits], .take hfits⟩
    · by_cases hspace : t = [' ']
      · subst hspace
        exact ⟨_, by simp only [Galley.round, if_neg hfits, if_true], .endAtSpace hfits⟩
      · by_cases hline : line = []
        · subst hline
          refine ⟨_, ?_, .cutWord hfits hspace⟩
          simp only [Galley.round, if_neg hfits, if_neg hspace, ne_eq, not_true, if_false]
        · refine ⟨_, ?_, .putBack hfits hspace hline⟩
          simp only [Galley.round, if_neg hfits, if_neg hspace, ne_eq, hline, not_false_iff, if_true]

theorem round_of_eq_some {g g' : Galley} (h : g.round m width = some g') : Round m width g g' := by
  have hqueue : g.queue ≠ [] := by
    intro hnone
    rw [Galley.round, hnone] at h
    cases h
  obtain ⟨next, hnext, hround⟩ := exists_round m width hqueue
  rw [hnext] at h
  exact Option.some.inj h ▸ hround

/-! ## 2. What comes out in the end -/

/-- **A round changes nothing of what comes out in the end**: the finished lines, and those that the
    layout gives for the current line and the queue. -/
theorem Round.layout_eq {g g' : Galley} (h : Round m width g g') :
    g'.above ++ layout m width g'.line g'.queue = g.above ++ layout m width g.line g.queue := by
  cases h with
  | @take above queue line t hfits =>
    have hset : layout m width line (t :: queue) = layout m width (line ++ t) queue := by
      rw [layout, if_pos hfits]
    rw [hset]
  | @endAtSpace above queue line hfull =>
    have hset : layout m width line ([' '] :: queue) = line :: layout m width [] queue := by
      rw [layout, if_neg hfull, if_pos rfl]
    rw [hset, List.append_assoc]
    rfl
  | @putBack above queue line t hfull hword hline =>
    have hset : layout m width line (t :: queue) =
        unlessEmpty (dropLastSpace line) ++ layout m width [] (t :: queue) := by
      rw [layout, if_neg hfull, if_neg hword, if_pos hline, unlessEmpty]
      split <;> rfl
    rw [hset, List.append_assoc]
  | @cutWord above queue t hfull hword =>
    have hset : layout m width [] (t :: queue) = (cut m.char width t).1 ::
        layout m width [] (unlessEmpty (cut m.char width t).2 ++ queue) := by
      rw [layout, if_neg hfull, if_neg hword, if_neg (not_not_intro rfl), unlessEmpty]
      split <;> rfl
    rw [hset, List.append_assoc]
    rfl

/-- The lines in the end are those of the segment. -/
theorem Galley.lines_eq {g : Galley} {s : List Char} (hqueue : g.queue = [])
    (h : g.above ++ layout m width g.line g.queue = layout m width [] (tokens s)) :
    g.lines = wrapSegment m width s := by
  unfold wrapSegment Galley.lines
  rw [← h, hqueue, layout]
  cases habove : g.above with
  | nil => by_cases hline : g.line = [] <;> simp [hline]
  | cons first above => by_cases hline : g.line = [] <;> simp [hline]

/-! ## 3. The end comes -/

/-- **What is left to do**: each character of the queue counts twice, since a token can be put back
    once before it is set. A line that is not empty can still put a token back. -/
def Galley.left (g : Galley) : Nat :=
  2 * g.queue.flatten.length + if g.line = [] then 0 else 1

theorem unlessEmpty_flatten (t : List Char) : (unlessEmpty t).flatten = t := by
  unfold unlessEmpty
  split <;> simp [*]

/-- No empty text is kept. -/
theorem nil_not_mem_unlessEmpty (t : List Char) : [] ∉ unlessEmpty t := by
  unfold unlessEmpty
  split <;> simp [*]

/-- No token is empty. -/
theorem nil_not_mem_tokens (s : List Char) : [] ∉ tokens s := by
  induction s with
  | nil => exact List.not_mem_nil
  | cons c s ih =>
    rw [tokens]
    split
    · simpa using ih
    · unfold consWord
      split
      · simp
      · split <;> simp_all

/-- No round puts an empty token into the queue. -/
theorem Round.nil_not_mem {g g' : Galley} (h : Round m width g g') (hg : [] ∉ g.queue) :
    [] ∉ g'.queue := by
  cases h with
  | take => exact fun hmem => hg (List.mem_cons_of_mem _ hmem)
  | endAtSpace => exact fun hmem => hg (List.mem_cons_of_mem _ hmem)
  | putBack => exact hg
  | cutWord =>
    intro hmem
    cases List.mem_append.mp hmem with
    | inl htail => exact nil_not_mem_unlessEmpty _ htail
    | inr hmem => exact hg (List.mem_cons_of_mem _ hmem)

/-- **In every round there is less left to do.** -/
theorem Round.left_lt {g g' : Galley} (h : Round m width g g') (hg : [] ∉ g.queue) :
    g'.left < g.left := by
  unfold Galley.left
  cases h with
  | @take above queue line t hfits =>
    have ht : 0 < t.length := by
      refine List.length_pos_iff.mpr fun hnone => hg ?_
      rw [hnone]
      exact List.mem_cons_self
    simp only [List.flatten_cons, List.length_append]
    split <;> split <;> omega
  | endAtSpace =>
    simp only [List.flatten_cons, List.length_append, List.length_singleton, if_true]
    omega
  | putBack hfull hword hline =>
    simp only [if_true, if_neg hline]
    omega
  | @cutWord above queue t hfull hword =>
    have ht : t ≠ [] := fun hnone => hg (hnone ▸ List.mem_cons_self)
    have hcut := cut_snd_length m.char width t ht
    simp only [List.flatten_append, unlessEmpty_flatten, List.flatten_cons, List.length_append]
    omega

/-- **The queue is empty in the end**, after no more rounds than there is left to do. -/
theorem exists_rounds (m : Measure) (width : Nat) (g : Galley) (hg : [] ∉ g.queue) :
    ∃ n last, n ≤ g.left ∧ g.rounds m width n = some last ∧ last.queue = [] ∧
      last.above ++ layout m width last.line last.queue =
        g.above ++ layout m width g.line g.queue := by
  induction hleft : g.left using Nat.strongRecOn generalizing g with
  | ind k ih =>
    by_cases hqueue : g.queue = []
    · exact ⟨0, g, Nat.zero_le k, rfl, hqueue, rfl⟩
    · obtain ⟨next, hnext, hround⟩ := exists_round m width hqueue
      have hlt := hround.left_lt hg
      rw [hleft] at hlt
      obtain ⟨n, last, hn, hlast, hend, hlayout⟩ := ih _ hlt next (hround.nil_not_mem hg) rfl
      refine ⟨n + 1, last, by omega, ?_, hend, hlayout.trans hround.layout_eq⟩
      rw [Galley.rounds, hnext]
      exact hlast

theorem Galley.left_start (s : List Char) : (Galley.start s).left = 2 * s.length := by
  simp [Galley.start, Galley.left, tokens_flatten]

/-- **What a round does to the queue.** It takes the first token off. A word is put back whole only
    where the current line held something and is empty now, and of a word that is cut only what is
    shorter. -/
theorem Round.queue_cases {g g' : Galley} (h : Round m width g g') :
    ∃ t queue, g.queue = t :: queue ∧
      (g'.queue = queue ∨
        (g'.queue = t :: queue ∧ t ≠ [' '] ∧ g.line ≠ [] ∧ g'.line = []) ∨
        ∃ tail, g'.queue = tail :: queue ∧ tail <:+ t ∧ tail.length < t.length ∧ g'.line = []) := by
  cases h with
  | take => exact ⟨_, _, rfl, .inl rfl⟩
  | endAtSpace => exact ⟨_, _, rfl, .inl rfl⟩
  | putBack hfull hword hline => exact ⟨_, _, rfl, .inr (.inl ⟨rfl, hword, hline, rfl⟩)⟩
  | @cutWord above queue t hfull hword =>
    refine ⟨t, queue, rfl, ?_⟩
    by_cases htail : (cut m.char width t).2 = []
    · refine .inl ?_
      simp [unlessEmpty, htail]
    · have ht : t ≠ [] := by
        intro hnone
        rw [hnone] at htail
        exact htail rfl
      refine .inr (.inr ⟨(cut m.char width t).2, ?_, ?_, cut_snd_length m.char width t ht, rfl⟩)
      · simp [unlessEmpty, htail]
      · exact ⟨(cut m.char width t).1, cut_append m.char width t⟩

/-! ## 4. Whole segments -/

/-- No line is set without a character of the text. -/
theorem Lines.length_le_text {text : List Char} {ps : List Stretch} (h : Lines m width text ps) :
    ps.length ≤ text.length := by
  induction h with
  | nothing => exact Nat.le_refl 0
  | cons hfirst _ ih =>
    have htext := congrArg List.length hfirst.text_append
    have hsome := List.length_pos_iff.mpr (Stretch.text_ne_nil hfirst.line_ne_nil)
    rw [List.length_append] at htext
    rw [List.length_cons]
    omega

/-- **Setting a segment in rounds comes to an end**, with the lines of the segment: after at most two
    rounds for each character the queue is empty. In each round a token leaves the queue for good,
    or a word is put back whole where the current line held something and is empty now, or what is
    left of a word is put back, and that is shorter. The lines are one empty line if the segment is
    empty; else there is a line, none is empty, and there are no more of them than characters. Of
    the width functions it is only assumed that the empty text takes no column and a space takes
    one. -/
theorem lines_set_in_rounds (hm : m.Sane) (hwidth : 1 ≤ width) (s : List Char) :
    (∃ n last, n ≤ 2 * s.length ∧ (Galley.start s).rounds m width n = some last ∧
        last.queue = [] ∧ last.lines = wrapSegment m width s) ∧
      (∀ g g' : Galley, g.round m width = some g' → ∃ t queue, g.queue = t :: queue ∧
        (g'.queue = queue ∨
          (g'.queue = t :: queue ∧ t ≠ [' '] ∧ g.line ≠ [] ∧ g'.line = []) ∨
          ∃ tail, g'.queue = tail :: queue ∧ tail <:+ t ∧ tail.length < t.length ∧
            g'.line = [])) ∧
      (s = [] → wrapSegment m width s = [[]]) ∧
      (s ≠ [] → [] ∉ wrapSegment m width s ∧ 1 ≤ (wrapSegment m width s).length ∧
        (wrapSegment m width s).length ≤ s.length) := by
  refine ⟨?_, fun g g' hround => (round_of_eq_some hround).queue_cases, fun hs => ?_, fun hs => ?_⟩
  · obtain ⟨n, last, hn, hlast, hend, hlayout⟩ :=
      exists_rounds m width (Galley.start s) (nil_not_mem_tokens s)
    rw [Galley.left_start] at hn
    exact ⟨n, last, hn, hlast, hend, Galley.lines_eq hend hlayout⟩
  · rw [hs, wrapSegment_nil]
  · obtain ⟨ps, hps, hlines⟩ := wrapSegment_lines hm hwidth hs
    have hsome := List.length_pos_iff.mpr (wrapSegment_ne_nil m width s)
    refine ⟨fun hempty => ?_, hsome, ?_⟩
    · rw [← hlines] at hempty
      obtain ⟨p, hp, hline⟩ := List.mem_map.mp hempty
      exact hps.forall (fun h => h.line_ne_nil) p hp hline
    · rw [← hlines, List.length_map]
      exact hps.length_le_text

/-- A text whose second word does not go on the first line, and is too wide for a line of its own. -/
theorem lines_set_in_rounds_cut :
    let s := " to unending".toList
    Measure.display.Sane ∧ 1 ≤ 4 ∧ s ≠ [] ∧
      (∃ n last, n ≤ 24 ∧ (Galley.start s).rounds .display 4 n = some last ∧
        last.queue = [] ∧ last.lines = wrapSegment .display 4 s) ∧
      [] ∉ wrapSegment .display 4 s ∧ (wrapSegment .display 4 s).length ≤ 12 := by
  intro s
  have hwidth : 1 ≤ 4 := by decide
  have hs : s ≠ [] := by decide
  obtain ⟨hrounds, _, _, hlines⟩ := lines_set_in_rounds Measure.display_sane hwidth s
  exact ⟨Measure.display_sane, hwidth, hs, hrounds, (hlines hs).1, (hlines hs).2.2⟩

/-- Six rounds for the same text: the space, the first word and the next space are set, the second
    word is put back, it is cut, and what is left of it is set. -/
example : (Galley.start " to unending".toList).rounds .display 4 6 =
    some ⟨[" to".toList, "unen".toList], "ding".toList, []⟩ := by
  decide

end SequenceChart.Text
