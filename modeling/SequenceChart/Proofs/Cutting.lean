import SequenceChart.Proofs.Setting

/-!
# What is cut off a word

A word that is wider than a line is cut again and again, until what is left fits. Whether it fits is
measured on the whole rest, but where it is cut is found by adding up the columns of single
characters.

* `charSum` is that sum. `cut_fst_within` says that it stays in the limit for a piece that is cut
  off, unless the piece is a single character, and `cut_fst_longest` that no longer piece does;
* `cutOffs` are the pieces that are cut off one word, and `cutOffsIn` those of all words of a text.
-/

namespace SequenceChart.Text

/-- The columns of the characters of a text, each by itself. -/
def charSum (char : Char → Nat) : List Char → Nat
  | [] => 0
  | c :: t => char c + charSum char t

variable {char : Char → Nat} {limit : Nat}

theorem charSum_append (char : Char → Nat) (a b : List Char) :
    charSum char (a ++ b) = charSum char a + charSum char b := by
  induction a with
  | nil => exact (Nat.zero_add _).symm
  | cons c a ih => rw [List.cons_append, charSum, charSum, ih, Nat.add_assoc]

/-! ## 1. One cut -/

/-- Filling a line stays in the limit, if it was kept before. -/
theorem fill_fst_le : ∀ {used : Nat} (cs : List Char), used ≤ limit →
    used + charSum char (fill char limit used cs).1 ≤ limit
  | used, [], hused => hused
  | used, c :: cs, hused => by
      unfold fill
      split
      · exact hused
      · rename_i hfits
        have ih := fill_fst_le cs (Nat.le_of_not_lt hfits)
        rw [charSum]
        omega

/-- Nothing is taken behind a character that exceeds the limit, not even a character without
    columns. -/
theorem fill_of_lt {used : Nat} (hused : limit < used) : ∀ cs : List Char,
    fill char limit used cs = ([], cs)
  | [] => rfl
  | c :: cs => by
      rw [fill, if_pos (Nat.lt_add_right (char c) hused)]

/-- **What is cut off a word stays in the limit**, counted character by character, or it is a single
    character. -/
theorem cut_fst_within (char : Char → Nat) (limit : Nat) : ∀ w : List Char,
    charSum char (cut char limit w).1 ≤ limit ∨ ∃ c, (cut char limit w).1 = [c]
  | [] => .inl (Nat.zero_le limit)
  | c :: cs => by
      rw [cut]
      by_cases hwide : limit < char c
      · rw [fill_of_lt hwide]
        exact .inr ⟨c, rfl⟩
      · refine .inl ?_
        rw [charSum]
        exact fill_fst_le cs (Nat.le_of_not_lt hwide)

/-- Filling a line takes every beginning that stays in the limit. -/
theorem fill_fst_longest {used : Nat} {p cs : List Char} (hp : p <+: cs)
    (hfits : used + charSum char p ≤ limit) : p.length ≤ (fill char limit used cs).1.length := by
  induction p generalizing used cs with
  | nil => exact Nat.zero_le _
  | cons c p ih =>
    obtain ⟨after, rfl⟩ := hp
    rw [charSum] at hfits
    have hfirst : ¬ limit < used + char c := by omega
    have hrest := ih (List.prefix_append p after) (by rwa [← Nat.add_assoc] at hfits)
    rw [List.cons_append, fill, if_neg hfirst, List.length_cons, List.length_cons]
    exact Nat.succ_le_succ hrest

/-- **No beginning of the word that stays in the limit is longer** than what is cut off, and what is
    cut off is not empty. -/
theorem cut_fst_longest {p w : List Char} (hp : p <+: w)
    (hfits : charSum char p ≤ limit ∨ ∃ c, p = [c]) : p.length ≤ (cut char limit w).1.length := by
  cases p with
  | nil => exact Nat.zero_le _
  | cons c p =>
    obtain ⟨after, rfl⟩ := hp
    rw [List.cons_append, cut, List.length_cons, List.length_cons]
    refine Nat.succ_le_succ ?_
    rcases hfits with hfits | ⟨d, hsingle⟩
    · exact fill_fst_longest (List.prefix_append p after) hfits
    · rw [(List.cons.inj hsingle).2]
      exact Nat.zero_le _

/-- A piece that is cut off exceeds the limit with the next character. -/
theorem cut_fst_full {w rest : List Char} {c : Char} (h : (cut char limit w).2 = c :: rest) :
    limit < charSum char ((cut char limit w).1 ++ [c]) := by
  refine Nat.lt_of_not_le fun hfits => ?_
  have hprefix : (cut char limit w).1 ++ [c] <+: w := by
    refine ⟨rest, ?_⟩
    rw [List.append_assoc, List.singleton_append, ← h, cut_append]
  have hlonger := cut_fst_longest hprefix (.inl hfits)
  rw [List.length_append, List.length_singleton] at hlonger
  omega

/-! ## 2. All cuts of a word -/

/-- **The pieces that are cut off a word** until what is left fits. -/
def cutOffs (m : Measure) (width : Nat) (w : List Char) : List (List Char) :=
  if _h : w ≠ [] ∧ width < m.text w then
    (cut m.char width w).1 :: cutOffs m width (cut m.char width w).2
  else []
termination_by w.length
decreasing_by exact cut_snd_length m.char width w _h.1

variable {m : Measure} {width : Nat}

theorem cutOffs_of_fits {w : List Char} (hfits : m.text w ≤ width) : cutOffs m width w = [] := by
  rw [cutOffs, dif_neg fun h => Nat.not_le_of_lt h.2 hfits]

theorem cutOffs_of_wide {w : List Char} (hw : w ≠ []) (hwide : width < m.text w) :
    cutOffs m width w = (cut m.char width w).1 :: cutOffs m width (cut m.char width w).2 := by
  rw [cutOffs, dif_pos ⟨hw, hwide⟩]

theorem cutOffs_nil (m : Measure) (width : Nat) : cutOffs m width [] = [] := by
  rw [cutOffs, dif_neg fun h => h.1 rfl]

/-- Every piece is what one cut takes off an end of the word. -/
theorem mem_cutOffs {piece w : List Char} (h : piece ∈ cutOffs m width w) :
    ∃ rest, rest <:+ w ∧ piece = (cut m.char width rest).1 := by
  induction w using cutOffs.induct m width with
  | case1 w hwide ih =>
    rw [cutOffs_of_wide hwide.1 hwide.2] at h
    rcases List.mem_cons.mp h with rfl | h
    · exact ⟨w, List.suffix_refl w, rfl⟩
    · obtain ⟨rest, hrest, rfl⟩ := ih h
      refine ⟨rest, hrest.trans ?_, rfl⟩
      exact ⟨(cut m.char width w).1, cut_append m.char width w⟩
  | case2 w hnone =>
    rw [cutOffs, dif_neg hnone] at h
    exact absurd h List.not_mem_nil

/-- Only a word that is too wide is cut. -/
theorem wide_of_mem_cutOffs {piece w : List Char} (h : piece ∈ cutOffs m width w) :
    width < m.text w := by
  refine Nat.lt_of_not_le fun hfits => ?_
  rw [cutOffs_of_fits hfits] at h
  exact List.not_mem_nil h

/-- A piece that is cut off is made of characters of the word. -/
theorem subset_of_mem_cutOffs {piece w : List Char} (h : piece ∈ cutOffs m width w) :
    piece ⊆ w := by
  obtain ⟨rest, hrest, rfl⟩ := mem_cutOffs h
  refine fun c hc => hrest.subset ?_
  rw [← cut_append m.char width rest]
  exact List.mem_append_left _ hc

/-! ## 3. All words of a text -/

/-- The pieces that are cut off the words of a text, in order. -/
def cutOffsIn (m : Measure) (width : Nat) (s : List Char) : List (List Char) :=
  (s.splitOn ' ').flatMap (cutOffs m width)

theorem cutOffsIn_nil (m : Measure) (width : Nat) : cutOffsIn m width [] = [] := by
  show [[]].flatMap (cutOffs m width) = []
  rw [List.flatMap_singleton, cutOffs_nil]

theorem cutOffsIn_space (m : Measure) (width : Nat) (rest : List Char) :
    cutOffsIn m width (' ' :: rest) = cutOffsIn m width rest := by
  unfold cutOffsIn
  rw [splitOn_space, List.flatMap_cons, cutOffs_nil, List.nil_append]

theorem cutOffsIn_word {w rest : List Char} (hw : ' ' ∉ w) (hrest : BeginsApart rest) :
    cutOffsIn m width (w ++ rest) = cutOffs m width w ++ cutOffsIn m width rest := by
  unfold cutOffsIn
  rw [splitOn_word hw hrest, splitOn_beginsApart hrest]
  simp only [List.flatMap_cons, cutOffs_nil, List.nil_append, List.tail_cons]

/-- What is cut off a word first comes in front of what is cut off the rest. -/
theorem cutOffsIn_cut {w rest : List Char} (hw : Solid w) (hrest : BeginsApart rest)
    (hwide : width < m.text w) : cutOffsIn m width (w ++ rest) =
      (cut m.char width w).1 :: cutOffsIn m width ((cut m.char width w).2 ++ rest) := by
  rw [cutOffsIn_word hw.no_space hrest, cutOffsIn_word (hw.no_space_cut_snd m.char width) hrest,
    cutOffs_of_wide hw.ne_nil hwide, List.cons_append]

end SequenceChart.Text
