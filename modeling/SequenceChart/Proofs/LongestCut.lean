import SequenceChart.Proofs.Cutting
import SequenceChart.Proofs.StableLines

/-!
# Where a word is cut

A word is cut behind the longest beginning that may be taken: one that stays in the limit, or a
single character, so that something is always taken.

* `MayTake` is this condition, and `prefix_cut_fst` says that what is cut off extends every beginning
  of the word that fulfils it;
* `LongestFit` lists what is asked of the two pieces of a word. `cut_longestFit` says that cutting
  gives such pieces, and `LongestFit.eq_cut` that there are no others;
* `isValid_cut` says of the word in UTF-8 that the cut falls between two characters.
-/

namespace SequenceChart.Text

/-! ## 1. Beginnings that may be taken -/

/-- A beginning of a word may be taken: it stays in the limit, or it is a single character. -/
def MayTake (char : Char → Nat) (limit : Nat) (p : List Char) : Prop :=
  charSum char p ≤ limit ∨ ∃ c, p = [c]

variable {char : Char → Nat} {limit : Nat}

/-- What exceeds the limit and may be taken all the same is a single character. -/
theorem MayTake.length_eq_one {p : List Char} (h : MayTake char limit p)
    (hwide : limit < charSum char p) : p.length = 1 := by
  cases h with
  | inl hfits => omega
  | inr hsingle =>
    obtain ⟨c, hc⟩ := hsingle
    rw [hc, List.length_singleton]

/-- **What is cut off extends every beginning of the word that may be taken.** -/
theorem prefix_cut_fst {p w : List Char} (hp : p <+: w) (h : MayTake char limit p) :
    p <+: (cut char limit w).1 := by
  have hcut : (cut char limit w).1 <+: w := ⟨(cut char limit w).2, cut_append char limit w⟩
  exact List.prefix_of_prefix_length_le hp hcut (cut_fst_longest hp h)

/-! ## 2. The two pieces -/

/-- **What is asked of the pieces of a word that is cut.** The first may be taken, and it may not
    with the next character added, unless there is no next character. -/
structure LongestFit (char : Char → Nat) (limit : Nat) (w head tail : List Char) : Prop where
  whole : head ++ tail = w
  progress : head = [] → w = []
  mayTake : MayTake char limit head
  full : ∀ c rest, tail = c :: rest → limit < charSum char (head ++ [c])

/-- Cutting gives such pieces. -/
theorem cut_longestFit (char : Char → Nat) (limit : Nat) (w : List Char) :
    LongestFit char limit w (cut char limit w).1 (cut char limit w).2 where
  whole := cut_append char limit w
  progress hnone := Classical.byContradiction fun hw => cut_fst_ne_nil char limit hw hnone
  mayTake := cut_fst_within char limit w
  full _ _ htail := cut_fst_full htail

/-- No longer beginning of the word than the first piece may be taken. -/
theorem LongestFit.length_le {w head tail p : List Char} (h : LongestFit char limit w head tail)
    (hp : p <+: w) (hmay : MayTake char limit p) : p.length ≤ head.length := by
  refine Nat.le_of_not_lt fun hlonger => ?_
  obtain ⟨more, rfl⟩ :=
    List.prefix_of_prefix_length_le ⟨tail, h.whole⟩ hp (Nat.le_of_lt hlonger)
  obtain ⟨after, hafter⟩ := hp
  cases more with
  | nil =>
    rw [List.append_nil] at hlonger
    omega
  | cons c more =>
    -- the character behind the first piece exceeds the limit already
    have htail : tail = c :: (more ++ after) := by
      have hwhole := h.whole.trans hafter.symm
      rwa [List.append_assoc, List.append_cancel_left_eq] at hwhole
    have hfull := h.full c (more ++ after) htail
    rw [charSum_append] at hfull
    have hone := hmay.length_eq_one (by simp only [charSum_append, charSum] at hfull ⊢; omega)
    rw [List.length_append, List.length_cons] at hone
    have hnone : w = [] := h.progress (List.length_eq_zero_iff.mp (by omega))
    rw [hnone] at hafter
    simp at hafter

/-- **There are no other pieces** of which this holds. -/
theorem LongestFit.eq_cut {w head tail : List Char} (h : LongestFit char limit w head tail) :
    cut char limit w = (head, tail) := by
  have hcut := cut_longestFit char limit w
  have hprefix : head <+: (cut char limit w).1 := prefix_cut_fst ⟨tail, h.whole⟩ h.mayTake
  have hlength := h.length_le ⟨_, hcut.whole⟩ hcut.mayTake
  have hhead : head = (cut char limit w).1 := hprefix.eq_of_length_le hlength
  have hwhole : (cut char limit w).1 ++ tail = (cut char limit w).1 ++ (cut char limit w).2 := by
    rw [← hhead, h.whole, hhead, hcut.whole]
  rw [hhead, List.append_cancel_left hwhole]

/-- In the word as UTF-8 the cut falls between two characters. -/
theorem isValid_cut (char : Char → Nat) (limit : Nat) (w : List Char) :
    (String.ofList (cut char limit w).1).rawEndPos.IsValid (String.ofList w) := by
  refine String.Pos.Raw.isValid_iff_exists_append.mpr
    ⟨_, String.ofList (cut char limit w).2, ?_, rfl⟩
  rw [← String.ofList_append, cut_append]

/-! ## 3. Cutting -/

/-- The width of a character, and 0 where it has none. -/
def orZero (width? : Char → Option Nat) (c : Char) : Nat :=
  (width? c).getD 0

/-- **A word is cut at the longest beginning that fits**, whatever the widths of the characters are,
    and also where the limit is 0. The pieces are the only ones that make up the word, take
    something of it, and leave the first piece in the limit, a single character excepted, but not
    with the next character added. The cut falls between two characters, no other beginning that
    may be taken is longer, and cutting the first piece again takes all of it. -/
theorem cut_takes_longest_fit (width? : Char → Option Nat) (limit : Nat) (w : List Char) :
    ∃ head tail, cut (orZero width?) limit w = (head, tail) ∧
      head ++ tail = w ∧
      (String.ofList head).rawEndPos.IsValid (String.ofList w) ∧
      (head = [] ↔ w = []) ∧
      (charSum (orZero width?) head ≤ limit ∨ ∃ c, head = [c]) ∧
      (∀ c rest, tail = c :: rest → limit < charSum (orZero width?) (head ++ [c])) ∧
      (∀ p, p <+: w → (charSum (orZero width?) p ≤ limit ∨ ∃ c, p = [c]) → p <+: head) ∧
      cut (orZero width?) limit head = (head, []) ∧
      ∀ h t, LongestFit (orZero width?) limit w h t ↔ h = head ∧ t = tail := by
  have hfit := cut_longestFit (orZero width?) limit w
  refine ⟨(cut (orZero width?) limit w).1, (cut (orZero width?) limit w).2, rfl, hfit.whole,
    isValid_cut _ limit w, ⟨hfit.progress, fun hw => ?_⟩, hfit.mayTake, hfit.full,
    fun p hp hmay => prefix_cut_fst hp hmay, cut_fst_again _ limit w,
    fun h t => ⟨fun hother => ?_, fun hsame => ?_⟩⟩
  · rw [hw, cut_nil]
  · rw [hother.eq_cut]
    exact ⟨rfl, rfl⟩
  · rw [hsame.1, hsame.2]
    exact hfit

/-- A character without columns stays with what is cut off before a character that is too wide, but
    not behind it: limit 1, and columns 0, 2, 0. -/
example : let char := fun c => if c = 'w' then 2 else 0
    cut char 1 ['a', 'w', 'b'] = (['a'], ['w', 'b']) ∧ cut char 1 ['w', 'b'] = (['w'], ['b']) := by
  decide

end SequenceChart.Text
