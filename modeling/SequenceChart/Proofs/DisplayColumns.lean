import SequenceChart.Proofs.Cutting

/-!
# Columns of a text and of its characters

The columns of a text are not the sum of those of its characters, and wrapping relies on both. This
file says what the two have to do with each other.

* `columns_space`: a space parts a text, and the columns of both parts add up. `Measure.Parted`
  are the measures of which this is so;
* `Measure.WidenedBy` are the measures for which a text takes no more columns than its characters
  take by themselves, but for one column more for each character that widens it.
  `display_widenedBy` says that the display columns are of this kind, with the `widening` characters:
  what a step counts and what is `due` then is bounded for each rule of the table.
-/

namespace SequenceChart.Text

open SequenceChart.Unicode

/-! ## 1. Spaces part a text -/

theorem scan_cons (c : Char) (t : List Char) :
    scan (c :: t) = ((step (scan t).2 c).1 + (scan t).1, (step (scan t).2 c).2) :=
  rfl

/-- A space takes one column whatever stands behind it, and the character before it does not see
    what that is. -/
theorem step_space (behind : Behind) : step behind ' ' = (behind.waiting + 1, .plain) := by
  have hspace : ∀ b, stepUnselected b ' ' = (b.waiting + 1, .plain) := fun _ => rfl
  cases behind with
  | selected s l =>
    have hbase : ¬ s.base.has ' ' = true := by cases s <;> decide
    have hwaiting : (Behind.ofLetter l).waiting = (Behind.selected s l).waiting := by
      cases l <;> rfl
    rw [step, if_neg hbase, hspace, hwaiting]
  | joinedStyle => rfl
  | _ => exact hspace _

theorem scan_append_of_plain {rest : List Char} (h : (scan rest).2 = .plain) :
    ∀ t : List Char, scan (t ++ rest) = ((scan t).1 + (scan rest).1, (scan t).2)
  | [] => Prod.ext (Nat.zero_add _).symm h
  | c :: t => by
      rw [List.cons_append, scan_cons, scan_cons, scan_append_of_plain h t, Nat.add_assoc]

/-- **A space parts a text**: nothing joins across it. -/
theorem columns_space (before after : List Char) :
    columns (before ++ ' ' :: after) = columns before + 1 + columns after := by
  have hspace : scan (' ' :: after) = (1 + columns after, .plain) := by
    rw [scan_cons, step_space]
    refine Prod.ext ?_ rfl
    show (scan after).2.waiting + 1 + (scan after).1 = 1 + ((scan after).1 + (scan after).2.waiting)
    omega
  unfold columns
  rw [scan_append_of_plain (by rw [hspace]), hspace]
  show (scan before).1 + (1 + columns after) + (scan before).2.waiting = _
  unfold columns
  omega

/-- A space takes one column and parts the text. -/
structure Measure.Parted (m : Measure) : Prop extends m.Sane where
  parts : ∀ before after, m.text (before ++ ' ' :: after) = m.text before + 1 + m.text after

theorem Measure.display_parted : Measure.display.Parted :=
  { Measure.display_sane with parts := columns_space }

/-! ## 2. Characters that widen a text -/

/-- A control character: it has no width by itself, but takes a column in a text. -/
def control (c : Char) : Bool :=
  c.toNat < 0x20 || (0x7F ≤ c.toNat && c.toNat < 0xA0)

/-- A character for which a text takes more columns than its characters: a control character, or a
    selector that makes a wide sign of the character before it. -/
def widening (c : Char) : Bool :=
  control c || c = emojiSelector || c = wideSelector

/-- The characters of a text that widen it, counted. -/
def surplus (widens : Char → Bool) (t : List Char) : Nat :=
  t.countP widens

theorem surplus_eq_zero_of_subset {widens : Char → Bool} {piece t : List Char} (hpiece : piece ⊆ t)
    (ht : surplus widens t = 0) : surplus widens piece = 0 :=
  List.countP_eq_zero.mpr fun c hc => List.countP_eq_zero.mp ht c (hpiece hc)

/-- A text takes no more columns than its characters take one by one, but for one column more for each
    character that widens it. -/
def Measure.WidenedBy (m : Measure) (widens : Char → Bool) : Prop :=
  ∀ t, m.text t ≤ charSum m.char t + surplus widens t

/-- What one character adds to the surplus. -/
def surplusOf (c : Char) : Nat :=
  if widening c then 1 else 0

theorem surplus_cons (c : Char) (t : List Char) :
    surplus widening (c :: t) = surplusOf c + surplus widening t := by
  unfold surplus
  rw [List.countP_cons, Nat.add_comm]
  rfl

/-! ## 3. One character -/

/-- A character that the table of those without columns does not list takes a column, by itself or as
    a surplus. -/
theorem one_le_of_not_zeroWidth {c : Char} (hshown : zeroWidth.has c = false) :
    1 ≤ charColumns c + surplusOf c := by
  by_cases hc : control c = true
  · have hsurplus : surplusOf c = 1 := if_pos (by rw [widening, hc, Bool.true_or, Bool.true_or])
    omega
  · have hown : 1 ≤ charColumns c := by
      show 1 ≤ if control c = true then 0 else _
      rw [if_neg hc, hshown, if_neg Bool.false_ne_true]
      split
      · exact Nat.le_refl 1
      · split
        · exact Nat.le_succ 1
        · split <;> omega
    omega

theorem not_zeroWidth_of_low {c : Char} (hc : c.toNat ≤ 0xA0) : zeroWidth.has c = false := by
  have hfrom : Ranges.ascendingFrom 0xAD zeroWidth = true := by decide +kernel
  unfold Ranges.has
  rw [Ranges.contains_eq_any _ _ _ hfrom]
  exact Ranges.any_eq_false_of_lt _ _ _ hfrom (by omega)

theorem Selector.not_zeroWidth_of_base {s : Selector} {c : Char} (hc : s.base.has c = true) :
    zeroWidth.has c = false := by
  cases s with
  | text => exact Ranges.not_contains_of_apart (by decide +kernel) hc
  | emoji => exact Ranges.not_contains_of_apart (by decide +kernel) hc
  | wide => exact Ranges.not_contains_of_apart (by decide +kernel) hc

/-! ## 4. One step -/

/-- The columns that a selector can add to the character before it, if that is not read yet. -/
def Selector.owed : Selector → Nat
  | .emoji | .wide => 1
  | .text => 0

/-- The columns that can still come for what is read already: those that a selector adds, and those
    that a joined flag has spared. -/
def Behind.owed : Behind → Nat
  | .selected s _ => s.owed
  | .joinedFlag => 2
  | _ => 0

/-- The columns that are still to be counted, at most. -/
def Behind.due (b : Behind) : Nat :=
  b.owed + b.waiting

/-- What a step counts, and what is due then, is no more than the character takes by itself and as a
    surplus, and what was due before. -/
def Covers (c : Char) (b : Behind) (seen : Nat × Behind) : Prop :=
  seen.1 + seen.2.due ≤ charColumns c + surplusOf c + b.due

/-- A rule counts no more than what was due, or one column more for a character that takes one. -/
theorem rules_within : ∀ r ∈ rules, r.columns + r.leaves.due ≤ r.behind.due ∨
    r.columns + r.leaves.due ≤ r.behind.due + 1 ∧ r.before.apart zeroWidth = true := by
  decide +kernel

theorem Rule.covers {r : Rule} (hr : r ∈ rules) {c : Char} (hc : r.before.has c = true) :
    Covers c r.behind (r.columns, r.leaves) := by
  show r.columns + r.leaves.due ≤ _
  cases rules_within r hr with
  | inl hdue => omega
  | inr hone =>
    have hshown := one_le_of_not_zeroWidth (Ranges.not_contains_of_apart hone.2 hc)
    omega

/-- What is due for a character by itself is a column that the character takes. -/
theorem marked_within : ∀ p ∈ marked, p.2.due = p.2.waiting ∧
    (p.2.waiting = 0 ∨ p.2.waiting = 1 ∧ p.1.apart zeroWidth = true) := by
  decide +kernel

theorem Behind.due_ofChar (c : Char) : (Behind.ofChar c).due = (Behind.ofChar c).waiting ∧
    (Behind.ofChar c).waiting ≤ charColumns c + surplusOf c := by
  unfold Behind.ofChar
  split
  · rename_i p hp
    obtain ⟨hdue, hwaiting⟩ := marked_within p (List.mem_of_find?_eq_some hp)
    refine ⟨hdue, ?_⟩
    cases hwaiting with
    | inl hnone => omega
    | inr hone =>
      have hc : p.1.has c = true := List.find?_some (p := fun q : Ranges × Behind => q.1.has c) hp
      have hshown := one_le_of_not_zeroWidth (Ranges.not_contains_of_apart hone.2 hc)
      omega
  · exact ⟨rfl, Nat.zero_le _⟩

theorem Behind.apart_covers (b : Behind) (c : Char) : Covers c b (b.apart c) := by
  obtain ⟨hdue, hwaiting⟩ := Behind.due_ofChar c
  show b.waiting + (charColumns c - (Behind.ofChar c).waiting) + (Behind.ofChar c).due ≤
    charColumns c + surplusOf c + (b.owed + b.waiting)
  omega

theorem stepBeyond_covers (b : Behind) (c : Char) : Covers c b (stepBeyond b c) := by
  unfold stepBeyond
  split
  · rename_i r hr
    have hrule := List.find?_some (p := fun r : Rule => r.behind = b && r.before.has c) hr
    simp only [Bool.and_eq_true, decide_eq_true_eq] at hrule
    exact hrule.1 ▸ Rule.covers (List.mem_of_find?_eq_some hr) hrule.2
  · split
    · rename_i l _
      split
      · -- what is due for a letter stays so for the letter behind a joiner
        have hjoiner : l.withJoiner.waiting = l.waiting := by cases l <;> rfl
        show 0 + (0 + (if c = joiner then l.withJoiner else l).waiting) ≤ _ + (0 + l.waiting)
        split <;> omega
      · exact Behind.apart_covers _ c
    · exact Behind.apart_covers b c

/-- A selector owes no more than its own column. -/
theorem Behind.select_le (s : Selector) (b : Behind) :
    (b.select s).1 + (b.select s).2.due ≤ s.owed + b.due := by
  unfold Behind.select
  split
  · rename_i l
    show 0 + (s.owed + l.waiting) ≤ s.owed + (0 + l.waiting)
    omega
  · cases s <;> decide
  · cases s <;> decide
  · show b.waiting + (s.owed + 0) ≤ s.owed + (b.owed + b.waiting)
    omega

theorem selectors_within : ∀ p ∈ selectors, p.2.owed ≤ surplusOf p.1 := by
  decide

/-- A selector that owes a column is a widening character. -/
theorem Selector.owed_le {s : Selector} {c : Char} (h : Selector.ofChar? c = some s) :
    s.owed ≤ surplusOf c := by
  obtain ⟨p, hp, rfl⟩ := Option.map_eq_some_iff.mp h
  have hc : p.1 = c :=
    of_decide_eq_true (List.find?_some (p := fun q : Char × Selector => decide (q.1 = c)) hp)
  exact hc ▸ selectors_within p (List.mem_of_find?_eq_some hp)

theorem stepUnselected_covers (b : Behind) (c : Char) : Covers c b (stepUnselected b c) := by
  unfold stepUnselected
  split
  · rename_i hlow
    have hshown := one_le_of_not_zeroWidth (not_zeroWidth_of_low hlow)
    split
    · exact Nat.zero_le _
    · have hdue : (if c = '\n' then Behind.lineFeed else Behind.plain).due = 0 := by
        split <;> rfl
      show b.waiting + 1 + (if c = '\n' then Behind.lineFeed else Behind.plain).due ≤
        _ + (b.owed + b.waiting)
      omega
  · split
    · rename_i s hs
      have hselect := b.select_le s
      have hsurplus := Selector.owed_le hs
      show (b.select s).1 + (b.select s).2.due ≤ _
      omega
    · exact stepBeyond_covers b c

/-- **One character more**: the columns that are counted are its own, a surplus, or due before. -/
theorem step_covers (b : Behind) (c : Char) : Covers c b (step b c) := by
  unfold step
  split
  · rename_i s l
    split
    · rename_i hbase
      have hshown := one_le_of_not_zeroWidth (Selector.not_zeroWidth_of_base hbase)
      have hcolumns : s.columns + s.leaves.due ≤ s.owed + 1 := by cases s <;> decide
      show (Behind.selected s l).waiting + s.columns + s.leaves.due ≤
        _ + (s.owed + (Behind.selected s l).waiting)
      omega
    · have hplain := stepUnselected_covers (.ofLetter l) c
      have hdue : (Behind.ofLetter l).due ≤ (Behind.selected s l).due := by
        cases l with
        | none => exact Nat.zero_le _
        | some l => exact Nat.add_le_add_right (Nat.zero_le _) _
      exact Nat.le_trans hplain (Nat.add_le_add_left hdue _)
  · split
    · exact Nat.zero_le _
    · exact stepUnselected_covers .plain c
  · exact stepUnselected_covers b c

/-! ## 5. Whole texts -/

theorem scan_le : ∀ t : List Char,
    (scan t).1 + (scan t).2.due ≤ charSum charColumns t + surplus widening t
  | [] => Nat.le_refl 0
  | c :: t => by
      have ih := scan_le t
      have hstep : (step (scan t).2 c).1 + (step (scan t).2 c).2.due ≤
          charColumns c + surplusOf c + (scan t).2.due := step_covers (scan t).2 c
      rw [scan_cons, surplus_cons, charSum]
      show (step (scan t).2 c).1 + (scan t).1 + (step (scan t).2 c).2.due ≤ _
      omega

/-- **A text takes no more columns than its characters**, but for its widening characters. -/
theorem Measure.display_widenedBy : Measure.display.WidenedBy widening := fun t =>
  Nat.le_trans (Nat.add_le_add_left (Nat.le_add_left _ _) _) (scan_le t)

end SequenceChart.Text
