/-!
# Sets of characters as ranges of code points

A property of characters is written down as its ranges in ascending order. A look-up goes through
the ranges from the left and stops at the first range that lies above the code point; on
ascending ranges nothing is missed that way (`contains_eq_any`). Two properties that no character
has both of are two sets of ranges that are `apart`.
-/

namespace SequenceChart.Unicode

/-- Ranges of code points, each with its first and its last. -/
abbrev Ranges := List (Nat × Nat)

namespace Ranges

/-- The code point lies in one of the ranges. -/
def contains : Ranges → Nat → Bool
  | [], _ => false
  | (lo, hi) :: rs, n => if n < lo then false else n ≤ hi || contains rs n

/-- Every range lies wholly above the number `low` and above the ranges before it. -/
def ascendingFrom : Nat → Ranges → Bool
  | _, [] => true
  | low, (lo, hi) :: rs => low ≤ lo && lo ≤ hi && ascendingFrom (hi + 1) rs

/-- The ranges do not overlap and are in order. -/
def ascending (rs : Ranges) : Bool :=
  ascendingFrom 0 rs

/-- Nothing below the lower bound lies in ascending ranges. -/
theorem any_eq_false_of_lt : ∀ (rs : Ranges) (low n : Nat), ascendingFrom low rs = true → n < low →
    rs.any (fun r => r.1 ≤ n && n ≤ r.2) = false
  | [], _, _, _, _ => rfl
  | (lo, hi) :: rs, low, n, h, hn => by
      simp only [ascendingFrom, Bool.and_eq_true, decide_eq_true_eq] at h
      have ih := any_eq_false_of_lt rs (hi + 1) n h.2 (by omega)
      simp only [List.any_cons, ih, Bool.or_false, Bool.and_eq_false_iff, decide_eq_false_iff_not]
      omega

/-- **Stopping early loses nothing** on ascending ranges. -/
theorem contains_eq_any : ∀ (rs : Ranges) (low n : Nat), ascendingFrom low rs = true →
    rs.contains n = rs.any (fun r => r.1 ≤ n && n ≤ r.2)
  | [], _, _, _ => rfl
  | (lo, hi) :: rs, low, n, h => by
      simp only [ascendingFrom, Bool.and_eq_true, decide_eq_true_eq] at h
      have ih := contains_eq_any rs (hi + 1) n h.2
      by_cases hlo : n < lo
      · have := any_eq_false_of_lt rs (hi + 1) n h.2 (by omega)
        simp only [contains, hlo, if_true, List.any_cons, this, Bool.or_false]
        simp
        omega
      · simp only [contains, hlo, if_false, List.any_cons, ih]
        have : decide (lo ≤ n) = true := by simp; omega
        rw [this, Bool.true_and]

/-- Two sets of ranges in order, of which no range of one meets a range of the other. The lower of
    the two first ranges is passed over. -/
def apart : Ranges → Ranges → Bool
  | [], _ => true
  | _, [] => true
  | r :: rs, s :: ss =>
    if r.2 < s.1 then apart rs (s :: ss) else s.2 < r.1 && apart (r :: rs) ss
termination_by rs ss => rs.length + ss.length

/-- A code point lies in the first range or in the others, and not below the first. -/
theorem contains_cons {r : Nat × Nat} {rs : Ranges} {n : Nat} (h : contains (r :: rs) n = true) :
    r.1 ≤ n ∧ (n ≤ r.2 ∨ rs.contains n = true) := by
  rw [contains] at h
  split at h
  · cases h
  · rw [Bool.or_eq_true, decide_eq_true_eq] at h
    exact ⟨Nat.le_of_not_lt ‹_›, h⟩

/-- **No code point lies in both** of two sets of ranges that are apart. -/
theorem not_contains_of_apart {rs ss : Ranges} (h : apart rs ss = true) {n : Nat}
    (hn : rs.contains n = true) : ss.contains n = false := by
  refine Bool.eq_false_iff.mpr fun hn' => ?_
  induction rs, ss using apart.induct with
  | case1 ss => cases hn
  | case2 rs => cases hn'
  | case3 r rs s ss hlow ih =>
    rw [apart, if_pos hlow] at h
    have hs := (contains_cons hn').1
    rcases (contains_cons hn).2 with hr | hr
    · omega
    · exact ih h hr hn'
  | case4 r rs s ss hlow ih =>
    rw [apart, if_neg hlow, Bool.and_eq_true, decide_eq_true_eq] at h
    have hr := (contains_cons hn).1
    rcases (contains_cons hn').2 with hs | hs
    · omega
    · exact ih h.2 hn hs

end Ranges

/-- The character lies in one of the ranges. -/
def Ranges.has (rs : Ranges) (c : Char) : Bool :=
  rs.contains c.toNat

end SequenceChart.Unicode
