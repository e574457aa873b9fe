import SequenceChart.Dot.Print

/-!
# Reading quoted texts back

The inverse of what `Text.escape` writes between quotes.

* a text falls into runs of backslashes and what stands behind them. `backslashes_induct` is the
  induction along it, and `escape_backslashes`, `escape_before_quote` and `escape_before` say what
  escaping makes of a run;
* `unescape` undoes the escaping (`unescape_escape`). How a run of backslashes is read depends on
  what stands behind it, so it counts the run before it decides;
* `readLines` reads the inside of an attribute value back into its lines (`readLines_escapeLines`).
-/

namespace SequenceChart.Text

/-! ## 1. Runs of backslashes -/

/-- **What holds of a text holds by its runs of backslashes**: each stands at the end, or in front of
    another character with a rest behind it. -/
theorem backslashes_induct {P : List Char → Prop} (atEnd : ∀ k, P (List.replicate k '\\'))
    (before : ∀ k c rest, c ≠ '\\' → P rest → P (List.replicate k '\\' ++ c :: rest)) :
    ∀ t, P t := by
  have hbehind : ∀ t k, P (List.replicate k '\\' ++ t) := by
    intro t
    induction t with
    | nil =>
      intro k
      rw [List.append_nil]
      exact atEnd k
    | cons c t ih =>
      intro k
      by_cases hb : c = '\\'
      · rw [hb, List.append_cons, ← List.replicate_succ']
        exact ih (k + 1)
      · exact before k c t hb (ih 0)
  exact fun t => hbehind t 0

theorem escapeFrom_run (cs : List Char) : ∀ k run : Nat,
    escapeFrom run (List.replicate k '\\' ++ cs) = escapeFrom (run + k) cs
  | 0, _ => rfl
  | k + 1, run => by
      rw [List.replicate_succ, List.cons_append, escapeFrom, if_pos rfl, escapeFrom_run cs k (run + 1),
        Nat.add_assoc, Nat.add_comm 1 k]

/-- At the end of a text backslashes are doubled. -/
theorem escape_backslashes (k : Nat) :
    escape (List.replicate k '\\') = List.replicate (2 * k) '\\' := by
  rw [escape, ← List.append_nil (List.replicate k '\\'), escapeFrom_run, escapeFrom, Nat.zero_add]

/-- In front of a quote backslashes are doubled, and the quote gets one more. -/
theorem escape_before_quote (k : Nat) (rest : List Char) :
    escape (List.replicate k '\\' ++ '"' :: rest) =
      List.replicate (2 * k) '\\' ++ '\\' :: '"' :: escape rest := by
  rw [escape, escapeFrom_run, escapeFrom, if_neg (by decide), if_pos rfl, Nat.zero_add]
  rfl

/-- In front of any other character backslashes stay as they are. -/
theorem escape_before {c : Char} (hb : c ≠ '\\') (hq : c ≠ '"') (k : Nat) (rest : List Char) :
    escape (List.replicate k '\\' ++ c :: rest) = List.replicate k '\\' ++ c :: escape rest := by
  rw [escape, escapeFrom_run, escapeFrom, if_neg hb, if_neg hq, Nat.zero_add]
  rfl

/-! ## 2. Undoing the escaping -/

/-- Undoes the escaping behind a run of backslashes that is not decided yet. In front of a quote
    and at the end half of the run stands for the other half; in front of any other character the
    run stands for itself. -/
def unescapeFrom : Nat → List Char → List Char
  | run, [] => List.replicate (run / 2) '\\'
  | run, c :: cs =>
    if c = '\\' then unescapeFrom (run + 1) cs
    else if c = '"' then List.replicate (run / 2) '\\' ++ '"' :: unescapeFrom 0 cs
    else List.replicate run '\\' ++ c :: unescapeFrom 0 cs

/-- **The text that an escaped text stands for.** -/
def unescape (raw : List Char) : List Char :=
  unescapeFrom 0 raw

theorem unescapeFrom_run (cs : List Char) : ∀ k run : Nat,
    unescapeFrom run (List.replicate k '\\' ++ cs) = unescapeFrom (run + k) cs
  | 0, _ => rfl
  | k + 1, run => by
      rw [List.replicate_succ, List.cons_append, unescapeFrom, if_pos rfl,
        unescapeFrom_run cs k (run + 1), Nat.add_assoc, Nat.add_comm 1 k]

theorem unescape_backslashes (k : Nat) :
    unescape (List.replicate k '\\') = List.replicate (k / 2) '\\' := by
  rw [unescape, ← List.append_nil (List.replicate k '\\'), unescapeFrom_run, unescapeFrom,
    Nat.zero_add]

theorem unescape_before_quote (k : Nat) (rest : List Char) :
    unescape (List.replicate k '\\' ++ '"' :: rest) =
      List.replicate (k / 2) '\\' ++ '"' :: unescape rest := by
  rw [unescape, unescapeFrom_run, unescapeFrom, if_neg (by decide), if_pos rfl, Nat.zero_add]
  rfl

theorem unescape_before {c : Char} (hb : c ≠ '\\') (hq : c ≠ '"') (k : Nat) (rest : List Char) :
    unescape (List.replicate k '\\' ++ c :: rest) = List.replicate k '\\' ++ c :: unescape rest := by
  rw [unescape, unescapeFrom_run, unescapeFrom, if_neg hb, if_neg hq, Nat.zero_add]
  rfl

/-- **Escaping can be undone.** -/
theorem unescape_escape (t : List Char) : unescape (escape t) = t := by
  induction t using backslashes_induct with
  | atEnd k =>
    rw [escape_backslashes, unescape_backslashes, Nat.mul_div_cancel_left k (by decide)]
  | before k c rest hb ih =>
    by_cases hq : c = '"'
    · have hhalf : (2 * k + 1) / 2 = k := by omega
      rw [hq, escape_before_quote, List.append_cons, ← List.replicate_succ', unescape_before_quote,
        hhalf, ih]
    · rw [escape_before hb hq, unescape_before hb hq, ih]

/-! ## 3. Lines of an attribute value -/

/-- The pieces of a text between line ends. -/
def splitLines : List Char → List (List Char)
  | [] => [[]]
  | c :: cs => if c = '\n' then [] :: splitLines cs else consHead c (splitLines cs)

/-- The lines that the inside of an attribute value stands for. -/
def readLines (raw : List Char) : List (List Char) :=
  (splitLines raw).map unescape

theorem splitLines_of_not_mem : ∀ {l : List Char}, '\n' ∉ l → splitLines l = [l]
  | [], _ => rfl
  | c :: cs, h => by
      have hc : c ≠ '\n' := fun e => h (e ▸ List.mem_cons_self)
      have ih := splitLines_of_not_mem fun hm => h (List.mem_cons_of_mem c hm)
      rw [splitLines, if_neg hc, ih]
      rfl

theorem splitLines_append : ∀ {l : List Char}, '\n' ∉ l → ∀ rest : List Char,
    splitLines (l ++ '\n' :: rest) = l :: splitLines rest
  | [], _, rest => by rw [List.nil_append, splitLines, if_pos rfl]
  | c :: cs, h, rest => by
      have hc : c ≠ '\n' := fun e => h (e ▸ List.mem_cons_self)
      have ih := splitLines_append (fun hm => h (List.mem_cons_of_mem c hm)) rest
      rw [List.cons_append, splitLines, if_neg hc, ih]
      rfl

theorem intercalate_lineEnd (l l' : List Char) (ls : List (List Char)) :
    List.intercalate ['\n'] (l :: l' :: ls) = l ++ '\n' :: List.intercalate ['\n'] (l' :: ls) := by
  rw [List.intercalate_cons_cons, List.append_assoc, List.singleton_append]

/-- Lines joined by line ends are told apart again. -/
theorem splitLines_intercalate : ∀ ls : List (List Char), ls ≠ [] → (∀ l ∈ ls, '\n' ∉ l) →
    splitLines (List.intercalate ['\n'] ls) = ls
  | [], h, _ => absurd rfl h
  | [l], _, h => by
      rw [List.intercalate_singleton]
      exact splitLines_of_not_mem (h l List.mem_cons_self)
  | l :: l' :: ls, _, h => by
      have ih := splitLines_intercalate (l' :: ls) (List.cons_ne_nil _ _)
        fun x hx => h x (List.mem_cons_of_mem l hx)
      rw [intercalate_lineEnd, splitLines_append (h l List.mem_cons_self), ih]

/-- Escaping adds quotes and backslashes only. -/
theorem mem_of_mem_escape {x : Char} (hx : x ≠ '\\') (hxq : x ≠ '"') {t : List Char}
    (h : x ∈ escape t) : x ∈ t := by
  have hrun : ∀ n, x ∉ List.replicate n '\\' := fun n hm => hx (List.eq_of_mem_replicate hm)
  induction t using backslashes_induct with
  | atEnd k =>
    rw [escape_backslashes] at h
    exact absurd h (hrun (2 * k))
  | before k c rest hb ih =>
    refine List.mem_append_right _ ?_
    by_cases hq : c = '"'
    · rw [hq, escape_before_quote, List.mem_append, or_iff_right (hrun _), List.mem_cons,
        or_iff_right hx, List.mem_cons, or_iff_right hxq] at h
      exact List.mem_cons_of_mem c (ih h)
    · rw [escape_before hb hq, List.mem_append, or_iff_right (hrun _), List.mem_cons] at h
      exact List.mem_cons.mpr (h.imp_right ih)

/-- No line end comes in with the escaping. -/
theorem not_mem_escape {l : List Char} (h : '\n' ∉ l) : '\n' ∉ escape l :=
  fun hmem => h (mem_of_mem_escape (by decide) (by decide) hmem)

/-- Lines that are written in some way, with line ends between them, are read back if each of them
    is, and if nothing that is written for a line holds a line end. -/
theorem readLines_intercalate {write : List Char → List Char} {lines : List (List Char)}
    (hne : lines ≠ []) (hclean : ∀ l ∈ lines, '\n' ∉ write l)
    (hread : ∀ l ∈ lines, unescape (write l) = l) :
    readLines (List.intercalate ['\n'] (lines.map write)) = lines := by
  have hmap : lines.map write ≠ [] := fun e => hne (List.map_eq_nil_iff.mp e)
  have hid : lines.map (unescape ∘ write) = lines.map id := List.map_congr_left hread
  unfold readLines
  rw [splitLines_intercalate _ hmap (List.forall_mem_map.mpr hclean), List.map_map, hid, List.map_id]

/-- **The lines of an attribute value can be read back**, when there is one at least and none
    holds a line end. -/
theorem readLines_escapeLines {lines : List (List Char)} (hne : lines ≠ [])
    (hclean : ∀ l ∈ lines, '\n' ∉ l) : readLines (escapeLines lines) = lines :=
  readLines_intercalate hne (fun l hl => not_mem_escape (hclean l hl)) fun l _ => unescape_escape l

end SequenceChart.Text
