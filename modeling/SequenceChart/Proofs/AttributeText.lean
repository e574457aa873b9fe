import SequenceChart.Proofs.Identifiers
import SequenceChart.Proofs.Wrapping

/-!
# What an attribute value says

A text that is written as an attribute value is wrapped first, and each of its lines is escaped by
itself. A line may end anywhere, behind a backslash too, but what is written for it ends with
backslashes in pairs. So the line end behind it is free, and it is left where it is when the graph
language reads the value.

* `freeLineEnds_escapeLines` says that line ends between escaped lines are free;
* `identifier_escapeLines` says that the lines are read one by one;
* `attributeText_decodes` says what can be read back from an attribute value.
-/

namespace SequenceChart.Text

/-! ## 1. Lines that are escaped one by one -/

/-- **A line end between escaped lines is free**, since what stands before it ends with backslashes in
    pairs. -/
theorem freeLineEnds_escapeLines : ∀ {lines : List (List Char)}, (∀ l ∈ lines, '\n' ∉ l) →
    FreeLineEnds (escapeLines lines)
  | [], _ => freeLineEnds_of_not_mem List.not_mem_nil
  | [l], hclean => by
      rw [escapeLines_singleton]
      exact freeLineEnds_of_not_mem (not_mem_escape (hclean l List.mem_cons_self))
  | l :: l' :: lines, hclean => by
      have hl : FreeLineEnds (escape l) :=
        freeLineEnds_of_not_mem (not_mem_escape (hclean l List.mem_cons_self))
      have hrest := freeLineEnds_escapeLines fun x hx => hclean x (List.mem_cons_of_mem l hx)
      rw [escapeLines_cons_cons, freeLineEnds_append_cons_iff (by decide)]
      exact ⟨hl, fun _ => (enclosed_escape l).endRun_even, hrest⟩

/-- Characters disappear when an identifier is made, and none is added. -/
theorem identifier_sublist (t : List Char) : List.Sublist (identifier t) t := by
  induction t using identifier.induct with
  | case1 cs ih => exact (ih.cons_cons '"').cons '\\'
  | case2 cs ih => exact (ih.cons '\n').cons '\\'
  | case3 c cs hq hn ih =>
    rw [identifier_taken hq hn]
    exact (ih.cons_cons c).cons_cons '\\'
  | case4 c cs hquote hline hother ih =>
    rw [identifier]
    · exact ih.cons_cons c
    · exact hquote
    · exact hline
    · exact hother
  | case5 => exact .slnil

/-- **Escaped lines are read one by one**: what is read is the same for each line as if it stood alone. -/
theorem identifier_escapeLines : ∀ lines : List (List Char),
    identifier (escapeLines lines) =
      List.intercalate ['\n'] (lines.map fun l => identifier (escape l))
  | [] => rfl
  | [l] => by
      rw [escapeLines_singleton]
      exact List.intercalate_singleton.symm
  | l :: l' :: lines => by
      have ih := identifier_escapeLines (l' :: lines)
      rw [escapeLines_cons_cons, identifier_append (enclosed_escape l),
        identifier_plain (by decide), ih]
      exact (intercalate_lineEnd _ _ _).symm

/-! ## 2. Attribute values -/

/-- **An attribute value says the lines of the wrapped text.** Between its line ends stand as many
    pieces as there are lines, and each is read back as its line. The quote that is put behind it
    closes it, and no quote before. All its line ends are free, so that none of them disappears: of
    what the graph language makes of the value, the same lines are read. -/
theorem attributeText_decodes (m : Measure) (width : Nat) (t : List Char) :
    (splitLines (attributeText m width t)).length = (wrap m width t).length ∧
    (splitLines (attributeText m width t)).map unescape = wrap m width t ∧
    (∀ rest, untilQuote (attributeText m width t ++ '"' :: rest) =
      some (attributeText m width t, rest)) ∧
    FreeLineEnds (attributeText m width t) ∧
    (splitLines (identifier (attributeText m width t))).map unescape = wrap m width t := by
  have hne := wrap_ne_nil m width t
  have hclean : ∀ l ∈ wrap m width t, '\n' ∉ l :=
    fun l hl hmem => absurd (wrap_clean m width t l hl '\n' hmem) (by decide)
  have hlines : (splitLines (attributeText m width t)).map unescape = wrap m width t :=
    readLines_escapeLines hne hclean
  refine ⟨?_, hlines, fun rest => ?_, freeLineEnds_escapeLines hclean, ?_⟩
  · rw [← hlines, List.length_map]
  · exact (enclosed_escapeLines (wrap m width t)).untilQuote_append rest
  · have hread : ∀ l ∈ wrap m width t, '\n' ∉ identifier (escape l) := fun l hl hmem =>
      not_mem_escape (hclean l hl) ((identifier_sublist _).subset hmem)
    rw [attributeText, identifier_escapeLines]
    exact readLines_intercalate hne hread fun l hl =>
      unescape_identifier (freeLineEnds_of_not_mem (hclean l hl))

end SequenceChart.Text
