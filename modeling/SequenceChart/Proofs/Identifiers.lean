import Mathlib.Logic.ExistsUnique
import SequenceChart.Proofs.BoxNames
import SequenceChart.Proofs.Enclosed

/-!
# Names as the graph language understands them

Two participants are the same node if the graph language makes the same identifier of their quoted
names. It takes a backslash in front of a quote for that quote, and leaves other backslashes as they
are, with one exception: a backslash in front of a line end says that the line goes on, and both
disappear. Names are escaped, but their line ends are not looked at.

* `identifier` is what is made of the inside of quotes, and `nodeName` what is made of a quoted name;
* `unescape_identifier` says that a name can be found again if its line ends are free;
* `Joined` are the texts that come out, and `Joined.identifier_escape` says that each of them is the
  identifier of such a name;
* `names_with_free_line_ends_apart` says which names are told apart.
-/

namespace SequenceChart

open SequenceChart.Dot SequenceChart.Text

/-! ## 1. Identifiers -/

/-- **The identifier that the inside of quotes stands for.** A backslash with a quote behind it is the
    quote, one with a line end behind it disappears with the line end, and a pair of backslashes
    stays a pair, like every other character. -/
def Text.identifier : List Char → List Char
  | '\\' :: '"' :: cs => '"' :: identifier cs
  | '\\' :: '\n' :: cs => identifier cs
  | '\\' :: c :: cs => '\\' :: c :: identifier cs
  | c :: cs => c :: identifier cs
  | [] => []

/-- The identifier of the node that a quoted text names, if the text is closed. -/
def Text.nodeName : List Char → Option (List Char)
  | '"' :: cs => (untilQuote cs).map fun read => identifier read.1
  | _ => none

theorem Text.identifier_taken {c : Char} (hq : c ≠ '"') (hn : c ≠ '\n') (cs : List Char) :
    identifier ('\\' :: c :: cs) = '\\' :: c :: identifier cs := by
  rw [identifier]
  · exact hq
  · exact hn

theorem Text.identifier_plain {c : Char} (hb : c ≠ '\\') (cs : List Char) :
    identifier (c :: cs) = c :: identifier cs := by
  rw [identifier]
  · exact fun _ h => absurd h hb
  · exact fun _ h => absurd h hb
  · exact fun _ _ h => absurd h hb

/-- An enclosed text is understood by itself, whatever follows it. -/
theorem Text.identifier_append {body : List Char} (h : Enclosed body) (rest : List Char) :
    identifier (body ++ rest) = identifier body ++ identifier rest := by
  induction h with
  | nothing => rfl
  | @taken c cs _ ih =>
    by_cases hq : c = '"'
    · subst hq
      exact congrArg ('"' :: ·) ih
    · by_cases hn : c = '\n'
      · subst hn
        exact ih
      · rw [List.cons_append, List.cons_append, identifier_taken hq hn, identifier_taken hq hn, ih]
        rfl
  | @plain c cs hb _ _ ih =>
    rw [List.cons_append, identifier_plain hb, identifier_plain hb, ih]
    rfl

theorem Text.identifier_pairs (rest : List Char) : ∀ k : Nat,
    identifier (List.replicate (2 * k) '\\' ++ rest) =
      List.replicate (2 * k) '\\' ++ identifier rest
  | 0 => rfl
  | k + 1 => congrArg ('\\' :: '\\' :: ·) (identifier_pairs rest k)

theorem Text.identifier_backslashes (k : Nat) :
    identifier (List.replicate (2 * k) '\\') = List.replicate (2 * k) '\\' := by
  have hread := identifier_pairs [] k
  rwa [identifier, List.append_nil] at hread

/-- A run of backslashes in front of a character that is not taken stays as it is. -/
theorem Text.identifier_run {c : Char} (hb : c ≠ '\\') (hq : c ≠ '"') (rest : List Char) :
    ∀ k : Nat, (c = '\n' → k % 2 = 0) →
      identifier (List.replicate k '\\' ++ c :: rest) = List.replicate k '\\' ++ c :: identifier rest
  | 0, _ => identifier_plain hb rest
  | 1, hfree => identifier_taken hq (fun hn => absurd (hfree hn) (by decide)) rest
  | k + 2, hfree =>
    congrArg ('\\' :: '\\' :: ·) (identifier_run hb hq rest k fun hn => by
      have := hfree hn
      omega)

theorem Text.nodeName_quoted (a : List Char) :
    nodeName (quoted a) = some (identifier (escape a)) := by
  have hread : untilQuote (escape a ++ ['"']) = some (escape a, []) :=
    (enclosed_escape a).untilQuote_append []
  show (untilQuote (escape a ++ ['"'])).map _ = _
  rw [hread]
  rfl

/-! ## 2. Names that are found again -/

/-- **A name whose line ends are free is found again** from its identifier. -/
theorem Text.unescape_identifier {t : List Char} (h : FreeLineEnds t) :
    unescape (identifier (escape t)) = t := by
  induction t using backslashes_induct with
  | atEnd k =>
    rw [escape_backslashes, identifier_backslashes, unescape_backslashes,
      Nat.mul_div_cancel_left k (by decide)]
  | before k c rest hb ih =>
    obtain ⟨hfree, hrest⟩ := (freeLineEnds_run_iff hb).mp h
    by_cases hq : c = '"'
    · rw [hq, escape_before_quote, identifier_pairs, identifier, unescape_before_quote,
        Nat.mul_div_cancel_left k (by decide), ih hrest]
    · rw [escape_before hb hq, identifier_run hb hq _ k hfree, unescape_before hb hq, ih hrest]

/-- **What identifiers are like**: in front of quotes and line ends, and at the end, stand even
    numbers of backslashes. -/
inductive Text.Joined : List Char → Prop where
  | atEnd (k : Nat) (heven : k % 2 = 0) : Joined (List.replicate k '\\')
  | before (k : Nat) {c : Char} {rest : List Char} (hb : c ≠ '\\')
      (heven : c = '"' ∨ c = '\n' → k % 2 = 0) (h : Joined rest) :
      Joined (List.replicate k '\\' ++ c :: rest)

theorem Text.Joined.pair {t : List Char} (h : Joined t) : Joined ('\\' :: '\\' :: t) := by
  cases h with
  | atEnd k heven => exact .atEnd (k + 2) (by omega)
  | before k hb heven h =>
    refine .before (k + 2) hb (fun hc => ?_) h
    have := heven hc
    omega

theorem Text.Enclosed.joined {body : List Char} (h : Enclosed body) : Joined (identifier body) := by
  induction h with
  | nothing => exact .atEnd 0 rfl
  | @taken c cs _ ih =>
    by_cases hq : c = '"'
    · subst hq
      exact .before 0 (by decide) (fun _ => rfl) ih
    · by_cases hn : c = '\n'
      · subst hn
        exact ih
      · rw [identifier_taken hq hn]
        by_cases hb : c = '\\'
        · rw [hb]
          exact ih.pair
        · exact .before 1 hb (fun hc => absurd hc (not_or.mpr ⟨hq, hn⟩)) ih
  | @plain c cs hb _ _ ih =>
    rw [identifier_plain hb]
    exact .before 0 hb (fun _ => rfl) ih

/-- **Every identifier is that of a name whose line ends are free.** -/
theorem Text.Joined.identifier_escape {t : List Char} (h : Joined t) :
    identifier (escape (unescape t)) = t := by
  induction h with
  | atEnd k heven =>
    rw [unescape_backslashes, escape_backslashes, identifier_backslashes,
      Nat.mul_div_cancel' (Nat.dvd_of_mod_eq_zero heven)]
  | @before k c rest hb heven _ ih =>
    by_cases hq : c = '"'
    · subst hq
      rw [unescape_before_quote, escape_before_quote, identifier_pairs, identifier, ih,
        Nat.mul_div_cancel' (Nat.dvd_of_mod_eq_zero (heven (.inl rfl)))]
    · rw [unescape_before hb hq, escape_before hb hq,
        identifier_run hb hq _ k fun hn => heven (.inr hn), ih]

theorem Text.Joined.freeLineEnds {t : List Char} (h : Joined t) : FreeLineEnds (unescape t) := by
  induction h with
  | atEnd k _ =>
    rw [unescape_backslashes]
    exact freeLineEnds_replicate (k / 2)
  | @before k c rest hb heven _ ih =>
    by_cases hq : c = '"'
    · subst hq
      rw [unescape_before_quote]
      exact (freeLineEnds_run_iff (by decide)).mpr ⟨fun hn => absurd hn (by decide), ih⟩
    · rw [unescape_before hb hq]
      exact (freeLineEnds_run_iff hb).mpr ⟨fun hn => heven (.inr hn), ih⟩

/-! ## 3. Which names are told apart -/

theorem Text.eq_of_nodeName_eq {a b : List Char} (ha : FreeLineEnds a) (hb : FreeLineEnds b)
    (h : nodeName (quoted a) = nodeName (quoted b)) : a = b := by
  rw [nodeName_quoted, nodeName_quoted] at h
  rw [← unescape_identifier ha, Option.some.inj h, unescape_identifier hb]

/-- **Names with free line ends are told apart.** Two such names are different nodes if they are
    different. Every other name is the same node as exactly one such name, so that this says of any
    two names whether they are told apart. And in the graph that is read back from a rendering all
    participants with different names are different nodes, if the chart makes use of such names only. -/
theorem names_with_free_line_ends_apart :
    (∀ a b, FreeLineEnds a → FreeLineEnds b → a ≠ b → nodeName (quoted a) ≠ nodeName (quoted b)) ∧
    (∀ a, ∃! b, FreeLineEnds b ∧ nodeName (quoted b) = nodeName (quoted a)) ∧
    ∀ (c : Chart) (width : Nat), (∀ name, c.Mentions name → FreeLineEnds name.toList) →
      ∃ g, Graph.read? (c.renderLenient width) = some g ∧
        ∀ a ∈ g.participants, ∀ b ∈ g.participants, a ≠ b →
          nodeName (quoted a.toList) ≠ nodeName (quoted b.toList) := by
  refine ⟨fun a b ha hb hne h => hne (eq_of_nodeName_eq ha hb h), fun a => ?_, fun c width h => ?_⟩
  · have hjoined := (enclosed_escape a).joined
    have hread : nodeName (quoted (unescape (identifier (escape a)))) = nodeName (quoted a) := by
      rw [nodeName_quoted, nodeName_quoted, hjoined.identifier_escape]
    refine ⟨unescape (identifier (escape a)), ⟨hjoined.freeLineEnds, hread⟩, fun b hb => ?_⟩
    exact eq_of_nodeName_eq hb.1 hjoined.freeLineEnds (hb.2.trans hread.symm)
  · have hfree : ∀ name ∈ (c.normal.graph width).participants, FreeLineEnds name.toList :=
      fun name hname => h name (Chart.mentions_of_normal ((c.normal.mem_participants width).mp hname))
    refine ⟨_, c.read?_graph width, fun a ha b hb hne heq => hne ?_⟩
    exact String.toList_inj.mp (eq_of_nodeName_eq (hfree a ha) (hfree b hb) heq)

/-- A chart with two entities, one of which is called as the other but for a line that goes on. -/
def continued : Chart where
  entities := [{ name := "a\\\nb" }, { name := "ab" }]
  rows := []

/-- The two entities of this chart have different names, and they are one node. -/
theorem continued_merged :
    ∃ g, Graph.read? (continued.renderLenient 40) = some g ∧
      g.participants = ["a\\\nb", "ab"] ∧ "a\\\nb".toList ≠ "ab".toList ∧
      nodeName (quoted "a\\\nb".toList) = some "ab".toList ∧
      nodeName (quoted "ab".toList) = some "ab".toList := by
  have hnames : (continued.normal.graph 40).participants = ["a\\\nb", "ab"] := by decide
  exact ⟨_, continued.read?_graph 40, hnames, by decide, by decide, by decide⟩

end SequenceChart
