import SequenceChart.Proofs.Outline
import SequenceChart.Proofs.TextOrder

/-!
# Numbers of arcs

A graph numbers the arcs it is drawn for from 1 on. This file says which arc has which number and
where the number shows:

* `Arc.headings` are the statements that an arc itself gives rise to: its edge or box, and the
  opening of a cluster where it is a container. `inOrder_outline` says that a graph consists of
  these, one arc of the walk after the other, and that an arc's number is its place on the walk;
* `ShowsNumber` says where the number shows: in front of the label of an edge, or in the name of a
  box;
* `nodup_names` says that names made from the numbers never meet, and `nodup_boxNames` and
  `nodup_clusterNames` say so of the boxes and the clusters of a graph.
-/

namespace SequenceChart

open SequenceChart.Dot

/-! ## 1. Every arc of the walk in its place -/

/-- The figure of an arc is no cluster. -/
theorem Arc.inOrder_figure (width n : Nat) (a : Arc) :
    (a.figure width n).inOrder = [a.figure width n] := by
  unfold Arc.figure
  split <;> rfl

/-- The statements that an arc with a number gives rise to itself. -/
def Arc.headings (width : Nat) (p : Arc × Nat) : List Statement :=
  p.1.figure width p.2 :: if p.1.container then [.cluster p.2 p.1.caption []] else []

/-- The headings of arcs that are numbered from `n` on. -/
def headingsFrom (width n : Nat) (arcs : List Arc) : List Statement :=
  (arcs.zipIdx n).flatMap (Arc.headings width)

theorem headingsFrom_cons (width n : Nat) (a : Arc) (arcs : List Arc) :
    headingsFrom width n (a :: arcs) =
      Arc.headings width (a, n) ++ headingsFrom width (n + 1) arcs := rfl

theorem headingsFrom_append (width n : Nat) (arcs others : List Arc) :
    headingsFrom width n (arcs ++ others) =
      headingsFrom width n arcs ++ headingsFrom width (n + arcs.length) others := by
  unfold headingsFrom
  rw [List.zipIdx_append, List.flatMap_append]

mutual

/-- **The statements of an arc are the headings of the arcs drawn for it**, numbered one after the
    other on the walk. -/
theorem Arc.inOrder_outline (width n : Nat) : ∀ a : Arc,
    Statement.allInOrder (a.outline width n) = headingsFrom width n (a.reached Arc.wellFormed)
  | ⟨k, s, t, l, p, none⟩ => by
      by_cases h : (Arc.mk k s t l p none).wellFormed = true
      · rw [Arc.outline_eq, if_pos h, Arc.reached_of_pass Arc.wellFormed h, headingsFrom_cons]
        show (Arc.figure width n _).inOrder ++ [] = _
        rw [Arc.inOrder_figure]
        rfl
      · rw [Arc.outline_eq, if_neg h, Arc.reached_of_fail Arc.wellFormed h]
        rfl
  | ⟨k, s, t, l, p, some rows⟩ => by
      by_cases h : (Arc.mk k s t l p (some rows)).wellFormed = true
      · have hrows := Arc.inOrder_rowsOutline width (n + 1) rows
        rw [Arc.outline_eq, if_pos h, Arc.reached_of_pass Arc.wellFormed h, headingsFrom_cons]
        show (Arc.figure width n _).inOrder ++
          (.cluster n _ [] :: Statement.allInOrder (Arc.rowsOutline width (n + 1) rows) ++ []) = _
        rw [Arc.inOrder_figure, hrows, List.append_nil]
        rfl
      · rw [Arc.outline_eq, if_neg h, Arc.reached_of_fail Arc.wellFormed h]
        rfl

theorem Arc.inOrder_rowsOutline (width n : Nat) : ∀ rows : List Row,
    Statement.allInOrder (Arc.rowsOutline width n rows) =
      headingsFrom width n (rows.flatten.flatMap (Arc.reached Arc.wellFormed))
  | [] => rfl
  | row :: rows => by
      have hrow := Arc.inOrder_rowOutline width n row
      have hrows := Arc.inOrder_rowsOutline width (n + drawnAmong row) rows
      rw [Arc.rowsOutline, Statement.allInOrder_append, hrow, hrows, List.flatten_cons,
        List.flatMap_append, headingsFrom_append]
      rfl

theorem Arc.inOrder_rowOutline (width n : Nat) : ∀ row : Row,
    Statement.allInOrder (Arc.rowOutline width n row) =
      headingsFrom width n (row.flatMap (Arc.reached Arc.wellFormed))
  | [] => rfl
  | a :: row => by
      have ha := Arc.inOrder_outline width n a
      have hrow := Arc.inOrder_rowOutline width (n + a.drawnCount) row
      rw [Arc.rowOutline, Statement.allInOrder_append, ha, hrow, List.flatMap_cons,
        headingsFrom_append]
      rfl

end

/-- Every item of a list has a number. -/
theorem exists_zipIdx_of_mem {α : Type} {l : List α} {x : α} (h : x ∈ l) (n : Nat) :
    ∃ k, (x, k) ∈ l.zipIdx n := by
  obtain ⟨i, hi, rfl⟩ := List.mem_iff_getElem.mp h
  exact ⟨n + i, List.mk_add_mem_zipIdx_iff_getElem?.mpr (List.getElem?_eq_getElem hi)⟩

/-- The statements of a chart's graph are the headings of its drawn arcs. -/
theorem Chart.inOrder_graph (width : Nat) (c : Chart) :
    Statement.allInOrder (c.graph width).statements = headingsFrom width 1 c.drawn := by
  rw [Chart.graph_eq_outline, Chart.drawn, Chart.reached_eq]
  exact Arc.inOrder_rowsOutline width 1 c.rows

/-! ## 2. Where a number shows -/

/-- What follows the number in the label of an edge. -/
def labelTail : Option String → String
  | none => ""
  | some s => if s = "" then "" else " " ++ s

/-- A statement for an arc that shows a number: an edge between its ends whose label, before it is
    wrapped, is the number in brackets and the label of the arc, or a box with the number that is
    tied to its ends. -/
inductive ShowsNumber (width n : Nat) (a : Arc) : Statement → Prop where
  | edge (others : List Attribute) (hkind : Category.ofKind a.kind ≠ .box) :
      ShowsNumber width n a (.edge a.source a.target
        (⟨"label", Text.wrap Text.Measure.display width
          ("(" ++ toString n ++ ")" ++ labelTail a.label).toList⟩ :: others))
  | box (attributes ties : List Attribute) (hkind : Category.ofKind a.kind = .box) :
      ShowsNumber width n a (.box n attributes a.source a.target ties)

theorem numbered_eq (n : Nat) : ∀ label : Option String,
    numbered n label = "(" ++ toString n ++ ")" ++ labelTail label
  | none => (String.append_empty).symm
  | some s => by
      by_cases h : s = ""
      · simp only [numbered, labelTail, if_pos h]
        exact (String.append_empty).symm
      · have hspace : ") " ++ s = ")" ++ (" " ++ s) := by
          rw [← String.append_assoc]
          rfl
        simp only [numbered, labelTail, if_neg h, String.append_assoc]
        rw [hspace]

theorem numbered_ne_empty (n : Nat) (label : Option String) : numbered n label ≠ "" := by
  intro h
  have hlist := congrArg String.toList h
  rw [numbered_eq] at hlist
  simp only [String.toList_append] at hlist
  cases hlist

/-- A text that is not empty is an attribute. -/
theorem Dot.textAttribute_of_ne_empty (width : Nat) (name : String) {s : String} (h : s ≠ "") :
    textAttribute width name (some s) =
      [⟨name, Text.wrap Text.Measure.display width s.toList⟩] := by
  simp only [textAttribute, if_neg h]

/-- **The figure of an arc shows its number.** -/
theorem Arc.figure_shows (width n : Nat) (a : Arc) : ShowsNumber width n a (a.figure width n) := by
  unfold Arc.figure
  split
  · rename_i hkind
    exact .box _ _ hkind
  · rename_i hkind
    unfold commonAttributes
    rw [textAttribute_of_ne_empty width "label" (numbered_ne_empty n a.label), numbered_eq]
    exact .edge _ hkind

/-! ## 3. Names made from numbers -/

theorem toString_inj {m n : Nat} (h : toString m = toString n) : m = n := by
  have hdigits := congrArg (fun s : String => Nat.ofDigitChars 10 s.toList 0) h
  simpa only [Nat.toString_eq_repr, Nat.toList_repr, Nat.ofDigitChars_ten_toDigits] using hdigits

theorem toString_append_inj (pre : String) {m n : Nat} (h : pre ++ toString m = pre ++ toString n) :
    m = n :=
  toString_inj ((String.append_right_inj pre).mp h)

/-- **Names never meet** when each arc makes at most one, and that from its number. The names of
    arcs numbered from `n` on are made from numbers from `n` on. -/
theorem nodup_names {width : Nat} {name? : Statement → Option String} {name : Nat → String}
    (hname : ∀ {m k}, name m = name k → m = k)
    (hown : ∀ p : Arc × Nat, (Arc.headings width p).filterMap name? = [] ∨
      (Arc.headings width p).filterMap name? = [name p.2]) : ∀ (arcs : List Arc) (n : Nat),
    ((headingsFrom width n arcs).filterMap name?).Nodup ∧
      ∀ x ∈ (headingsFrom width n arcs).filterMap name?, ∃ m, n ≤ m ∧ x = name m
  | [], _ => ⟨List.nodup_nil, fun _ h => absurd h List.not_mem_nil⟩
  | a :: arcs, n => by
      obtain ⟨hnodup, hfrom⟩ := nodup_names hname hown arcs (n + 1)
      rw [headingsFrom_cons, List.filterMap_append]
      have hlater : ∀ x ∈ (headingsFrom width (n + 1) arcs).filterMap name?,
          ∃ m, n ≤ m ∧ x = name m := by
        intro x hx
        obtain ⟨m, hm, e⟩ := hfrom x hx
        exact ⟨m, by omega, e⟩
      rcases hown (a, n) with h | h
      · rw [h]
        exact ⟨hnodup, hlater⟩
      · rw [h]
        refine ⟨List.nodup_cons.mpr ⟨fun hmem => ?_, hnodup⟩, fun x hx => ?_⟩
        · obtain ⟨m, hm, e⟩ := hfrom _ hmem
          have := hname e
          omega
        · rcases List.mem_cons.mp hx with rfl | hx
          · exact ⟨n, Nat.le_refl n, rfl⟩
          · exact hlater x hx

/-- An arc that is a box makes one name, and no other arc makes any. -/
theorem Arc.boxNames_headings_eq (width : Nat) (p : Arc × Nat) :
    (Arc.headings width p).filterMap Statement.boxName? =
      if Category.ofKind p.1.kind = .box then ["box" ++ toString p.2] else [] := by
  have hcluster : (if p.1.container then [Statement.cluster p.2 p.1.caption []] else []).filterMap
      Statement.boxName? = [] := by
    by_cases h : p.1.container = true
    · rw [if_pos h]
      rfl
    · rw [if_neg h]
      rfl
  have hfigure := Arc.figure_shows width p.2 p.1
  unfold Arc.headings
  rw [List.filterMap_cons, hcluster]
  generalize p.1.figure width p.2 = s at hfigure
  cases hfigure with
  | edge _ hkind =>
    rw [if_neg hkind]
    rfl
  | box _ _ hkind =>
    rw [if_pos hkind]
    rfl

theorem Arc.boxNames_headings (width : Nat) (p : Arc × Nat) :
    (Arc.headings width p).filterMap Statement.boxName? = [] ∨
      (Arc.headings width p).filterMap Statement.boxName? = ["box" ++ toString p.2] := by
  rw [Arc.boxNames_headings_eq]
  split
  · exact Or.inr rfl
  · exact Or.inl rfl

theorem Arc.clusterNames_headings (width : Nat) (p : Arc × Nat) :
    (Arc.headings width p).filterMap Statement.clusterName? = [] ∨
      (Arc.headings width p).filterMap Statement.clusterName? = ["cluster_" ++ toString p.2] := by
  have hfigure : (p.1.figure width p.2).clusterName? = none := by
    have hshows := Arc.figure_shows width p.2 p.1
    generalize p.1.figure width p.2 = s at hshows
    cases hshows <;> rfl
  unfold Arc.headings
  rw [List.filterMap_cons, hfigure]
  by_cases h : p.1.container = true
  · rw [if_pos h]
    exact Or.inr rfl
  · rw [if_neg h]
    exact Or.inl rfl

/-! ## 4. Whole graphs -/

/-- No two boxes of a chart's graph share a name. -/
theorem Chart.nodup_boxNames (width : Nat) (c : Chart) :
    ((Statement.allInOrder (c.graph width).statements).filterMap Statement.boxName?).Nodup := by
  rw [Chart.inOrder_graph]
  exact (nodup_names (toString_append_inj "box") (Arc.boxNames_headings width) c.drawn 1).1

/-- No two clusters of a chart's graph share a name. -/
theorem Chart.nodup_clusterNames (width : Nat) (c : Chart) :
    ((Statement.allInOrder (c.graph width).statements).filterMap Statement.clusterName?).Nodup := by
  rw [Chart.inOrder_graph]
  exact (nodup_names (toString_append_inj "cluster_") (Arc.clusterNames_headings width) c.drawn 1).1

end SequenceChart
