import SequenceChart.Render.Basic
import SequenceChart.Proofs.Numbering
import SequenceChart.Proofs.ReadBack
import SequenceChart.Proofs.Wrapping

/-!
# Renderings can be read back

Whatever a chart holds, the text it is rendered as is read back as the graph that its normal form
asks for: quotes, backslashes, braces, line ends and comments in names, kinds, labels and colours
are read as the texts they were.

* The attributes of a chart's graph have fixed names, and their lines come from wrapping, so they
  are legible (`Chart.graph_legible`);
* `Chart.read?_graph` is the round trip for whole charts, at any width;
* `numbers_of_rendering` says which number each arc has in the text.
-/

namespace SequenceChart

open SequenceChart.Dot

/-! ## 1. The attributes of a chart -/

/-- A name that may stand without quotes. -/
def Dot.bareName (name : String) : Bool :=
  !name.toList.isEmpty && name.toList.all letter

/-- An attribute with a wrapped text is legible under a bare name. -/
theorem Dot.textAttribute_legible (width : Nat) {name : String} (hname : bareName name = true)
    (text : Option String) : AllLegible (textAttribute width name text) := by
  intro a ha
  unfold textAttribute at ha
  split at ha
  · cases ha
  · split at ha
    · cases ha
    · rename_i s _
      have hclean := Text.wrap_clean Text.Measure.display width s.toList
      unfold bareName at hname
      rw [Bool.and_eq_true, Bool.not_eq_true', List.isEmpty_eq_false_iff] at hname
      rw [List.mem_singleton] at ha
      rw [ha]
      refine ⟨hname.1, List.all_eq_true.mp hname.2, Text.wrap_ne_nil _ _ _, fun l hl hmem => ?_⟩
      exact absurd (hclean l hl '\n' hmem) (by decide)

theorem Dot.allLegible_append {as bs : List Attribute} (has : AllLegible as)
    (hbs : AllLegible bs) : AllLegible (as ++ bs) := by
  intro a ha
  rcases List.mem_append.mp ha with ha | ha
  · exact has a ha
  · exact hbs a ha

theorem Dot.commonAttributes_legible (width : Nat) (label : Option String) (paint : Paint) :
    AllLegible (commonAttributes width label paint) := by
  refine allLegible_append (allLegible_append (allLegible_append ?_ ?_) ?_) ?_ <;>
    exact textAttribute_legible width (by decide) _

theorem Dot.heads_legible (width : Nat) (kind : String) : ∀ category : Category,
    AllLegible (heads width kind category)
  | .directional => by
      show AllLegible (textAttribute width "arrowhead" (arrowhead? kind))
      exact textAttribute_legible width (by decide) _
  | .bidirectional => by
      refine allLegible_append (allLegible_append ?_ ?_) ?_ <;>
        exact textAttribute_legible width (by decide) _
  | .nondirectional => by
      show AllLegible (textAttribute width "dir" (some "none"))
      exact textAttribute_legible width (by decide) _
  | .unknown => fun _ h => absurd h List.not_mem_nil
  | .box => fun _ h => absurd h List.not_mem_nil

/-- All attributes of the figure of an arc are legible. -/
theorem Arc.figure_legible (width n : Nat) (a : Arc) :
    AllLegible (a.figure width n).attributes := by
  have hstyle : ∀ text, AllLegible (textAttribute width "style" text) :=
    textAttribute_legible width (by decide)
  unfold Arc.figure
  split
  · refine allLegible_append (allLegible_append (allLegible_append ?_ (hstyle _)) ?_)
      (allLegible_append (hstyle _) ?_)
    · exact commonAttributes_legible width _ _
    · exact textAttribute_legible width (by decide) _
    · exact textAttribute_legible width (by decide) _
  · refine allLegible_append (allLegible_append ?_ (hstyle _)) (heads_legible width _ _)
    exact commonAttributes_legible width _ _

/-- **The graph of every chart is legible.** -/
theorem Chart.graph_legible (width : Nat) (c : Chart) : (c.graph width).Legible := by
  refine ⟨fun n hn => ?_, fun s hs => ?_⟩
  · obtain ⟨e, _, rfl⟩ := List.mem_map.mp hn
    exact commonAttributes_legible width e.label e.paint
  · rw [Chart.inOrder_graph] at hs
    obtain ⟨p, _, hs⟩ := List.mem_flatMap.mp hs
    rcases List.mem_cons.mp hs with rfl | hs
    · exact Arc.figure_legible width p.2 p.1
    · split at hs
      · rw [List.mem_singleton] at hs
        rw [hs]
        exact fun a ha => absurd ha List.not_mem_nil
      · cases hs

/-! ## 2. Whole charts -/

/-- What the reader finds in a rendering is the graph that was written. -/
theorem Chart.read?_graph (width : Nat) (c : Chart) :
    Graph.read? (c.renderLenient width) = some (c.normal.graph width) :=
  Graph.read?_print (c.normal.graph_legible width)

/-- A chart that is not refused is written as if nothing were asked of it. -/
theorem Chart.eq_renderLenient {o : Options} {c : Chart} {text : String}
    (h : c.render o = .ok text) : text = c.renderLenient o.wrapWidth := by
  unfold Chart.render at h
  split at h
  · cases h
  · exact (Except.ok.inj h).symm

/-- **One rendering hands out the numbers from 1 to the number of drawn arcs, each once.** The
    statements that are read back from the text are the headings of the drawn arcs, numbered by their
    place on the walk; the edge or box of an arc shows its number, and so does its cluster. No two
    boxes and no two clusters that are read share a name. There are no more numbers than arcs, and as
    many exactly when no arc is malformed, at any depth. -/
theorem numbers_of_rendering (o : Options) (c : Chart) :
    let d := c.normal
    ∃ g, Graph.read? (c.renderLenient o.wrapWidth) = some g ∧
      (∀ text, c.render o = .ok text → Graph.read? text = some g) ∧
      d.lastNumber o.wrapWidth = d.drawn.length ∧
      Statement.allInOrder g.statements =
        (d.drawn.zipIdx 1).flatMap (fun p => p.1.figure o.wrapWidth p.2 ::
          if p.1.container then [.cluster p.2 p.1.caption []] else []) ∧
      (∀ p ∈ d.drawn.zipIdx 1, ShowsNumber o.wrapWidth p.2 p.1 (p.1.figure o.wrapWidth p.2)) ∧
      ((Statement.allInOrder g.statements).filterMap Statement.boxName?).Nodup ∧
      ((Statement.allInOrder g.statements).filterMap Statement.clusterName?).Nodup ∧
      d.drawn.length ≤ d.arcCount ∧
      (d.drawn.length = d.arcCount ↔ ∀ a ∈ d.everyArc, a.wellFormed = true) := by
  intro d
  have hread := c.read?_graph o.wrapWidth
  refine ⟨d.graph o.wrapWidth, hread, fun text h => ?_, Chart.lastNumber_eq o.wrapWidth d,
    Chart.inOrder_graph o.wrapWidth d, fun p _ => Arc.figure_shows o.wrapWidth p.2 p.1,
    d.nodup_boxNames o.wrapWidth, d.nodup_clusterNames o.wrapWidth, d.length_drawn_le,
    d.length_drawn_eq_iff⟩
  rw [Chart.eq_renderLenient h]
  exact hread

end SequenceChart
