import SequenceChart.Render.Basic

/-!
# Rows that are added to a chart

A chart is drawn row by row, and the only thing that goes from one row to the next is the number
that was given out last. So rows that are added at the end change nothing of what was drawn already.

* `normalRows_append` and `rowsStatements_append` take rows apart, first in the normal form and then
  in the graph;
* `Prepends` says of a writer that it only writes in front of the text that is there. All writers of
  the graph language do, so what is written for statements is cut where the statements are cut;
* `rows_appended` is the comparison of the two renderings.
-/

namespace SequenceChart

open SequenceChart.Dot

/-! ## 1. More rows -/

/-- The chart with more rows behind its own. -/
def Chart.addRows (more : List Row) (c : Chart) : Chart :=
  { c with rows := c.rows ++ more }

theorem Arc.normalRows_append (es : List Entity) (rows more : List Row) :
    Arc.normalRows es (rows ++ more) = Arc.normalRows es rows ++ Arc.normalRows es more := by
  rw [Arc.normalRows_eq, Arc.normalRows_eq, Arc.normalRows_eq, List.map_append]

/-- Later rows are numbered behind the number that earlier rows have given out last. -/
theorem Arc.rowsStatements_append (width : Nat) (more : List Row) : ∀ (rows : List Row) (n : Nat),
    (Arc.rowsStatements width n (rows ++ more)).1 =
      (Arc.rowsStatements width n rows).1 ++
        (Arc.rowsStatements width (Arc.rowsStatements width n rows).2 more).1
  | [], _ => rfl
  | row :: rows, n => by
      have ih := Arc.rowsStatements_append width more rows (Arc.rowStatements width n row).2
      rw [List.cons_append, Arc.rowsStatements, Arc.rowsStatements, ih, List.append_assoc]

/-- What rows are drawn as behind the number `n`, in a chart with these entities. -/
def sequel (width : Nat) (es : List Entity) (n : Nat) (rows : List Row) : List Statement :=
  (Arc.rowsStatements width n (Chart.mk es rows).normal.rows).1

/-- **The graph of a chart with more rows** begins with the statements of the chart. -/
theorem Chart.graph_addRows (width : Nat) (c : Chart) (more : List Row) :
    (c.addRows more).normal.graph width =
      ⟨(c.normal.graph width).nodes, (c.normal.graph width).statements ++
        sequel width c.entities (c.normal.lastNumber width) more⟩ := by
  have hrows : (c.addRows more).normal.rows =
      c.normal.rows ++ (Chart.mk c.entities more).normal.rows :=
    Arc.normalRows_append c.entities c.rows more
  have hstatements : ((c.addRows more).normal.graph width).statements =
      (c.normal.graph width).statements ++
        sequel width c.entities (c.normal.lastNumber width) more := by
    unfold Chart.graph
    rw [hrows, Arc.rowsStatements_append]
    rfl
  rw [← hstatements]
  rfl

/-! ## 2. Writers -/

namespace Dot

/-- **The writer writes in front of the text** that is there, and does not look at it. -/
def Prepends (w : List Char → List Char) : Prop :=
  ∀ rest, w rest = w [] ++ rest

variable {w v : List Char → List Char}

theorem Prepends.comp (hw : Prepends w) (hv : Prepends v) : Prepends fun rest => w (v rest) := by
  intro rest
  show w (v rest) = w (v []) ++ rest
  rw [hv rest, hw (v [] ++ rest), hw (v []), List.append_assoc]

theorem prepends_self : Prepends fun rest => rest :=
  fun _ => rfl

theorem prepends_cons (c : Char) : Prepends (c :: ·) :=
  fun _ => rfl

theorem prepends_append (text : List Char) : Prepends (text ++ ·) := by
  intro rest
  show text ++ rest = text ++ [] ++ rest
  rw [List.append_nil]

theorem prepends_text (s : String) : Prepends (writeText s) :=
  prepends_append s.toList

theorem prepends_name (name : String) : Prepends (writeName name) :=
  prepends_append (Text.quoted name.toList)

theorem prepends_indent (depth : Nat) : Prepends (indent depth) :=
  prepends_append (List.replicate (2 * depth + 2) ' ')

/-- Things that are written one after the other. -/
theorem prepends_foldr {α : Type} {write : α → List Char → List Char}
    (h : ∀ a, Prepends (write a)) : ∀ as : List α, Prepends fun rest => as.foldr write rest
  | [] => prepends_self
  | a :: as => (h a).comp (prepends_foldr h as)

theorem Attribute.prepends (a : Attribute) : Prepends a.write :=
  (prepends_text a.name).comp ((prepends_cons '=').comp ((prepends_cons '"').comp
    ((prepends_append (Text.escapeLines a.lines)).comp (prepends_cons '"'))))

theorem prepends_attributes : ∀ as : List Attribute, Prepends (writeAttributes as)
  | [] => prepends_self
  | a :: as => (prepends_cons ',').comp ((prepends_cons ' ').comp
      (a.prepends.comp (prepends_attributes as)))

theorem prepends_block : ∀ as : List Attribute, Prepends (writeBlock as)
  | [] => prepends_self
  | a :: as => (prepends_cons ' ').comp ((prepends_cons '[').comp
      (a.prepends.comp ((prepends_attributes as).comp (prepends_cons ']'))))

theorem Node.prepends (n : Node) : Prepends n.write :=
  (prepends_indent 0).comp ((prepends_name n.name).comp ((prepends_block n.attributes).comp
    ((prepends_cons ';').comp (prepends_cons '\n'))))

theorem prepends_caption (depth : Nat) : ∀ caption, Prepends (writeCaption depth caption)
  | none => prepends_self
  | some s => (prepends_indent depth).comp ((prepends_text " label=").comp
      ((prepends_append (Text.quoted s.toList)).comp
        ((prepends_text " labeljust=\"l\"").comp (prepends_cons '\n'))))

theorem prepends_boxName (number : Nat) : Prepends (writeBoxName number) :=
  (prepends_text "box").comp (prepends_text (toString number))

theorem prepends_ties (depth number : Nat) (source target : String) (ties : List Attribute) :
    Prepends (writeTies depth number source target ties) :=
  (prepends_indent depth).comp ((prepends_boxName number).comp ((prepends_text " -- \x7b").comp
    ((prepends_name source).comp ((prepends_cons ',').comp ((prepends_name target).comp
      ((prepends_cons '\x7d').comp ((prepends_block ties).comp (prepends_cons '\n'))))))))

mutual

theorem Statement.prepends (depth : Nat) : ∀ s : Statement, Prepends (s.write depth)
  | .edge source target attributes =>
      (prepends_indent depth).comp ((prepends_name source).comp ((prepends_text " -- ").comp
        ((prepends_name target).comp ((prepends_block attributes).comp (prepends_cons '\n')))))
  | .box number attributes source target ties =>
      (prepends_indent depth).comp ((prepends_boxName number).comp
        ((prepends_block attributes).comp ((prepends_cons '\n').comp
          (prepends_ties depth number source target ties))))
  | .cluster number caption body =>
      (prepends_indent depth).comp ((prepends_text "subgraph cluster_").comp
        ((prepends_text (toString number)).comp ((prepends_cons '\x7b').comp
          ((prepends_cons '\n').comp ((prepends_caption depth caption).comp
            ((Statement.allPrepend (depth + 1) body).comp ((prepends_indent depth).comp
              ((prepends_cons '\x7d').comp (prepends_cons '\n')))))))))

theorem Statement.allPrepend (depth : Nat) : ∀ ss : List Statement,
    Prepends (Statement.writeAll depth ss)
  | [] => prepends_self
  | s :: ss => (Statement.prepends depth s).comp (Statement.allPrepend depth ss)

end

/-- What is written in front of the statements of a graph. -/
def writeOpening (nodes : List Node) (rest : List Char) : List Char :=
  writeText banner (writeDefaults ('\n' :: writeNodes nodes rest))

theorem prepends_opening (nodes : List Node) : Prepends (writeOpening nodes) := by
  have hdefaults : Prepends writeDefaults :=
    prepends_foldr (fun line => (prepends_indent 0).comp
      ((prepends_text line).comp (prepends_cons '\n'))) defaults
  have hnodes : Prepends (writeNodes nodes) := by
    cases nodes with
    | nil => exact prepends_self
    | cons n nodes => exact (prepends_foldr Node.prepends (n :: nodes)).comp (prepends_cons '\n')
  exact (prepends_text banner).comp (hdefaults.comp ((prepends_cons '\n').comp hnodes))

/-- Statements are written one after the other. -/
theorem Statement.writeAll_append (depth : Nat) (ts : List Statement) (rest : List Char) :
    ∀ ss : List Statement, Statement.writeAll depth (ss ++ ts) rest =
      Statement.writeAll depth ss (Statement.writeAll depth ts rest)
  | [] => rfl
  | s :: ss => by
      rw [List.cons_append, Statement.writeAll, Statement.writeAll,
        Statement.writeAll_append depth ts rest ss]

/-- The lines of statements at the top of a graph. -/
def linesOf (ss : List Statement) : String :=
  String.ofList (Statement.writeAll 0 ss [])

/-- The text of a graph up to the brace that closes it. -/
def Graph.openText (g : Graph) : String :=
  String.ofList (writeOpening g.nodes (Statement.writeAll 0 g.statements []))

/-- **More statements of a graph** are written between its text and the brace that closes it. -/
theorem Graph.print_append (g : Graph) (ts : List Statement) :
    (Graph.mk g.nodes (g.statements ++ ts)).print = g.openText ++ linesOf ts ++ "\x7d" := by
  have hfront : writeOpening g.nodes (Statement.writeAll 0 g.statements
      (Statement.writeAll 0 ts ['\x7d'])) =
      writeOpening g.nodes (Statement.writeAll 0 g.statements []) ++
        Statement.writeAll 0 ts ['\x7d'] :=
    (prepends_opening g.nodes).comp (Statement.allPrepend 0 g.statements) _
  have hall : (Graph.mk g.nodes (g.statements ++ ts)).write [] =
      writeOpening g.nodes (Statement.writeAll 0 g.statements
        (Statement.writeAll 0 ts ['\x7d'])) := by
    rw [← Statement.writeAll_append]
    rfl
  have hlast : "\x7d" = String.ofList ['\x7d'] := rfl
  unfold Graph.print Graph.openText linesOf
  rw [hall, hfront, Statement.allPrepend 0 ts ['\x7d'], hlast, String.ofList_append,
    String.ofList_append, String.append_assoc]

theorem Graph.print_eq (g : Graph) : g.print = g.openText ++ "\x7d" := by
  have h := g.print_append []
  rw [List.append_nil] at h
  exact h.trans (congrArg (· ++ "\x7d") String.append_empty)

end Dot

/-! ## 3. Two renderings -/

/-- **Rows that are added change nothing of what was drawn.** The rendering of a chart without its
    last brace is the beginning of the rendering of the chart with more rows, whatever both hold.
    What follows up to the last brace are the lines of the added rows in normal form, numbered
    behind the number that the chart has given out last; of the chart they need this number and its
    entities, and nothing else. Statement by statement, too, those of the chart come first, as they
    were. -/
theorem rows_appended (width : Nat) (c : Chart) (more : List Row) :
    (∃ opening : String,
      c.renderLenient width = opening ++ "\x7d" ∧
      (c.addRows more).renderLenient width =
        opening ++ linesOf (sequel width c.entities (c.normal.lastNumber width) more) ++
          "\x7d") ∧
    ((c.addRows more).normal.graph width).statements =
      (c.normal.graph width).statements ++
        sequel width c.entities (c.normal.lastNumber width) more := by
  have hgraph := c.graph_addRows width more
  refine ⟨⟨(c.normal.graph width).openText, Graph.print_eq _, ?_⟩, ?_⟩
  · unfold Chart.renderLenient
    rw [hgraph, Graph.print_append]
  · rw [hgraph]

end SequenceChart
