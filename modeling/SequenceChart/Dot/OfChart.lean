import SequenceChart.Chart.Basic
import SequenceChart.Chart.Kind
import SequenceChart.Dot.Graph
import SequenceChart.Text.Wrap

/-!
# The graph of a chart

The chart is in normal form already; here each entity becomes a node and each arc one or two
statements.

* Arcs are numbered from 1 on, in the order in which they are drawn: row by row, and a container
  before what it holds. The number that was given out last is carried through the tree
  (`Arc.statements`), so a part of a chart can be drawn behind another.
* An arc that lacks its kind, source or target is not drawn, takes no number, and hides what is
  nested in it.
* A box is a node of its own with ties to both ends; every other arc is an edge whose label begins
  with its number. A container is followed by a cluster with its rows.
* Every attribute text is wrapped at the same width, and attributes without a text are left out.
* Three tables tell how the arcs of a kind look. A kind may stand in any number of them; where it
  does not, the defaults of the graph decide.
-/

namespace SequenceChart.Dot

/-! ## 1. Styles of kinds -/

/-- The arrow head of each kind that has one of its own. -/
def arrowheads : List (String × String) :=
  [("->", "rvee"), ("<->", "rvee"), ("=>", "normal"), ("<=>", "normal"), ("-x", "oinvonormal")]

/-- The shape of each kind of box. -/
def shapes : List (String × String) :=
  [("box", "box"), ("rbox", "box"), ("abox", "hexagon"), ("note", "note")]

/-- The style of the line, or of the outline of the box. -/
def lineStyles : List (String × String) :=
  [(">>", "dashed"), ("<<>>", "dashed"), ("..", "dashed"),
   (":>", "bold"), ("<:>", "bold"), ("::", "bold"),
   ("rbox", "rounded")]

/-- The arrow head of a kind. -/
def arrowhead? (kind : String) : Option String := arrowheads.lookup kind

/-- The shape of a kind. -/
def shape? (kind : String) : Option String := shapes.lookup kind

/-- The line style of a kind. -/
def lineStyle? (kind : String) : Option String := lineStyles.lookup kind

end SequenceChart.Dot

namespace SequenceChart

open SequenceChart.Dot

/-! ## 2. Attributes -/

/-- An attribute with a text wrapped at a width, or nothing if there is no text. -/
def Dot.textAttribute (width : Nat) (name : String) (text : Option String) : List Attribute :=
  match text with
  | none => []
  | some s => if s = "" then [] else [⟨name, Text.wrap Text.Measure.display width s.toList⟩]

/-- A label and colours, in the order in which attributes are listed. -/
def Dot.commonAttributes (width : Nat) (label : Option String) (paint : Paint) : List Attribute :=
  textAttribute width "label" label ++
  textAttribute width "color" paint.line ++
  textAttribute width "fontcolor" paint.text ++
  textAttribute width "fillcolor" paint.fill

/-- The label of an edge: its number, and the label of the arc if that has one. -/
def Dot.numbered (n : Nat) (label : Option String) : String :=
  match label with
  | none => "(" ++ toString n ++ ")"
  | some s => if s = "" then "(" ++ toString n ++ ")" else "(" ++ toString n ++ ") " ++ s

/-- The attributes that set the heads of an edge. -/
def Dot.heads (width : Nat) (kind : String) : Category → List Attribute
  | .directional => textAttribute width "arrowhead" (arrowhead? kind)
  | .bidirectional =>
    textAttribute width "arrowhead" (arrowhead? kind) ++
    textAttribute width "arrowtail" (arrowhead? kind) ++
    textAttribute width "dir" (some "both")
  | .nondirectional => textAttribute width "dir" (some "none")
  | .unknown => []
  | .box => []

/-! ## 3. Statements -/

/-- The node of an entity. -/
def Entity.node (width : Nat) (e : Entity) : Node :=
  ⟨e.name, commonAttributes width e.label e.paint⟩

/-- The edge or the box of an arc, with its number. -/
def Arc.figure (width n : Nat) (a : Arc) : Statement :=
  match Category.ofKind a.kind with
  | .box =>
    .box n
      (commonAttributes width a.label a.paint ++
        textAttribute width "style" (lineStyle? a.kind) ++
        textAttribute width "shape" (shape? a.kind))
      a.source a.target
      (textAttribute width "style" (some "dotted") ++ textAttribute width "dir" (some "none"))
  | category =>
    .edge a.source a.target
      (commonAttributes width (some (numbered n a.label)) a.paint ++
        textAttribute width "style" (lineStyle? a.kind) ++
        heads width a.kind category)

/-- The text at the top of the cluster of a container: its kind and its label. -/
def Arc.caption (a : Arc) : Option String :=
  match a.label with
  | none => none
  | some s => if s = "" then none else some (a.kind ++ ": " ++ s)

mutual

/-- The statements of an arc behind the number `n`, and the number given out last. -/
def Arc.statements (width n : Nat) : Arc → List Statement × Nat
  | ⟨k, s, t, l, p, none⟩ =>
    let a : Arc := ⟨k, s, t, l, p, none⟩
    if a.wellFormed then ([a.figure width (n + 1)], n + 1) else ([], n)
  | ⟨k, s, t, l, p, some rows⟩ =>
    let a : Arc := ⟨k, s, t, l, p, none⟩
    if a.wellFormed then
      let inner := Arc.rowsStatements width (n + 1) rows
      ([a.figure width (n + 1), .cluster (n + 1) a.caption inner.1], inner.2)
    else ([], n)

/-- The statements of rows behind the number `n`, and the number given out last. -/
def Arc.rowsStatements (width n : Nat) : List Row → List Statement × Nat
  | [] => ([], n)
  | row :: rows =>
    let first := Arc.rowStatements width n row
    let others := Arc.rowsStatements width first.2 rows
    (first.1 ++ others.1, others.2)

/-- The statements of one row behind the number `n`, and the number given out last. -/
def Arc.rowStatements (width n : Nat) : Row → List Statement × Nat
  | [] => ([], n)
  | a :: row =>
    let first := Arc.statements width n a
    let others := Arc.rowStatements width first.2 row
    (first.1 ++ others.1, others.2)

end

/-- **The graph of a chart** in normal form. -/
def Chart.graph (width : Nat) (c : Chart) : Graph :=
  ⟨c.entities.map (Entity.node width), (Arc.rowsStatements width 0 c.rows).1⟩

/-- The number that the last drawn arc of a chart in normal form has. -/
def Chart.lastNumber (width : Nat) (c : Chart) : Nat :=
  (Arc.rowsStatements width 0 c.rows).2

end SequenceChart
