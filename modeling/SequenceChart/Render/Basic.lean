import SequenceChart.Chart.Normal
import SequenceChart.Dot.OfChart
import SequenceChart.Dot.Print
import SequenceChart.Format.Chart
import SequenceChart.Render.Check

/-!
# Rendering charts

A chart is brought into normal form, checked as far as the options ask, and written as a graph.
-/

namespace SequenceChart

/-- The graph text of a chart at a width. This never fails. -/
def Chart.renderLenient (width : Nat) (c : Chart) : String :=
  (c.normal.graph width).print

/-- **The graph text of a chart**, or the first violation of what the options ask. -/
def Chart.render (o : Options) (c : Chart) : Except Violation String :=
  match c.normal.violation o with
  | some v => .error v
  | none => .ok (c.renderLenient o.wrapWidth)

/-- Why a JSON text is not rendered. -/
inductive Failure where
  | unreadable (why : Json.Unreadable)
  | refused (why : Violation)
  deriving DecidableEq, Repr

/-- The failure in words. -/
def Failure.message : Failure → String
  | .unreadable why => Chart.unreadableMessage why
  | .refused why => why.message

/-- The graph text of a chart that is given as a JSON text. -/
def renderText (o : Options) (text : String) : Except Failure String :=
  match Chart.fromText text with
  | .error why => .error (.unreadable why)
  | .ok c => (c.render o).mapError .refused

end SequenceChart
