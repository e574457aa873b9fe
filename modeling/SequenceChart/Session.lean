import SequenceChart.Render.Basic

/-!
# Editing sessions

A session holds a chart and options, and takes one step after the other: steps that change the
chart, steps that change the options, and steps that ask for a text. A step that fails leaves the
session as it was, but for the containers that an arc without a place has opened on its way.

A chart is built step by step: an entity or an arc is added, or the whole chart is enclosed in a
container. A place inside nested containers is given by the arcs that lead to it, each by its row
and its index in the row. Going into an arc makes it a container, and it stays one even if the place
is not found in the end.
-/

namespace SequenceChart

/-! ## 1. Editing charts -/

/-- The arcs on the way to a place, each as its row and its index. -/
abbrev Path := List (Nat × Nat)

/-- The chart with one more entity. -/
def Chart.addEntity (e : Entity) (c : Chart) : Chart :=
  { c with entities := c.entities ++ [e] }

/-- Rows with one more arc, in a new row or at the end of the last row. -/
def addArc (sameRow : Bool) (a : Arc) (rows : List Row) : List Row :=
  match sameRow, rows.getLast? with
  | true, some row => rows.dropLast ++ [row ++ [a]]
  | _, _ => rows ++ [[a]]

/-- **Changes the rows at a place.** It also tells whether the place was found. -/
def editAt (change : List Row → List Row) : Path → List Row → List Row × Bool
  | [], rows => (change rows, true)
  | (r, i) :: path, rows =>
    match rows[r]? with
    | none => (rows, false)
    | some row =>
      match row[i]? with
      | none => (rows, false)
      | some a =>
        let inner := editAt change path (a.rows.getD [])
        (rows.set r (row.set i { a with rows := some inner.1 }), inner.2)

/-- All rows of a chart inside a copy of the arc, which becomes the only arc. -/
def Chart.enclose (a : Arc) (c : Chart) : Chart :=
  { c with rows := [[{ a with rows := some c.rows }]] }

/-! ## 2. Steps -/

/-- A chart that is being edited, and the options it is rendered with. -/
structure Session where
  chart : Chart := {}
  options : Options := .lenient
  deriving Repr, Inhabited

/-- One step of a session. -/
inductive Session.Step where
  | entity (e : Entity)
  | arc (place : Path) (sameRow : Bool) (a : Arc)
  | enclose (times : Nat) (a : Arc)
  | load (text : String)
  | clear
  | normalize
  | width (n : Nat)
  | strict
  | lenient
  | render
  | renderLenient
  | json
  | options
  deriving Repr

/-- What a step answers. -/
inductive Session.Answer where
  /-- The size of the chart: its entities, its top rows, and all its arcs. -/
  | size (entities rows arcs : Nat)
  | graph (text : String)
  | json (text : String)
  | options (o : Options)
  /-- The place of the arc does not exist. -/
  | noPlace
  | unreadable (why : Json.Unreadable)
  | refused (why : Violation)
  deriving Repr

namespace Session

/-- The answer of a step that changes the session. -/
def answerSize (s : Session) : Answer :=
  .size s.chart.entities.length s.chart.rows.length s.chart.arcCount

/-- The session with another chart, and its size. -/
def setChart (s : Session) (c : Chart) : Session × Answer :=
  ({ s with chart := c }, answerSize { s with chart := c })

/-- The session with other options, and its size. -/
def setOptions (s : Session) (o : Options) : Session × Answer :=
  ({ s with options := o }, answerSize s)

/-- **One step.** -/
def step (s : Session) : Step → Session × Answer
  | .entity e => s.setChart (s.chart.addEntity e)
  | .arc place sameRow a =>
    match editAt (addArc sameRow a) place s.chart.rows with
    | (rows, true) => s.setChart { s.chart with rows }
    | (rows, false) => ({ s with chart := { s.chart with rows } }, .noPlace)
  | .enclose times a => s.setChart (Nat.repeat (Chart.enclose a) times s.chart)
  | .load text =>
    match Chart.fromText text with
    | .ok c => s.setChart c
    | .error why => (s, .unreadable why)
  | .clear => s.setChart {}
  | .normalize => s.setChart s.chart.normal
  | .width n => s.setOptions (s.options.withWrapWidth n)
  | .strict => s.setOptions .strict
  | .lenient => s.setOptions .lenient
  | .render =>
    match s.chart.render s.options with
    | .ok text => (s, .graph text)
    | .error why => (s, .refused why)
  | .renderLenient => (s, .graph (s.chart.renderLenient s.options.wrapWidth))
  | .json => (s, .json s.chart.toText)
  | .options => (s, .options s.options)

end Session

end SequenceChart
