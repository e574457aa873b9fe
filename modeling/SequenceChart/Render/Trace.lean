import SequenceChart.Render.Basic

/-!
# The trace of a rendering

What a rendering reports while it runs, as a list of events.

* Bringing the chart into normal form reports every arc to everyone, inner arcs first
  (`Arc.explosions`).
* Drawing reports at its start what there is to draw, then every arc that is left out and every arc
  of an unknown kind, in the order of drawing (`Arc.remarks`), and at its end how much was drawn.

A chart that is refused is not drawn, so of its trace only the first part is there.
-/

namespace SequenceChart

/-- One report of a rendering. -/
inductive Event where
  /-- An arc to everyone is replaced by one arc to each entity. -/
  | exploding (kind source : String)
  /-- Drawing starts: the entities, the top rows, and all arcs of the chart. -/
  | rendering (entities rows arcs : Nat)
  /-- An arc lacks its kind, source or target. -/
  | malformed (kind source target : String)
  /-- An arc is drawn without a style. -/
  | unknownKind (kind : String)
  /-- Drawing ends: the number given out last, and the bytes of the text. -/
  | rendered (numbered bytes : Nat)
  deriving DecidableEq, Repr

/-! ## 1. Arcs to everyone -/

/-- The report on an arc itself, read from left to right. -/
def Arc.ownExplosion (a : Arc) : List Event :=
  if a.forward.broadcast then [.exploding a.forward.kind a.forward.source] else []

mutual

/-- The reports on an arc that is brought into normal form. -/
def Arc.explosions : Arc → List Event
  | ⟨k, s, t, l, p, none⟩ => Arc.ownExplosion ⟨k, s, t, l, p, none⟩
  | ⟨k, s, t, l, p, some rows⟩ =>
    Arc.rowsExplosions rows ++ Arc.ownExplosion ⟨k, s, t, l, p, none⟩

/-- The reports on rows. -/
def Arc.rowsExplosions : List Row → List Event
  | [] => []
  | row :: rows => Arc.rowExplosions row ++ Arc.rowsExplosions rows

/-- The reports on a row. -/
def Arc.rowExplosions : Row → List Event
  | [] => []
  | a :: row => Arc.explosions a ++ Arc.rowExplosions row

end

/-! ## 2. Drawing -/

/-- The report on an arc that is drawn. -/
def Arc.ownRemark (a : Arc) : List Event :=
  if Category.ofKind a.kind = .unknown then [.unknownKind a.kind] else []

mutual

/-- The reports on drawing an arc. -/
def Arc.remarks : Arc → List Event
  | ⟨k, s, t, l, p, none⟩ =>
    let a : Arc := ⟨k, s, t, l, p, none⟩
    if a.wellFormed then a.ownRemark else [.malformed k s t]
  | ⟨k, s, t, l, p, some rows⟩ =>
    let a : Arc := ⟨k, s, t, l, p, none⟩
    if a.wellFormed then a.ownRemark ++ Arc.rowsRemarks rows else [.malformed k s t]

/-- The reports on drawing rows. -/
def Arc.rowsRemarks : List Row → List Event
  | [] => []
  | row :: rows => Arc.rowRemarks row ++ Arc.rowsRemarks rows

/-- The reports on drawing a row. -/
def Arc.rowRemarks : Row → List Event
  | [] => []
  | a :: row => Arc.remarks a ++ Arc.rowRemarks row

end

/-- The trace of drawing a chart in normal form as a text. -/
def Chart.drawingTrace (width : Nat) (c : Chart) : List Event :=
  .rendering c.entities.length c.rows.length c.arcCount ::
    (Arc.rowsRemarks c.rows ++
      [.rendered (c.lastNumber width) (c.graph width).print.utf8ByteSize])

/-- The trace of a rendering that refuses nothing. -/
def Chart.lenientTrace (width : Nat) (c : Chart) : List Event :=
  Arc.rowsExplosions c.rows ++ c.normal.drawingTrace width

/-- **The trace of a rendering.** -/
def Chart.trace (o : Options) (c : Chart) : List Event :=
  match c.normal.violation o with
  | some _ => Arc.rowsExplosions c.rows
  | none => c.lenientTrace o.wrapWidth

end SequenceChart
