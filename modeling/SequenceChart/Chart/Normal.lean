import SequenceChart.Chart.Basic
import SequenceChart.Chart.Kind

/-!
# The normal form of a chart

Before a chart is drawn it is rewritten so that drawing has no choices left:

* an entity without a label is labelled with its name;
* a kind written right to left is turned round, its source and target trading places;
* a colour that an arc leaves open is taken from the entity the arc leaves, and of several
  entities of one name from the last;
* an arc to everyone becomes one arc to each entity but its source, and these copies come after
  the other arcs of their row.

The rewriting goes through the rows of containers too, inner rows first. Each rewriting of one arc
is a function of its own; `Arc.normal` only says where they are applied.
-/

namespace SequenceChart

/-! ## 1. Rewriting one entity, one arc and one row -/

/-- The entity with its name for a label where it has none. -/
def Entity.labelled (e : Entity) : Entity :=
  { e with label := some (e.label.getD e.name) }

/-- The arc read from left to right. Nested rows stay as they are. -/
def Arc.forward (a : Arc) : Arc :=
  match rightward? a.kind with
  | some kind => { a with kind := kind, source := a.target, target := a.source }
  | none => a

/-- The paint for arcs that leave the entity of this name. The last entity of the name decides;
    an undeclared name leaves every colour open. -/
def senderPaint (es : List Entity) (name : String) : Paint :=
  match es.reverse.find? (·.name == name) with
  | some e => e.arcPaint
  | none => {}

/-- The arc with its open colours filled in from its sender. -/
def Arc.painted (es : List Entity) (a : Arc) : Arc :=
  { a with paint := a.paint.orElse (senderPaint es a.source) }

/-- An arc to everyone as one arc to each entity that is not named like its source, in the order
    of the declarations. Each copy keeps all nested rows. -/
def Arc.copies (es : List Entity) (a : Arc) : Row :=
  (es.filter (·.name != a.source)).map fun e => { a with target := e.name }

/-- The row with its arcs to everyone spread out behind its other arcs. -/
def spread (es : List Entity) (row : Row) : Row :=
  row.filter (!·.broadcast) ++ (row.filter (·.broadcast)).flatMap (·.copies es)

/-! ## 2. Rewriting the whole tree -/

mutual

/-- The normal form of one arc: nested rows first, then its direction, then its colours. -/
def Arc.normal (es : List Entity) : Arc → Arc
  | ⟨k, s, t, l, p, none⟩ => (Arc.forward ⟨k, s, t, l, p, none⟩).painted es
  | ⟨k, s, t, l, p, some rows⟩ =>
    (Arc.forward ⟨k, s, t, l, p, some (Arc.normalRows es rows)⟩).painted es

/-- The normal form of rows. Each row is rewritten by itself. -/
def Arc.normalRows (es : List Entity) : List Row → List Row
  | [] => []
  | row :: rows => spread es (Arc.normalRow es row) :: Arc.normalRows es rows

/-- The arcs of a row in normal form, arcs to everyone not yet spread out. -/
def Arc.normalRow (es : List Entity) : Row → Row
  | [] => []
  | a :: row => Arc.normal es a :: Arc.normalRow es row

end

/-- The chart in normal form. -/
def Chart.normal (c : Chart) : Chart :=
  { entities := c.entities.map Entity.labelled
    rows := Arc.normalRows c.entities c.rows }

/-! ## 3. The tree rewriting as maps -/

theorem Arc.normalRow_eq (es : List Entity) : ∀ row : Row,
    Arc.normalRow es row = row.map (Arc.normal es)
  | [] => rfl
  | _ :: row => by simp [Arc.normalRow, Arc.normalRow_eq es row]

theorem Arc.normalRows_eq (es : List Entity) : ∀ rows : List Row,
    Arc.normalRows es rows = rows.map fun row => spread es (row.map (Arc.normal es))
  | [] => rfl
  | row :: rows => by
      simp [Arc.normalRows, Arc.normalRows_eq es rows, Arc.normalRow_eq es row]

/-- The normal form of an arc, whether it is a container or not. -/
theorem Arc.normal_eq (es : List Entity) (a : Arc) :
    a.normal es = Arc.painted es (Arc.forward { a with rows := a.rows.map (Arc.normalRows es) }) := by
  rcases a with ⟨_, _, _, _, _, _ | _⟩ <;> rfl

end SequenceChart
