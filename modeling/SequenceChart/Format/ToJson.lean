import SequenceChart.Chart.Basic
import SequenceChart.Json.Print

/-!
# Charts as JSON values

Every record is written as an object with its fields in the order of the table in
`Format/Shape.lean`, each under its first name. What is absent is left out; what is empty but there
is written.
-/

namespace SequenceChart

/-- A field that is left out where there is nothing to write. -/
def Format.field? (name : String) (text : Option String) : Json.Members :=
  match text with
  | some s => [(name, .string s)]
  | none => []

/-- An entity as an object. -/
def Entity.toJson (e : Entity) : Json :=
  .object <|
    ("name", .string e.name) ::
    (Format.field? "label" e.label ++
     Format.field? "color" e.paint.line ++
     Format.field? "fontcolor" e.paint.text ++
     Format.field? "fillcolor" e.paint.fill ++
     Format.field? "arccolor" e.arcPaint.line ++
     Format.field? "arcfontcolor" e.arcPaint.text ++
     Format.field? "arcfillcolor" e.arcPaint.fill)

/-- The members of an arc but for its nested rows. -/
def Arc.ownMembers (a : Arc) : Json.Members :=
  ("kind", .string a.kind) ::
  ("from", .string a.source) ::
  ("to", .string a.target) ::
  (Format.field? "label" a.label ++
   Format.field? "color" a.paint.line ++
   Format.field? "fontcolor" a.paint.text ++
   Format.field? "fillcolor" a.paint.fill)

mutual

/-- An arc as an object. -/
def Arc.toJson : Arc → Json
  | ⟨k, s, t, l, p, none⟩ => .object (Arc.ownMembers ⟨k, s, t, l, p, none⟩)
  | ⟨k, s, t, l, p, some rows⟩ =>
    .object (Arc.ownMembers ⟨k, s, t, l, p, none⟩ ++ [("arcs", .array (Arc.rowsToJson rows))])

/-- Rows as a list of lists. -/
def Arc.rowsToJson : List Row → List Json
  | [] => []
  | row :: rows => .array (Arc.rowToJson row) :: Arc.rowsToJson rows

/-- A row as a list. -/
def Arc.rowToJson : Row → List Json
  | [] => []
  | a :: row => a.toJson :: Arc.rowToJson row

end

/-- **A chart as a JSON value.** -/
def Chart.toJson (c : Chart) : Json :=
  .object [("entities", .array (c.entities.map Entity.toJson)),
           ("arcs", .array (Arc.rowsToJson c.rows))]

/-- The text of a chart, without blanks. -/
def Chart.toText (c : Chart) : String :=
  c.toJson.print

theorem Arc.rowToJson_eq : ∀ row : Row, Arc.rowToJson row = row.map Arc.toJson
  | [] => rfl
  | _ :: row => by simp [Arc.rowToJson, Arc.rowToJson_eq row]

theorem Arc.rowsToJson_eq : ∀ rows : List Row,
    Arc.rowsToJson rows = rows.map fun row => .array (row.map Arc.toJson)
  | [] => rfl
  | row :: rows => by simp [Arc.rowsToJson, Arc.rowsToJson_eq rows, Arc.rowToJson_eq row]

end SequenceChart
