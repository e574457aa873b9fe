import SequenceChart.Chart.Basic
import SequenceChart.Json.Fault

/-!
# The shapes of charts in JSON

A chart is written as an object, its entities and arcs as objects nested in it. This file holds the
one table that all readers go by:

* `Record` names the three records, and `Record.fields` lists the fields of each, in order, with
  the second name that a colour may go by;
* `Shape` says what a field may hold, and `Shape.Carrier` which values that gives;
* `Draft` is a record that is being read: what is known of it, and the fields that were given.
-/

namespace SequenceChart.Format

/-! ## 1. Shapes -/

/-- The records of a chart. -/
inductive Record where
  | chart
  | entity
  | arc
  deriving DecidableEq, Repr

/-- What a value may be. -/
inductive Shape where
  | text
  | list (item : Shape)
  | record (r : Record)
  deriving DecidableEq, Repr

/-- What a record is read as. -/
abbrev Record.Carrier : Record → Type
  | .chart => Chart
  | .entity => Entity
  | .arc => Arc

/-- What a value of a shape is read as. -/
abbrev Shape.Carrier : Shape → Type
  | .text => String
  | .list item => List item.Carrier
  | .record r => r.Carrier

/-! ## 2. Fields -/

/-- A field of a record. A field that is `optional` may hold `null`, which says the same as
    leaving it out. -/
structure Field (ρ : Type) where
  name : String
  otherName : Option String := none
  shape : Shape
  optional : Bool := false
  required : Bool := false
  put : shape.Carrier → ρ → ρ

/-- The field goes by this key. -/
def Field.answers {ρ : Type} (f : Field ρ) (key : String) : Bool :=
  f.name == key || f.otherName == some key

/-- An optional text. -/
def Field.text {ρ : Type} (name : String) (otherName : Option String)
    (put : Option String → ρ → ρ) : Field ρ :=
  { name, otherName, shape := .text, optional := true, put := fun s => put (some s) }

/-- The fields of a chart. -/
def chartFields : List (Field Chart) :=
  [{ name := "entities", shape := .list (.record .entity),
     put := fun entities c => { c with entities } },
   { name := "arcs", shape := .list (.list (.record .arc)),
     put := fun rows c => { c with rows } }]

/-- The fields of an entity. Only the name has to be given. -/
def entityFields : List (Field Entity) :=
  [{ name := "name", shape := .text, required := true, put := fun name e => { e with name } },
   .text "label" none fun label e => { e with label },
   .text "color" (some "linecolor") fun line e => { e with paint := { e.paint with line } },
   .text "fontcolor" (some "textcolor") fun text e => { e with paint := { e.paint with text } },
   .text "fillcolor" (some "textbgcolor") fun fill e => { e with paint := { e.paint with fill } },
   .text "arccolor" (some "arclinecolor") fun line e =>
     { e with arcPaint := { e.arcPaint with line } },
   .text "arcfontcolor" (some "arctextcolor") fun text e =>
     { e with arcPaint := { e.arcPaint with text } },
   .text "arcfillcolor" (some "arctextbgcolor") fun fill e =>
     { e with arcPaint := { e.arcPaint with fill } }]

/-- The fields of an arc. -/
def arcFields : List (Field Arc) :=
  [{ name := "kind", shape := .text, put := fun kind a => { a with kind } },
   { name := "from", shape := .text, put := fun source a => { a with source } },
   { name := "to", shape := .text, put := fun target a => { a with target } },
   .text "label" none fun label a => { a with label },
   .text "color" (some "linecolor") fun line a => { a with paint := { a.paint with line } },
   .text "fontcolor" (some "textcolor") fun text a => { a with paint := { a.paint with text } },
   .text "fillcolor" (some "textbgcolor") fun fill a => { a with paint := { a.paint with fill } },
   { name := "arcs", shape := .list (.list (.record .arc)), optional := true,
     put := fun rows a => { a with rows := some rows } }]

/-- The fields of a record, in order. -/
def Record.fields : (r : Record) → List (Field r.Carrier)
  | .chart => chartFields
  | .entity => entityFields
  | .arc => arcFields

/-- The record before any field is given. -/
def Record.blank : (r : Record) → r.Carrier
  | .chart => {}
  | .entity => { name := "" }
  | .arc => {}

/-- The name of the record in messages. -/
def Record.title : Record → String
  | .chart => "Document"
  | .entity => "Entity"
  | .arc => "Arc"

/-- The field of a record that goes by this key. -/
def Record.field? (r : Record) (key : String) : Option (Field r.Carrier) :=
  r.fields.find? (·.answers key)

/-- What was expected where a value of the shape should stand. -/
def Shape.expected : Shape → Json.Expected
  | .text => .text
  | .list _ => .sequence
  | .record r => .record r.title

/-! ## 3. Records that are being read -/

/-- What is known of a record, and the names of the fields that were given. -/
structure Draft (ρ : Type) where
  value : ρ
  given : List String := []

/-- The draft of a record before any field is given. -/
def Record.draft (r : Record) : Draft r.Carrier := { value := r.blank }

/-- The field was given already, under this name or its other one. -/
def Draft.has {ρ : Type} (d : Draft ρ) (f : Field ρ) : Bool :=
  d.given.contains f.name

/-- The draft with one more field, `none` standing for `null`. -/
def Draft.give {ρ : Type} (d : Draft ρ) (f : Field ρ) (value : Option f.shape.Carrier) : Draft ρ :=
  ⟨match value with
    | some v => f.put v d.value
    | none => d.value,
   f.name :: d.given⟩

/-- The finished record, unless a field that has to be given is not. -/
def Record.finish (r : Record) (d : Draft r.Carrier) : Except Json.Cause r.Carrier :=
  match r.fields.find? fun f => f.required && !d.has f with
  | some f => .error (.missingField f.name)
  | none => .ok d.value

/-- The record with the fields that are left taking their defaults, at a place in the order of the
    fields. It fails if one of them has to be given. -/
def Record.short (r : Record) (value : r.Carrier) :
    List (Field r.Carrier) → Nat → Except Json.Cause r.Carrier
  | [], _ => .ok value
  | f :: fs, i =>
    if f.required then .error (.wrongLength i (.recordOf r.title r.fields.length))
    else Record.short r value fs (i + 1)

end SequenceChart.Format
