import SequenceChart.Format.FromJson
import SequenceChart.Format.ToJson

/-!
# Charts in JSON

The readers for the three records by name, and the wording of a chart that cannot be read.
-/

namespace SequenceChart

open SequenceChart.Json (Unreadable)

/-- Reads a chart from a JSON text. -/
def Chart.fromText (text : String) : Except Unreadable Chart :=
  Format.fromText (.record .chart) text

/-- Reads a chart from a JSON value. -/
def Chart.fromJson (v : Json) : Except Unreadable Chart :=
  Format.fromJson (.record .chart) v

/-- Reads an entity from a JSON text. -/
def Entity.fromText (text : String) : Except Unreadable Entity :=
  Format.fromText (.record .entity) text

/-- Reads an entity from a JSON value. -/
def Entity.fromJson (v : Json) : Except Unreadable Entity :=
  Format.fromJson (.record .entity) v

/-- Reads an arc from a JSON text. -/
def Arc.fromText (text : String) : Except Unreadable Arc :=
  Format.fromText (.record .arc) text

/-- Reads an arc from a JSON value. -/
def Arc.fromJson (v : Json) : Except Unreadable Arc :=
  Format.fromJson (.record .arc) v

/-- The message of a chart that cannot be read. -/
def Chart.unreadableMessage (u : Unreadable) : String :=
  "Invalid chart document JSON: " ++ u.message

end SequenceChart
