import SequenceChart.Chart.Kind
import SequenceChart.Format.FromText

/-!
# Categories in JSON

A category is written as its name. It is read from its name, or from an object whose one key is its
name and whose value is `null`.
-/

namespace SequenceChart

open SequenceChart.Json (Cause Reader Taken Unreadable skipSpace)

/-- A category as a JSON value. -/
def Category.toJson (c : Category) : Json :=
  .string c.name

/-- The category of a name, or the fault of a name that is none. -/
def Category.ofName (name : String) : Except Cause Category :=
  match Category.ofName? name with
  | some c => .ok c
  | none => .error (.unknownName name (Category.all.map Category.name))

/-! ## 1. From a value -/

/-- Reads a category from a JSON value. -/
def Category.ofJson : Json → Except Cause Category
  | .string name => Category.ofName name
  | .object [(name, v)] =>
    match Category.ofName name with
    | .error e => .error e
    | .ok c =>
      match v with
      | .null => .ok c
      | other => .error (.wrongType (Format.foundOf other) .unit)
  | .object _ => .error (.wrongValue .map .singleKey)
  | other => .error (.wrongType (Format.foundOf other) .textOrMap)

/-- Reads a category from a JSON value. A fault has no place. -/
def Category.fromJson (v : Json) : Except Unreadable Category :=
  (Category.ofJson v).mapError fun cause => ⟨cause, none⟩

/-! ## 2. From a text -/

/-- Reads a name behind its opening quote. -/
def Category.readName : Reader Category := fun cs =>
  match Json.readString cs with
  | .error e => .error e
  | .ok t => Format.settle t (Category.ofName t.value)

/-- Reads `null`. -/
def Category.readUnit : Reader Unit := fun cs =>
  match Format.readNull cs with
  | some null => null
  | none => .error (Format.mismatch .unit (skipSpace cs))

/-- Reads the end of an object of one member. -/
def Category.closeObject : Reader Unit := fun cs =>
  match h : skipSpace cs with
  | [] => .error (.before .endInObject [])
  | c :: rest =>
    if c = '\x7d' then .ok ((Taken.first ()).spaced h)
    else .error (.before .expectedValue (c :: rest))

/-- Reads what is behind the name in an object: a colon, `null`, and the closing brace. -/
def Category.readTail : Reader Unit := fun cs =>
  match Json.colon cs with
  | .error e => .error e
  | .ok t =>
    match Category.readUnit t.rest with
    | .error e => .error e
    | .ok u => (Category.closeObject u.rest).map fun v => t.andThen (u.andThen v)

/-- Reads a category from an object, behind the opening brace. -/
def Category.readObject : Reader Category := fun cs =>
  match h : skipSpace cs with
  | [] => .error (.behind .endInObject [])
  | c :: rest =>
    if c = '"' then
      match Category.readName rest with
      | .error e => .error e
      | .ok t =>
        (Category.readTail t.rest).map fun u =>
          ((t.andThen u).map fun _ => t.value).later.spaced h
    else if c = '\x7d' then .error (.behind .expectedValue (c :: rest))
    else .error (.behind .keyMustBeString (c :: rest))

/-- **Reads a category.** -/
def Category.read : Reader Category := fun cs =>
  match h : skipSpace cs with
  | [] => .error (.behind .endInValue [])
  | c :: rest =>
    if c = '"' then (Category.readName rest).map fun t => t.later.spaced h
    else if c = '\x7b' then (Category.readObject rest).map fun t => t.later.spaced h
    else .error (.behind .expectedValue (c :: rest))

/-- Reads a text that holds one category. -/
def Category.fromText (text : String) : Except Unreadable Category :=
  Json.whole Category.read text.toList

end SequenceChart
