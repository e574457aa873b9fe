import SequenceChart.Format.FromText

/-!
# Reading charts from JSON values

The same shapes are read from a JSON value that is at hand already. The table of fields and the
rules for records are those that texts are read by; what differs is that a value has no places, and
that a list that is too long for a record is noticed only behind its last element.
-/

namespace SequenceChart.Format

open SequenceChart.Json (Cause Unreadable)

/-- What an optional field is read as: nothing from `null`, and otherwise what its value is read
    as. -/
def orNull {α : Type} (optional : Bool) (v : Json) (x : Except Cause α) :
    Except Cause (Option α) :=
  match optional, v with
  | true, .null => .ok none
  | _, _ =>
    match x with
    | .error e => .error e
    | .ok a => .ok (some a)

mutual

/-- **Reads a value of a shape.** -/
def ofJson : (s : Shape) → Json → Except Cause s.Carrier
  | .text, .string s => .ok s
  | .list item, .array vs => ofItems item vs
  | .record r, .object ms =>
    match ofMembers r r.draft ms with
    | .error e => .error e
    | .ok d => r.finish d
  | .record r, .array vs => ofPositions r r.fields 0 vs.length r.draft vs
  | s, v => .error (.wrongType (foundOf v) s.expected)

/-- Reads the items of a list. -/
def ofItems (item : Shape) : List Json → Except Cause (List item.Carrier)
  | [] => .ok []
  | v :: vs =>
    match ofJson item v with
    | .error e => .error e
    | .ok x =>
      match ofItems item vs with
      | .error e => .error e
      | .ok xs => .ok (x :: xs)

/-- Reads the members of an object. -/
def ofMembers (r : Record) (d : Draft r.Carrier) :
    List (String × Json) → Except Cause (Draft r.Carrier)
  | [] => .ok d
  | (key, v) :: ms =>
    match r.field? key with
    | none => ofMembers r d ms
    | some f =>
      if d.has f then .error (.duplicateField f.name)
      else
        match orNull f.optional v (ofJson f.shape v) with
        | .error e => .error e
        | .ok x => ofMembers r (d.give f x) ms

/-- Reads fields in their order. `size` is the length of the whole list. -/
def ofPositions (r : Record) (fields : List (Field r.Carrier)) (i size : Nat)
    (d : Draft r.Carrier) : List Json → Except Cause r.Carrier
  | [] => r.short d.value fields i
  | v :: vs =>
    match fields with
    | [] => .error (.wrongLength size .fewerElements)
    | f :: fs =>
      match orNull f.optional v (ofJson f.shape v) with
      | .error e => .error e
      | .ok x => ofPositions r fs (i + 1) size (d.give f x) vs

end

/-- Reads a value of a shape. A fault has no place. -/
def fromJson (s : Shape) (v : Json) : Except Unreadable s.Carrier :=
  (ofJson s v).mapError fun cause => ⟨cause, none⟩

end SequenceChart.Format
