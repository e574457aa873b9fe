import SequenceChart.Format.Shape
import SequenceChart.Json.Parse

/-!
# Reading charts from JSON texts

A chart is read off a text in one pass, without a JSON value in between, so a fault is found at
the first place where the text cannot be a chart.

* `readText`, `readList` and `readRecord` read the three shapes, given a reader for what is nested;
* a record is read from an object, in any order of its keys (`readMember`), or from a list with its
  fields in order (`readPositions`);
* `read` ties the readers together for a number of levels, and `fromText` reads a whole text.
-/

namespace SequenceChart.Format

open SequenceChart.Json (Cause Expected Fault Found Reader Taken Unreadable skipSpace)

/-! ## 1. Values of the wrong type -/

/-- What a JSON value is, as far as messages tell. -/
def foundOf : Json → Found
  | .null => .null
  | .bool b => .bool b
  | .number n => .number n
  | .string s => .string s
  | .array _ => .sequence
  | .object _ => .map

/-- The fault of a value that is not what was expected. The value is read first, unless it is a
    list or an object, and it may be at fault itself. -/
def mismatch (expected : Expected) (cs : List Char) : Fault :=
  match cs with
  | [] => .behind .endInValue []
  | c :: rest =>
    if c = '[' then .before (.wrongType .sequence expected) (c :: rest)
    else if c = '\x7b' then .before (.wrongType .map expected) (c :: rest)
    else
      match Json.readScalar (c :: rest) with
      | .error f => f
      | .ok t => .before (.wrongType (foundOf t.value) expected) t.rest

/-! ## 2. Texts and lists -/

/-- Reads a text. -/
def readText : Reader String := fun cs =>
  match h : skipSpace cs with
  | '"' :: rest => (Json.readString rest).map fun t => t.later.spaced h
  | other => .error (mismatch .text other)

/-- Reads a list. Without a reader for its items, no list may begin any more. -/
def readList {α : Type} (item : Option (Reader α)) : Reader (List α) := fun cs =>
  match h : skipSpace cs with
  | '[' :: rest =>
    match item with
    | none => .error (.behind .tooDeep ('[' :: rest))
    | some item => (Json.items Json.nextItem item true rest).map fun t => t.later.spaced h
  | other => .error (mismatch .sequence other)

/-! ## 3. Records -/

/-- Reads `null`, if it begins here. -/
def readNull (cs : List Char) : Option (Except Fault (Taken Unit cs)) :=
  match h : skipSpace cs with
  | 'n' :: rest => some ((Json.word () ['u', 'l', 'l'] 'n' rest).map (Taken.spaced h))
  | _ => none

/-- Reads a field, where `null` stands for nothing if the field is optional. -/
def readField {ρ : Type} (inside : (s : Shape) → Reader s.Carrier) (f : Field ρ) :
    Reader (Option f.shape.Carrier) := fun cs =>
  match f.optional, readNull cs with
  | true, some null => null.map fun t => t.map fun _ => none
  | _, _ => (inside f.shape cs).map fun t => t.map some

/-- The fault of a field that is given twice. It is noticed behind the second key, and behind the
    end of the object where that follows at once. -/
def duplicateFault (name : String) (cs : List Char) : Fault :=
  match skipSpace cs with
  | [] => .before (.duplicateField name) []
  | c :: rest =>
    if c = '\x7d' then .before (.duplicateField name) rest
    else .before (.duplicateField name) (c :: rest)

/-- Reads what is behind a key. A key that the record does not know is passed over with its
    value. -/
def readMember (r : Record) (inside : (s : Shape) → Reader s.Carrier) (d : Draft r.Carrier)
    (key : String) : Reader (Draft r.Carrier) := fun cs =>
  match r.field? key with
  | none =>
    match Json.colon cs with
    | .error e => .error e
    | .ok t => (Json.skip t.rest).map fun u => (t.andThen u).map fun _ => d
  | some f =>
    if d.has f then .error (duplicateFault f.name cs)
    else
      match Json.colon cs with
      | .error e => .error e
      | .ok t => (readField inside f t.rest).map fun u => (t.andThen u).map (d.give f)

/-- Reads the end of a list that has all fields of a record. -/
def closePositions {ρ : Type} (value : ρ) : Reader ρ := fun cs =>
  match h : skipSpace cs with
  | [] => .error (.behind .endInList [])
  | c :: rest =>
    if c = ']' then .ok ((Taken.first value).spaced h)
    else if c = ',' then
      match skipSpace rest with
      | [] => .error (.behind .trailingCharacters [])
      | d :: ds =>
        .error (.behind (if d = ']' then .trailingComma else .trailingCharacters) (d :: ds))
    else .error (.behind .trailingCharacters (c :: rest))

/-- Gives a value once its text is read, or reports behind the text why there is none. -/
def settle {α β : Type} {cs : List Char} (t : Taken α cs) :
    Except Cause β → Except Fault (Taken β cs)
  | .error cause => .error (.before cause t.rest)
  | .ok value => .ok (t.map fun _ => value)

/-- Reads fields of a record in their order, up to the end of the list. -/
def readPositions (r : Record) (inside : (s : Shape) → Reader s.Carrier) :
    (fields : List (Field r.Carrier)) → (first : Bool) → (i : Nat) → Draft r.Carrier →
      Reader r.Carrier
  | [], _, _, d, cs => closePositions d.value cs
  | f :: fs, first, i, d, cs =>
    match Json.nextItem first cs with
    | .error e => .error e
    | .ok (.close t) => settle t (r.short d.value (f :: fs) i)
    | .ok (.item here) =>
      match readField inside f here.rest with
      | .error e => .error e
      | .ok t =>
        (readPositions r inside fs false (i + 1) (d.give f t.value) t.rest).map fun u =>
          Taken.within (t.andThen u)

/-- Reads a record. Without a reader for its fields, no record may begin any more. -/
def readRecord (r : Record) (inside : Option ((s : Shape) → Reader s.Carrier)) :
    Reader r.Carrier := fun cs =>
  match h : skipSpace cs with
  | '[' :: rest =>
    match inside with
    | none => .error (.behind .tooDeep ('[' :: rest))
    | some inside =>
      (readPositions r inside r.fields true 0 r.draft rest).map fun t => t.later.spaced h
  | '\x7b' :: rest =>
    match inside with
    | none => .error (.behind .tooDeep ('\x7b' :: rest))
    | some inside =>
      match Json.members Json.nextKey (readMember r inside) true r.draft rest with
      | .error e => .error e
      | .ok t => (settle t (r.finish t.value)).map fun u => u.later.spaced h
  | other => .error (mismatch (.record r.title) other)

/-! ## 4. All shapes -/

/-- Reads a value of a shape, given a reader for what is nested in it. -/
def readLevel (inside : Option ((s : Shape) → Reader s.Carrier)) : (s : Shape) → Reader s.Carrier
  | .text => readText
  | .list item => readList (inside.map fun read => read item)
  | .record r => readRecord r inside

/-- **Reads a value of a shape** with at most this many brackets of it open at once. -/
def read : Nat → (s : Shape) → Reader s.Carrier
  | 0 => readLevel none
  | levels + 1 => readLevel (some (read levels))

/-- Reads a text that holds one value of a shape. -/
def fromText (s : Shape) (text : String) : Except Unreadable s.Carrier :=
  Json.whole (read Json.levelLimit s) text.toList

end SequenceChart.Format
