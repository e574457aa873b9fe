import SequenceChart.Json.Quote
import SequenceChart.Json.Numeral

/-!
# Reading JSON values

* `nextItem` and `nextKey` are the marks between the items of a list and between the keys of an
  object;
* `readLevel` reads one value, given a reader for what is nested in it, if nesting is still allowed;
  `read` repeats it for as many levels as are allowed;
* `skip` passes over a value that nobody asked for. It is less strict than `read`: it has no limit
  of levels, and it does not look at the size of numbers and at surrogates. Its levels are bounded
  by the length of the text alone, which no value can exhaust;
* `parse` reads a text that holds one value and blanks.
-/

namespace SequenceChart.Json

/-! ## 1. Marks -/

/-- The mark in front of an item of a list, or its end. -/
def nextItem (first : Bool) (cs : List Char) : Except Fault (NextItem cs) :=
  match h : skipSpace cs with
  | [] => .error (.behind .endInList [])
  | c :: rest =>
    if c = ']' then .ok (.close ((Taken.first ()).spaced h))
    else if first then .ok (.item ((Rest.all (c :: rest)).spaced h))
    else if c = ',' then
      match h' : skipSpace rest with
      | [] => .error (.behind .endInValue [])
      | d :: ds =>
        if d = ']' then .error (.behind .trailingComma (d :: ds))
        else .ok (.item (((Rest.all (d :: ds)).spaced h').later.spaced h))
    else .error (.behind .expectedListMark (c :: rest))

/-- Reads a key, which has to begin here. -/
def readKey : Reader String
  | '"' :: rest => (readString rest).map Taken.later
  | other => .error (.behind .keyMustBeString other)

/-- The next key of an object, or its end. -/
def nextKey (first : Bool) (cs : List Char) : Except Fault (NextKey String cs) :=
  match h : skipSpace cs with
  | [] => .error (.behind .endInObject [])
  | c :: rest =>
    if c = '\x7d' then .ok (.close ((Taken.first ()).spaced h))
    else if first then (readKey (c :: rest)).map fun t => .key (t.spaced h)
    else if c = ',' then
      match h' : skipSpace rest with
      | [] => .error (.behind .endInValue [])
      | d :: ds =>
        if d = '\x7d' then .error (.behind .trailingComma (d :: ds))
        else (readKey (d :: ds)).map fun t => .key ((t.spaced h').later.spaced h)
    else .error (.behind .expectedObjectMark (c :: rest))

/-! ## 2. Values -/

/-- Reads a value behind a colon and puts it into an object. -/
def member (value : Reader Json) (ms : Members) (key : String) : Reader Members := fun cs =>
  match colon cs with
  | .error f => .error f
  | .ok t => (value t.rest).map fun u => (t.andThen u).map fun v => ms.put key v

/-- Reads a value that is neither a list nor an object. -/
def readScalar : Reader Json
  | [] => .error (.behind .endInValue [])
  | c :: cs =>
    if c = '"' then (readString cs).map fun t => (t.map Json.string).later
    else if c = '-' || c.isDigit then (readNumber (c :: cs)).map fun t => t.map Json.number
    else if c = 'n' then word .null ['u', 'l', 'l'] c cs
    else if c = 't' then word (.bool true) ['r', 'u', 'e'] c cs
    else if c = 'f' then word (.bool false) ['a', 'l', 's', 'e'] c cs
    else .error (.behind .expectedValue (c :: cs))

/-- Reads one value. What is nested in it is read by the given reader; without one, nothing may be
    nested any more. -/
def readLevel (inside : Option (Reader Json)) : Reader Json := fun cs =>
  match h : skipSpace cs with
  | [] => .error (.behind .endInValue [])
  | c :: rest =>
    if c = '[' then
      match inside with
      | none => .error (.behind .tooDeep (c :: rest))
      | some value =>
        (items nextItem value true rest).map fun t => (t.map Json.array).later.spaced h
    else if c = '\x7b' then
      match inside with
      | none => .error (.behind .tooDeep (c :: rest))
      | some value =>
        (members nextKey (member value) true [] rest).map fun t =>
          (t.map Json.object).later.spaced h
    else (readScalar (c :: rest)).map (Taken.spaced h)

/-- **Reads a value** with at most this many brackets open at once. -/
def read : Nat → Reader Json
  | 0 => readLevel none
  | levels + 1 => readLevel (some (read levels))

/-! ## 3. Values that nobody asked for -/

/-- The mark in front of an item that is passed over, or the end of the list. -/
def skipNextItem (first : Bool) (cs : List Char) : Except Fault (NextItem cs) :=
  match h : skipSpace cs with
  | [] => .error (.behind .endInList [])
  | c :: rest =>
    if c = ']' then .ok (.close ((Taken.first ()).spaced h))
    else if first then .ok (.item ((Rest.all (c :: rest)).spaced h))
    else if c = ',' then .ok (.item ((Rest.all rest).later.spaced h))
    else .error (.behind .expectedListMark (c :: rest))

/-- Passes over a key, which has to begin here or behind blanks. -/
def skipKey : Reader Unit := fun cs =>
  match h : skipSpace cs with
  | [] => .error (.behind .endInObject [])
  | c :: rest =>
    if c = '"' then (skipString rest).map fun t => t.later.spaced h
    else .error (.behind .keyMustBeString (c :: rest))

/-- The next key that is passed over, or the end of the object. -/
def skipNextKey (first : Bool) (cs : List Char) : Except Fault (NextKey Unit cs) :=
  match h : skipSpace cs with
  | [] => .error (.behind .endInObject [])
  | c :: rest =>
    if c = '\x7d' then .ok (.close ((Taken.first ()).spaced h))
    else if first then (skipKey (c :: rest)).map fun t => .key (t.spaced h)
    else if c = ',' then (skipKey rest).map fun t => .key (t.later.spaced h)
    else .error (.behind .expectedObjectMark (c :: rest))

/-- Passes over a value behind a colon. -/
def skipMember (value : Reader Unit) (_ : Unit) (_ : Unit) : Reader Unit := fun cs =>
  match colon cs with
  | .error f => .error f
  | .ok t => (value t.rest).map t.andThen

/-- Passes over a value that is neither a list nor an object. -/
def skipScalar : Reader Unit
  | [] => .error (.behind .endInValue [])
  | c :: cs =>
    if c = '"' then (skipString cs).map Taken.later
    else if c = '-' || c.isDigit then skipNumber (c :: cs)
    else (readScalar (c :: cs)).map fun t => t.map fun _ => ()

/-- Passes over one value, given how to pass over what is nested in it. -/
def skipLevel (inside : Option (Reader Unit)) : Reader Unit := fun cs =>
  match h : skipSpace cs with
  | [] => .error (.behind .endInValue [])
  | c :: rest =>
    if c = '[' then
      match inside with
      | none => .error (.behind .tooDeep (c :: rest))
      | some value =>
        (items skipNextItem value true rest).map fun t => (t.map fun _ => ()).later.spaced h
    else if c = '\x7b' then
      match inside with
      | none => .error (.behind .tooDeep (c :: rest))
      | some value =>
        (members skipNextKey (skipMember value) true () rest).map fun t => t.later.spaced h
    else (skipScalar (c :: rest)).map (Taken.spaced h)

/-- Passes over a value with at most this many brackets open at once. -/
def skipLevels : Nat → Reader Unit
  | 0 => skipLevel none
  | levels + 1 => skipLevel (some (skipLevels levels))

/-- **Passes over a value.** A text of `n` characters opens at most `n` brackets. -/
def skip : Reader Unit := fun cs =>
  skipLevels cs.length cs

/-! ## 4. Whole texts -/

/-- Reads a text that holds what the reader takes, and blanks around it. -/
def whole {α : Type} (reader : Reader α) (text : List Char) : Except Unreadable α :=
  match reader text with
  | .error f => .error (f.locate text)
  | .ok t =>
    match skipSpace t.rest with
    | [] => .ok t.value
    | c :: rest => .error ((Fault.behind .trailingCharacters (c :: rest)).locate text)

/-- Brackets that may be open at once in a text. -/
def levelLimit : Nat := 127

/-- Reads a text that holds one JSON value, with at most this many brackets open at once. -/
def parse (levels : Nat) (text : String) : Except Unreadable Json :=
  whole (read levels) text.toList

end SequenceChart.Json
