import SequenceChart.Json.Reader

/-!
# Strings of JSON texts

Both readers here begin behind the opening quote.

* `stringRest` reads a string. An escape by number above U+FFFF is written as two surrogates, and a
  surrogate without its partner is a fault.
* `skipString` passes over a string that nobody asked for. It does not look at surrogates, and it
  stops in front of a control character where `stringRest` stops behind it.
-/

namespace SequenceChart.Json

/-! ## 1. Escapes -/

/-- The value of a hexadecimal digit, in either case. -/
def hexDigit? (c : Char) : Option Nat :=
  if '0' ≤ c && c ≤ '9' then some (c.toNat - 48)
  else if 'a' ≤ c && c ≤ 'f' then some (c.toNat - 87)
  else if 'A' ≤ c && c ≤ 'F' then some (c.toNat - 55)
  else none

/-- The fault of a text whose first four bytes are no hexadecimal digits. All four are taken. -/
def hexFault (cs : List Char) : Fault :=
  if bytes cs < 4 then .before .endInString [] else ⟨.invalidEscape, bytes cs - 4⟩

/-- Reads four hexadecimal digits. -/
def hex4 : Reader Nat
  | a :: b :: c :: d :: rest =>
    match hexDigit? a, hexDigit? b, hexDigit? c, hexDigit? d with
    | some a', some b', some c', some d' =>
      .ok (Taken.first (((a' * 16 + b') * 16 + c') * 16 + d')).later.later.later
    | _, _, _, _ => .error (hexFault (a :: b :: c :: d :: rest))
  | short => .error (hexFault short)

/-- The character that one letter behind a backslash stands for. -/
def shortEscape? (c : Char) : Option Char :=
  if c = '"' then some '"'
  else if c = '\\' then some '\\'
  else if c = '/' then some '/'
  else if c = 'b' then some '\x08'
  else if c = 'f' then some '\x0c'
  else if c = 'n' then some '\n'
  else if c = 'r' then some '\r'
  else if c = 't' then some '\t'
  else none

/-- The first of two surrogates. -/
def isLead (n : Nat) : Bool := 0xD800 ≤ n && n < 0xDC00

/-- The second of two surrogates. -/
def isTrail (n : Nat) : Bool := 0xDC00 ≤ n && n < 0xE000

/-- Reads what has to follow a first surrogate: a backslash, the letter `u`, and the number of the
    second surrogate. -/
def trail : Reader Nat
  | [] => .error (.before .endInString [])
  | '\\' :: 'u' :: rest =>
    match hex4 rest with
    | .error f => .error f
    | .ok t => if isTrail t.value then .ok t.later.later else .error (.before .loneSurrogate t.rest)
  | ['\\'] => .error (.before .endInString [])
  | '\\' :: c :: rest => .error (.behind .unfinishedSurrogate (c :: rest))
  | c :: rest => .error (.behind .unfinishedSurrogate (c :: rest))

/-- Reads the number behind a backslash and the letter `u`, and the second surrogate where the
    number is a first one. -/
def codePoint : Reader Char := fun cs =>
  match hex4 cs with
  | .error f => .error f
  | .ok t =>
    if isTrail t.value then .error (.before .loneSurrogate t.rest)
    else if isLead t.value then
      (trail t.rest).map fun u => (t.andThen u).map fun low =>
        Char.ofNat (0x10000 + (t.value - 0xD800) * 0x400 + (low - 0xDC00))
    else .ok (t.map Char.ofNat)

/-- Reads what is behind a backslash. -/
def escaped : Reader Char
  | [] => .error (.before .endInString [])
  | c :: rest =>
    match shortEscape? c with
    | some d => .ok (.first d)
    | none =>
      if c = 'u' then (codePoint rest).map Taken.later
      else .error (.behind .invalidEscape (c :: rest))

/-! ## 2. Strings -/

/-- **Reads the rest of a string**, up to and with the closing quote. -/
def stringRest (cs : List Char) : Except Fault (Taken (List Char) cs) :=
  match cs with
  | [] => .error (.before .endInString [])
  | c :: rest =>
    if c = '"' then .ok (.first [])
    else if c = '\\' then
      match escaped rest with
      | .error f => .error f
      | .ok t => (stringRest t.rest).map fun u => ((t.andThen u).map (t.value :: ·)).later
    else if c.toNat < 0x20 then .error (.before .controlCharacter rest)
    else (stringRest rest).map fun u => (u.map (c :: ·)).later
termination_by cs.length
decreasing_by
  · exact Nat.lt_succ_of_lt t.shorter
  · exact Nat.lt_succ_self _

/-- Reads a string behind its opening quote. -/
def readString : Reader String := fun cs =>
  (stringRest cs).map fun t => t.map String.ofList

/-! ## 3. Strings that nobody asked for -/

/-- Passes over what is behind a backslash. -/
def skipEscaped : Reader Unit
  | [] => .error (.before .endInString [])
  | c :: rest =>
    if (shortEscape? c).isSome then .ok (.first ())
    else if c = 'u' then (hex4 rest).map fun t => (t.map fun _ => ()).later
    else .error (.behind .invalidEscape (c :: rest))

/-- Passes over the rest of a string, up to and with the closing quote. -/
def skipString (cs : List Char) : Except Fault (Taken Unit cs) :=
  match cs with
  | [] => .error (.before .endInString [])
  | c :: rest =>
    if c = '"' then .ok (.first ())
    else if c = '\\' then
      match skipEscaped rest with
      | .error f => .error f
      | .ok t => (skipString t.rest).map fun u => (t.andThen u).later
    else if c.toNat < 0x20 then .error (.before .controlCharacter (c :: rest))
    else (skipString rest).map Taken.later
termination_by cs.length
decreasing_by
  · exact Nat.lt_succ_of_lt t.shorter
  · exact Nat.lt_succ_self _

end SequenceChart.Json
