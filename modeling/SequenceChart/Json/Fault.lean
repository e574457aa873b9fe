import SequenceChart.Json.Basic
import SequenceChart.Decimal.Shortest
import SequenceChart.Unicode.Unprintable

/-!
# What can be wrong with a JSON text

Reading stops at the first fault. This file holds the causes of faults, their wording and their
places:

* `Text.spell` shows a text between quotes so that every character can be told: quotes and
  backslashes behind a backslash, the usual short forms for the null character, tabs and line ends,
  and all other characters without a glyph by their number in hexadecimal digits between braces;
* `Cause` lists the ways to go wrong: the text ends too early, it is no JSON, or it is JSON that
  does not fit the type it is read as; `Cause.kind` tells these three apart;
* `Fault` is a cause with the number of bytes that were still to be read, which is how a reader
  that only sees the rest of a text says where it stopped;
* `Place` is the line and column of a fault, computed from the text once reading has stopped;
* `Unreadable` is what a caller gets: a cause, and a place where the value came from a text.
-/

namespace SequenceChart.Text

/-! ## 1. Texts as messages show them -/

/-- One character of a text that a message shows. -/
def spellChar (c : Char) : List Char :=
  if c = '"' then ['\\', '"']
  else if c = '\\' then ['\\', '\\']
  else if c = '\x00' then ['\\', '0']
  else if c = '\t' then ['\\', 't']
  else if c = '\n' then ['\\', 'n']
  else if c = '\r' then ['\\', 'r']
  else if Unicode.unprintable.has c then
    ['\\', 'u', '\x7b'] ++ Nat.toDigits 16 c.toNat ++ ['\x7d']
  else [c]

/-- A text as a message shows it. -/
def spell (text : String) : String :=
  String.ofList ('"' :: text.toList.flatMap spellChar ++ ['"'])

end SequenceChart.Text

namespace SequenceChart.Json

/-! ## 2. Causes -/

/-- What stands where something else was expected. -/
inductive Found where
  | null
  | bool (b : Bool)
  | number (n : Number)
  | string (s : String)
  | sequence
  | map
  deriving DecidableEq, Repr

/-- What was expected. -/
inductive Expected where
  | text
  | sequence
  | unit
  | textOrMap
  /-- A record of the given name. -/
  | record (name : String)
  /-- A record of the given name, written as a list of this many elements. -/
  | recordOf (name : String) (size : Nat)
  /-- A list without the elements that are too many. -/
  | fewerElements
  /-- An object with one member. -/
  | singleKey
  deriving DecidableEq, Repr

/-- The ways in which reading can fail. -/
inductive Cause where
  /-- The text ends inside of something. -/
  | endInValue | endInList | endInObject | endInString
  /-- The text is not JSON. -/
  | expectedIdent | expectedValue | expectedColon | expectedListMark | expectedObjectMark
  | trailingComma | trailingCharacters | keyMustBeString
  | controlCharacter | invalidEscape | loneSurrogate | unfinishedSurrogate
  | invalidNumber | numberOutOfRange | tooDeep
  /-- A value of another type than expected. -/
  | wrongType (found : Found) (expected : Expected)
  /-- A value of the right type that is still not what was expected. -/
  | wrongValue (found : Found) (expected : Expected)
  /-- A list of the wrong length. -/
  | wrongLength (length : Nat) (expected : Expected)
  /-- A field that has to be given is not. -/
  | missingField (name : String)
  /-- A field is given twice. -/
  | duplicateField (name : String)
  /-- A name that is none of the known ones. -/
  | unknownName (name : String) (known : List String)
  deriving DecidableEq, Repr

/-- The three kinds of causes. -/
inductive FaultKind where
  /-- The text ends too early. -/
  | early
  /-- The text is not JSON. -/
  | grammar
  /-- The value does not fit. -/
  | data
  deriving DecidableEq, Repr

/-- The kind of a cause. -/
def Cause.kind : Cause → FaultKind
  | .endInValue | .endInList | .endInObject | .endInString => .early
  | .wrongType .. | .wrongValue .. | .wrongLength .. | .missingField _ | .duplicateField _
  | .unknownName .. => .data
  | _ => .grammar

/-- The name of a kind in reports. -/
def FaultKind.name : FaultKind → String
  | .early => "eof"
  | .grammar => "syntax"
  | .data => "data"

/-! ## 3. Wording -/

/-- Doubles in messages: a point alone from 10^-5 on and below 10^16, and otherwise an exponent
    with its sign and no zeros in front. -/
def doubleLayout : Decimal.Layout := ⟨-5, 16⟩

/-- What stands there, in words. -/
def Found.describe : Found → String
  | .null => "null"
  | .bool b => "boolean `" ++ (if b then "true" else "false") ++ "`"
  | .number (.nat n) => "integer `" ++ toString n ++ "`"
  | .number (.neg n) => "integer `-" ++ toString n ++ "`"
  | .number (.double bits) => "floating point `" ++ Decimal.render doubleLayout bits ++ "`"
  | .string s => "string " ++ Text.spell s
  | .sequence => "sequence"
  | .map => "map"

/-- What was expected, in words. -/
def Expected.describe : Expected → String
  | .text => "a string"
  | .sequence => "a sequence"
  | .unit => "unit"
  | .textOrMap => "string or map"
  | .record name => "struct " ++ name
  | .recordOf name size => "struct " ++ name ++ " with " ++ toString size ++ " elements"
  | .fewerElements => "fewer elements in array"
  | .singleKey => "map with a single key"

/-- Names between backquotes, with commas between them. -/
def listNames (names : List String) : String :=
  ", ".intercalate (names.map fun name => "`" ++ name ++ "`")

/-- The text of a cause, without its place. -/
def Cause.message : Cause → String
  | .endInValue => "EOF while parsing a value"
  | .endInList => "EOF while parsing a list"
  | .endInObject => "EOF while parsing an object"
  | .endInString => "EOF while parsing a string"
  | .expectedIdent => "expected ident"
  | .expectedValue => "expected value"
  | .expectedColon => "expected `:`"
  | .expectedListMark => "expected `,` or `]`"
  | .expectedObjectMark => "expected `,` or `\x7d`"
  | .trailingComma => "trailing comma"
  | .trailingCharacters => "trailing characters"
  | .keyMustBeString => "key must be a string"
  | .controlCharacter => "control character (\\u0000-\\u001F) found while parsing a string"
  | .invalidEscape => "invalid escape"
  | .loneSurrogate => "lone leading surrogate in hex escape"
  | .unfinishedSurrogate => "unexpected end of hex escape"
  | .invalidNumber => "invalid number"
  | .numberOutOfRange => "number out of range"
  | .tooDeep => "recursion limit exceeded"
  | .wrongType found expected =>
    "invalid type: " ++ found.describe ++ ", expected " ++ expected.describe
  | .wrongValue found expected =>
    "invalid value: " ++ found.describe ++ ", expected " ++ expected.describe
  | .wrongLength length expected =>
    "invalid length " ++ toString length ++ ", expected " ++ expected.describe
  | .missingField name => "missing field `" ++ name ++ "`"
  | .duplicateField name => "duplicate field `" ++ name ++ "`"
  | .unknownName name known =>
    "unknown variant `" ++ name ++ "`, expected one of " ++ listNames known

/-! ## 4. Places -/

/-- The length of a text in UTF-8 bytes. -/
def bytes (text : List Char) : Nat :=
  text.foldl (fun n c => n + c.utf8Size) 0

/-- A cause with the number of bytes that were left when it was noticed. -/
structure Fault where
  cause : Cause
  left : Nat
  deriving DecidableEq, Repr

/-- A fault in front of the rest of the text. -/
def Fault.before (cause : Cause) (rest : List Char) : Fault := ⟨cause, bytes rest⟩

/-- A fault behind the first byte of the rest of the text. -/
def Fault.behind (cause : Cause) (rest : List Char) : Fault := ⟨cause, bytes rest - 1⟩

/-- A line, counted from 1, and a column, counted in bytes. -/
structure Place where
  line : Nat
  column : Nat
  deriving DecidableEq, Repr

/-- The place that many bytes into a text, counted on from a place. -/
def Place.advance : Place → Nat → List Char → Place
  | p, _, [] => p
  | p, offset, c :: cs =>
    if offset < c.utf8Size then ⟨p.line, p.column + offset⟩
    else if c = '\n' then advance ⟨p.line + 1, 0⟩ (offset - c.utf8Size) cs
    else advance ⟨p.line, p.column + c.utf8Size⟩ (offset - c.utf8Size) cs

/-- The place in a text at which this many bytes are left. -/
def Place.of (text : List Char) (left : Nat) : Place :=
  Place.advance ⟨1, 0⟩ (bytes text - left) text

/-- Why a value could not be read. There is a place if it was read from a text. -/
structure Unreadable where
  cause : Cause
  place : Option Place
  deriving DecidableEq, Repr

/-- The text of the message, which ends with the place. -/
def Unreadable.message (u : Unreadable) : String :=
  match u.place with
  | none => u.cause.message
  | some p =>
    u.cause.message ++ " at line " ++ toString p.line ++ " column " ++ toString p.column

/-- The fault with its place in the text that was read. -/
def Fault.locate (text : List Char) (f : Fault) : Unreadable :=
  ⟨f.cause, some (Place.of text f.left)⟩

end SequenceChart.Json
