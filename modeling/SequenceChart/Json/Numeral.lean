import SequenceChart.Json.Reader

/-!
# Numbers of JSON texts

A number is read in two steps. `numeral` takes its parts off the text and checks their form;
`Numeral.value` says which number they mean.

A whole number in the range of 64 bits is exact. Every other number becomes a double: its digits
are gathered in 64 bits, digits that do not fit only count as places, and the result is multiplied
or divided by a power of ten. That is within a few units of the nearest double, not always the
nearest, and it is what decides which double a text means.
-/

namespace SequenceChart.Json

/-! ## 1. The form of a number -/

/-- An exponent: its sign and its digits. -/
structure Exponent where
  negative : Bool
  digits : List Char

/-- A number in parts. There is no fraction if it has no digits. -/
structure Numeral where
  negative : Bool
  whole : List Char
  fraction : List Char
  exponent : Option Exponent

/-- The digits at the front of a text. -/
def digitsOf (cs : List Char) : List Char := cs.takeWhile Char.isDigit

/-- The text behind the digits at its front. -/
def behindDigits (cs : List Char) : Rest cs :=
  ⟨cs.dropWhile Char.isDigit, (List.dropWhile_sublist _).length_le⟩

/-- A part of a number and the text behind it, which may be the whole text. -/
abbrev Part (α : Type) (cs : List Char) := α × Rest cs

/-- Reads the digits in front of the point. A zero stands alone. `atEnd` is the cause that is given
    where the text ends. -/
def wholePart (atEnd : Cause) : Reader (List Char)
  | [] => .error (.before atEnd [])
  | c :: cs =>
    if c = '0' then
      match cs with
      | [] => .ok (.first ['0'])
      | d :: ds =>
        if d.isDigit then .error (.behind .invalidNumber (d :: ds)) else .ok (.first ['0'])
    else if c.isDigit then .ok (.withFirst (c :: digitsOf cs) (behindDigits cs))
    else .error (.behind .invalidNumber (c :: cs))

/-- Reads a point and the digits behind it, if there is a point. -/
def fractionPart (atEnd : Cause) : (cs : List Char) → Except Fault (Part (List Char) cs)
  | [] => .ok ([], .all [])
  | c :: cs =>
    if c = '.' then
      match cs with
      | [] => .error (.behind atEnd [])
      | d :: ds =>
        if d.isDigit then .ok (d :: digitsOf ds, (behindDigits ds).later.later)
        else .error (.behind .invalidNumber (d :: ds))
    else .ok ([], .all (c :: cs))

/-- Reads the sign of an exponent. -/
def exponentSign : (cs : List Char) → Part Bool cs
  | '-' :: cs => (true, (Rest.all cs).later)
  | '+' :: cs => (false, (Rest.all cs).later)
  | cs => (false, .all cs)

/-- Reads the digits of an exponent. There is at least one. -/
def exponentDigits (atEnd : Cause) : Reader (List Char)
  | [] => .error (.before atEnd [])
  | c :: cs =>
    if c.isDigit then .ok (.withFirst (c :: digitsOf cs) (behindDigits cs))
    else .error (.behind .invalidNumber (c :: cs))

/-- Reads an exponent, if there is one. -/
def exponentPart (atEnd : Cause) : (cs : List Char) → Except Fault (Part (Option Exponent) cs)
  | [] => .ok (none, .all [])
  | c :: cs =>
    if c = 'e' || c = 'E' then
      let sign := exponentSign cs
      (exponentDigits atEnd sign.2.rest).map fun t =>
        (some ⟨sign.1, t.value⟩, (Taken.within t).left.later)
    else .ok (none, .all (c :: cs))

/-- Reads a minus sign, if there is one. -/
def minusSign : (cs : List Char) → Part Bool cs
  | '-' :: cs => (true, (Rest.all cs).later)
  | cs => (false, .all cs)

/-- **Reads the parts of a number.** What follows a complete number is left, whatever it is. -/
def numeral (atEnd : Cause) : Reader Numeral := fun cs =>
  let sign := minusSign cs
  match wholePart atEnd sign.2.rest with
  | .error f => .error f
  | .ok whole =>
    match fractionPart atEnd whole.rest with
    | .error f => .error f
    | .ok fraction =>
      match exponentPart atEnd fraction.2.rest with
      | .error f => .error f
      | .ok exponent =>
        .ok (Taken.within (((whole.upTo fraction.2).upTo exponent.2).map fun digits =>
          ⟨sign.1, digits, fraction.1, exponent.1⟩))

/-! ## 2. Digits in 64 bits -/

/-- Natural numbers that fit in 64 bits are below this one. -/
def wordLimit : Nat := 0x10000000000000000

/-- The negative numbers that fit in 64 bits go down to this one. -/
def negativeLimit : Nat := 0x8000000000000000

/-- Exponents that fit in 32 bits with their sign are below this one. -/
def exponentLimit : Nat := 0x80000000

/-- The value of a digit. -/
def digitValue (c : Char) : Nat := c.toNat - 48

/-- Digits gathered so far: the number `digits · 10 ^ places`. It is full once a digit did not
    fit. -/
structure Gathered where
  digits : Nat
  places : Int
  full : Bool

/-- One more digit in front of the point. After the first digit that does not fit, every digit
    only counts as a place. -/
def Gathered.wholeDigit (g : Gathered) (c : Char) : Gathered :=
  if g.full || wordLimit ≤ g.digits * 10 + digitValue c then ⟨g.digits, g.places + 1, true⟩
  else ⟨g.digits * 10 + digitValue c, g.places, false⟩

/-- One more digit behind the point. After the first digit that does not fit, none counts. -/
def Gathered.fractionDigit (g : Gathered) (c : Char) : Gathered :=
  if g.full || wordLimit ≤ g.digits * 10 + digitValue c then ⟨g.digits, g.places, true⟩
  else ⟨g.digits * 10 + digitValue c, g.places - 1, false⟩

/-- The digits in front of the point. -/
def gatherWhole (digits : List Char) : Gathered :=
  digits.foldl Gathered.wholeDigit ⟨0, 0, false⟩

/-- The digits behind the point, gathered behind those in front of it. Whether a digit fits is
    asked anew. -/
def gatherFraction (g : Gathered) (digits : List Char) : Gathered :=
  digits.foldl Gathered.fractionDigit { g with full := false }

/-! ## 3. Doubles -/

/-- The double nearest to a power of ten. -/
def powerOfTen (n : Nat) : Float := Float.ofScientific 1 false n

/-- The double for a power of ten below all doubles, and one that it can be divided by on the way. -/
def scaleDown (f : Float) (exponent : Int) : Float :=
  if exponent < -308 then
    if f == 0.0 then f else scaleDown (f / powerOfTen 308) (exponent + 308)
  else f / powerOfTen exponent.natAbs
termination_by exponent.natAbs
decreasing_by omega

/-- The double for `digits · 10 ^ exponent`, if it is not too large. -/
def scale (digits : Nat) (exponent : Int) : Option Float :=
  let f := Float.ofNat digits
  if exponent < 0 then some (scaleDown f exponent)
  else if exponent ≤ 308 then
    let g := f * powerOfTen exponent.natAbs
    if g.isInf then none else some g
  else if f == 0.0 then some f
  else none

/-- A double with a sign. -/
def signed (negative : Bool) (f : Float) : Number :=
  .double (if negative then -f else f).toBits

/-! ## 4. The value of a number -/

/-- The exponent, or, where it does not fit in 32 bits, the number of digits behind the first one
    that is too many. -/
def exponentValue : (sum : Nat) → List Char → Nat ⊕ Nat
  | sum, [] => .inl sum
  | sum, c :: cs =>
    if exponentLimit ≤ sum * 10 + digitValue c then .inr cs.length
    else exponentValue (sum * 10 + digitValue c) cs

/-- A whole number without point and exponent. The negative zero is a double. -/
def wholeNumber (negative : Bool) (n : Nat) : Number :=
  if !negative then .nat n
  else if n = 0 || negativeLimit < n then signed true (Float.ofNat n)
  else .neg n

/-- **The number that the parts mean.** A number that is too large for a double has none; the
    error is the count of bytes of the number that are not looked at any more. -/
def Numeral.value (n : Numeral) : Except Nat Number :=
  let whole := gatherWhole n.whole
  let all := gatherFraction whole n.fraction
  match n.exponent with
  | none =>
    if n.fraction = [] && !whole.full then .ok (wholeNumber n.negative whole.digits)
    else
      match scale all.digits all.places with
      | some f => .ok (signed n.negative f)
      | none => .error 0
  | some e =>
    match exponentValue 0 e.digits with
    | .inl x =>
      match scale all.digits (if e.negative then all.places - x else all.places + x) with
      | some f => .ok (signed n.negative f)
      | none => .error 0
    | .inr unread =>
      if all.digits = 0 || e.negative then .ok (signed n.negative 0.0) else .error unread

/-- **Reads a number.** -/
def readNumber : Reader Number := fun cs =>
  match numeral .endInValue cs with
  | .error f => .error f
  | .ok t =>
    match t.value.value with
    | .ok n => .ok (t.map fun _ => n)
    | .error unread => .error ⟨.numberOutOfRange, bytes t.rest + unread⟩

/-- Passes over a number that nobody asked for. Its size does not matter, and every fault in its
    form has the same cause. -/
def skipNumber : Reader Unit := fun cs =>
  (numeral .invalidNumber cs).map fun t => t.map fun _ => ()

end SequenceChart.Json
