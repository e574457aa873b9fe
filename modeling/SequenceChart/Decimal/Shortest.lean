/-!
# The shortest decimal text of a double

A finite double is `m · 2 ^ q`, and every real number nearer to it than to its neighbours rounds to
it. Its shortest decimal is found on the coarsest decimal grid that has a point among these
numbers: of the two points of the grid around the double, the nearer one that rounds back.

* `Binary64` is a positive double, taken apart exactly;
* `Binary64.shortest` searches the grids from coarse to fine, in exact arithmetic on natural
  numbers;
* `Layout` says when the digits are written with a point alone and when with an exponent, and
  `render` writes them.
-/

namespace SequenceChart.Decimal

/-! ## 1. Doubles -/

/-- A positive double `m · 2 ^ q`. `closeBelow` says that the next smaller double is only half as
    far away as the next larger one. -/
structure Binary64 where
  m : Nat
  q : Int
  closeBelow : Bool

/-- The first bit of `m`, which is not written where it is always there. -/
def hiddenBit : Nat := 0x10000000000000

/-- The double of these bits, the sign left out. -/
def Binary64.ofBits (bits : UInt64) : Binary64 :=
  let field := (bits >>> 52).toNat % 0x800
  let fraction := bits.toNat % hiddenBit
  if field = 0 then ⟨fraction, -1074, false⟩
  else ⟨fraction + hiddenBit, (field : Int) - 1075, fraction = 0 && 1 < field⟩

/-! ## 2. Points of decimal grids -/

/-- The number `digits · 10 ^ exponent`. -/
structure Point where
  digits : Nat
  exponent : Int
  deriving DecidableEq, Repr

/-- `2 ^ e` for `0 ≤ e`, and 1 below. -/
def twoPow (e : Int) : Nat := Nat.pow 2 e.toNat

/-- `10 ^ e` for `0 ≤ e`, and 1 below. -/
def tenPow (e : Int) : Nat := Nat.pow 10 e.toNat

/-- The two sides of a comparison of `n · 10 ^ p` with `x · 2 ^ e`, both made whole. -/
def whole (n : Nat) (p : Int) (x : Nat) (e : Int) : Nat × Nat :=
  (n * tenPow p * twoPow (-e), x * twoPow e * tenPow (-p))

/-- The point rounds to the double: it is not beyond the middle between the double and either
    neighbour. A point in the middle rounds to the double whose last bit is 0. -/
def Binary64.roundsFrom (b : Binary64) (d : Point) : Bool :=
  let low := whole d.digits d.exponent (4 * b.m - if b.closeBelow then 1 else 2) (b.q - 2)
  let high := whole d.digits d.exponent (4 * b.m + 2) (b.q - 2)
  if b.m % 2 = 0 then low.2 ≤ low.1 && high.1 ≤ high.2
  else low.2 < low.1 && high.1 < high.2

/-- The distance of a point from the double, in a unit that depends on the grid alone. -/
def Binary64.distance (b : Binary64) (d : Point) : Nat :=
  let sides := whole d.digits d.exponent b.m b.q
  (sides.1 - sides.2) + (sides.2 - sides.1)

/-- The nearer of the two grid points around the double, among those that round to it. Of two
    that are equally near the one with an even last digit is taken. -/
def Binary64.onGrid (b : Binary64) (p : Int) : Option Point :=
  let sides := whole 1 p b.m b.q
  let below : Point := ⟨sides.2 / sides.1, p⟩
  let above : Point := ⟨sides.2 / sides.1 + 1, p⟩
  match b.roundsFrom below, b.roundsFrom above with
  | false, false => none
  | true, false => some below
  | false, true => some above
  | true, true =>
    if b.distance below < b.distance above then some below
    else if b.distance above < b.distance below then some above
    else if below.digits % 2 = 0 then some below else some above

/-- The first grid with a point that rounds to the double, from the grid `p` on downwards. Where
    the given number of grids holds none, the point below the double on the last one. -/
def Binary64.search (b : Binary64) : Nat → Int → Point
  | 0, p => ⟨(whole 1 p b.m b.q).2 / (whole 1 p b.m b.q).1, p⟩
  | grids + 1, p =>
    match b.onGrid p with
    | some d => d
    | none => search b grids (p - 1)

/-- **The shortest decimal that rounds to the double.** The search starts above the leading digit,
    and 17 digits always suffice, so 24 grids are enough. -/
def Binary64.shortest (b : Binary64) : Point :=
  b.search 24 ((b.q + b.m.log2) * 30103 / 100000 + 2)

/-! ## 3. Writing -/

/-- When a number is written with a point alone: if its leading digit stands for a power of ten
    from `least` on and below `limit`. Other numbers get an exponent with its sign. -/
structure Layout where
  least : Int
  limit : Int

/-- Digits with a point behind the first `n`, and a digit on either side of the point. -/
def pointed (digits : List Char) (n : Int) : List Char :=
  if n ≤ 0 then '0' :: '.' :: (List.replicate (-n).toNat '0' ++ digits)
  else if (digits.length : Int) ≤ n then
    digits ++ List.replicate (n.toNat - digits.length) '0' ++ ['.', '0']
  else digits.take n.toNat ++ '.' :: digits.drop n.toNat

/-- The exponent with its sign. -/
def exponentText (e : Int) : List Char :=
  (if e < 0 then '-' else '+') :: Nat.toDigits 10 e.natAbs

/-- The text of a positive decimal. -/
def Point.render (l : Layout) (d : Point) : List Char :=
  let digits := Nat.toDigits 10 d.digits
  let leading := d.exponent + digits.length - 1
  if l.least ≤ leading && leading < l.limit then pointed digits (leading + 1)
  else
    let head := match digits with
      | first :: second :: rest => first :: '.' :: second :: rest
      | short => short
    head ++ 'e' :: exponentText leading

/-- The text of the double of these bits, with its sign. -/
def render (l : Layout) (bits : UInt64) : String :=
  let negative := 1 ≤ (bits >>> 63).toNat
  let b := Binary64.ofBits bits
  let text := if b.m = 0 then ['0', '.', '0'] else b.shortest.render l
  String.ofList (if negative then '-' :: text else text)

end SequenceChart.Decimal
