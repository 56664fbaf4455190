import TypedCsv.Number.Digits

/-! # Binary numbers of 64 bits

A `Binary64` is a sign, an exponent and a significand in the usual layout of 64 bits, or one of
the infinities, or no number. Reading rounds to the nearest such number, ties to the even
significand; writing takes the fewest decimal digits that read back.

* `Binary64.ofRatio`: the nearest number to a quotient of natural numbers.
* `Binary64.Interval`: the reals that round to a number, on a common denominator.
* `Binary64.shortest`: the fewest digits inside that interval, nearest to the number.
* `Binary64.display`, `Binary64.read`: the text forms. -/

namespace TypedCsv

/-- A binary number of 64 bits. -/
structure Binary64 where
  bits : UInt64
deriving DecidableEq, Repr

namespace Binary64

/-- The sign bit. -/
def negative (x : Binary64) : Bool :=
  2 ^ 63 ≤ x.bits.toNat

/-- The bits below the sign bit. -/
def magnitudeBits (x : Binary64) : Nat :=
  x.bits.toNat % 2 ^ 63

/-- The bits of infinity without its sign. -/
def infinityBits : Nat := 2047 * 2 ^ 52

/-- Whether the bits stand for no number. -/
def isNaN (x : Binary64) : Bool :=
  infinityBits < x.magnitudeBits

/-- Whether the bits stand for an infinity. -/
def isInfinite (x : Binary64) : Bool :=
  x.magnitudeBits == infinityBits

/-- Whether two floats are equal as numbers: the zeros are, and what is no number never is. -/
def equal (x y : Binary64) : Bool :=
  ! x.isNaN && ! y.isNaN
    && (x.bits == y.bits || x.magnitudeBits == 0 && y.magnitudeBits == 0)

/-- The number with the given sign and magnitude bits. -/
def ofMagnitudeBits (negative : Bool) (bits : Nat) : Binary64 :=
  ⟨UInt64.ofNat (if negative then 2 ^ 63 + bits else bits)⟩

/-! ## Nearest number to a quotient -/

/-- The quotient rounded to the nearest whole number, a half to the even one. -/
def roundQuotient (numerator denominator : Nat) : Nat :=
  let quotient := numerator / denominator
  let rest := numerator % denominator
  if 2 * rest < denominator then quotient
  else if 2 * rest > denominator then quotient + 1
  else if quotient % 2 = 0 then quotient else quotient + 1

/-- The binary exponent `e` for which the positive quotient is at least `2 ^ 52` and less than
`2 ^ 53` units of `2 ^ e`; never less than that of the subnormal numbers. -/
def unitExponent (numerator denominator : Nat) : Int :=
  -- the logarithms are off by less than one each, so the guess is at most one too small
  let guess : Int := (numerator.log2 : Int) - denominator.log2 - 53
  let units := numerator * 2 ^ (-guess).toNat / (denominator * 2 ^ guess.toNat)
  let fitted := if 2 ^ 53 ≤ units then guess + 1 else guess
  max (-1074) fitted

/-- The number nearest to `numerator / denominator`; both are positive. -/
def ofRatio (negative : Bool) (numerator denominator : Nat) : Binary64 :=
  let e := unitExponent numerator denominator
  let significand := roundQuotient (numerator * 2 ^ (-e).toNat) (denominator * 2 ^ e.toNat)
  -- a significand of `2 ^ 53` carries into the exponent, which gives the next number
  let bits := (e + 1074).toNat * 2 ^ 52 + significand
  ofMagnitudeBits negative (min bits infinityBits)

/-- The number nearest to `digits * 10 ^ exponent`. Exponents that lead far out of the range are
settled by the number of digits. -/
def ofScientific (negative : Bool) (digits : Nat) (exponent : Int) : Binary64 :=
  if digits = 0 then ofMagnitudeBits negative 0
  else
    let size : Int := (Digits.ofNat digits).length + exponent
    if size > 400 then ofMagnitudeBits negative infinityBits
    else if size < -400 then ofMagnitudeBits negative 0
    else ofRatio negative (digits * 10 ^ exponent.toNat) (10 ^ (-exponent).toNat)

/-! ## Fewest digits that read back -/

/-- The significand and the binary exponent of the magnitude of a finite number. -/
def parts (x : Binary64) : Nat × Int :=
  let exponent : Nat := x.magnitudeBits / 2 ^ 52
  let fraction : Nat := x.magnitudeBits % 2 ^ 52
  if exponent = 0 then (fraction, -1074) else (2 ^ 52 + fraction, (exponent : Int) - 1075)

/-- The reals that round to a number, the number itself among them, on a common denominator. -/
structure Interval where
  low : Nat
  middle : Nat
  high : Nat
  denominator : Nat
  /-- Whether the two ends belong to it. -/
  closed : Bool

/-- The reals that round to the magnitude of a finite number. Below a power of two the numbers
lie twice as close as above it. -/
def interval (x : Binary64) : Interval :=
  let (m, q) := x.parts
  let below := if m = 2 ^ 52 ∧ -1074 < q then 1 else 2
  let unit := 2 ^ (q - 2).toNat
  { low := (4 * m - below) * unit
    middle := 4 * m * unit
    high := (4 * m + 2) * unit
    denominator := 2 ^ (2 - q).toNat
    closed := m % 2 = 0 }

/-- Whether a numerator lies in the interval. -/
def Interval.contains (i : Interval) (numerator : Nat) : Bool :=
  if i.closed then i.low ≤ numerator && numerator ≤ i.high
  else i.low < numerator && numerator < i.high

/-- The multiple of `10 ^ exponent` in the interval that is nearest to its middle, if there is
one; of two equally near ones the greater. -/
def Interval.onGrid (i : Interval) (exponent : Int) : Option Nat :=
  let shift := 10 ^ (-exponent).toNat
  let i : Interval :=
    { i with low := i.low * shift, middle := i.middle * shift, high := i.high * shift }
  let step := i.denominator * 10 ^ exponent.toNat
  let below := i.middle / step
  let lower := below * step
  let upper := lower + step
  if i.contains lower && (! i.contains upper || i.middle - lower < upper - i.middle) then
    some below
  else if i.contains upper then some (below + 1)
  else none

/-- A power of ten above the magnitude of a finite number that is not zero. -/
def topExponent (x : Binary64) : Int :=
  let (m, q) := x.parts
  ((m.log2 : Int) + 1 + q) * 30103 / 100000 + 1

/-- The exact digits and the exponent of a magnitude. -/
def exact (x : Binary64) : Nat × Int :=
  let (m, q) := x.parts
  (m * 2 ^ q.toNat * 5 ^ (-q).toNat, min q 0)

/-- The fewest digits that read back as the magnitude of a finite number that is not zero, and
their exponent of ten: the first grid from above that meets the interval. -/
def shortest (x : Binary64) : Nat × Int :=
  let top := x.topExponent
  -- seventeen digits are always enough
  let found := (List.range 24).findSome? fun (step : Nat) =>
    let exponent := top - (step : Int)
    (x.interval.onGrid exponent).map (·, exponent)
  found.getD x.exact

/-! ## Text forms -/

/-- The text of a finite magnitude, without an exponent. -/
def displayMagnitude (x : Binary64) : List Char :=
  if x.magnitudeBits = 0 then ['0']
  else
    let (digits, exponent) := x.shortest
    Digits.fixed (digits * 10 ^ exponent.toNat) (-exponent).toNat

/-- The text of a number: the fewest digits that read back, never with an exponent. -/
def display (x : Binary64) : List Char :=
  if x.isNaN then ['N', 'a', 'N']
  else
    let magnitude := if x.isInfinite then ['i', 'n', 'f'] else x.displayMagnitude
    if x.negative then '-' :: magnitude else magnitude

/-- Why a text is no number. -/
inductive Fault where
  | empty
  | invalid
deriving Repr, DecidableEq

/-- The wording of a fault. -/
def Fault.message : Fault → String
  | empty => "cannot parse float from empty string"
  | invalid => "invalid float literal"

/-- Reads the digits of an exponent after its mark: an optional sign and at least one digit. -/
def readExponent : List Char → Option Int
  | '-' :: digits =>
    if digits.isEmpty || ! digits.all Digits.isDigit then none else some (-(Digits.value digits))
  | '+' :: digits =>
    if digits.isEmpty || ! digits.all Digits.isDigit then none else some (Digits.value digits)
  | digits =>
    if digits.isEmpty || ! digits.all Digits.isDigit then none else some (Digits.value digits)

/-- Reads digits with an optional point and an optional exponent. -/
def readDecimal (negative : Bool) (text : List Char) : Option Binary64 :=
  let whole := text.takeWhile Digits.isDigit
  let afterWhole := text.dropWhile Digits.isDigit
  let (fraction, afterFraction) :=
    match afterWhole with
    | '.' :: rest => (rest.takeWhile Digits.isDigit, rest.dropWhile Digits.isDigit)
    | rest => ([], rest)
  if whole.isEmpty && fraction.isEmpty then none
  else
    let exponent? :=
      match afterFraction with
      | [] => some 0
      | mark :: rest => if mark = 'e' ∨ mark = 'E' then readExponent rest else none
    exponent?.map fun exponent =>
      ofScientific negative (Digits.value (whole ++ fraction)) (exponent - fraction.length)

/-- Reads a number without its sign. -/
def readMagnitude (negative : Bool) (text : List Char) : Option Binary64 :=
  let lower := text.map Char.toLower
  if lower = ['i', 'n', 'f'] ∨ lower = ['i', 'n', 'f', 'i', 'n', 'i', 't', 'y'] then
    some (ofMagnitudeBits negative infinityBits)
  else if lower = ['n', 'a', 'n'] then
    some (ofMagnitudeBits negative (infinityBits + 2 ^ 51))
  else readDecimal negative text

/-- Reads a number: decimal digits, or the name of an infinity, or of what is no number. -/
def read (text : List Char) : Except Fault Binary64 :=
  let found? :=
    match text with
    | '-' :: rest => readMagnitude true rest
    | '+' :: rest => readMagnitude false rest
    | rest => readMagnitude false rest
  if text.isEmpty then .error .empty
  else
    match found? with
    | some x => .ok x
    | none => .error .invalid

end Binary64

end TypedCsv
