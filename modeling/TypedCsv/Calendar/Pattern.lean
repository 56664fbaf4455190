import TypedCsv.Number.Digits
import TypedCsv.Text.Blank
import TypedCsv.Calendar.Date

/-! # Patterns of dates and times

A `Pattern` is a row of items: numbers of a calendar or a clock, blanks, and characters that
stand for themselves.

* `Pattern.scan`: the numbers that a text gives for the items, if it fits the pattern.
* `Pattern.render`: the text of some numbers in a pattern. -/

namespace TypedCsv

/-- The numbers of a calendar and a clock; the clock may show a second 60. -/
structure Moment where
  year : Int
  month : Nat
  day : Nat
  hour : Nat
  minute : Nat
  second : Nat
  nano : Nat
deriving DecidableEq, Repr

namespace Moment

/-- The moment before anything has been read. -/
def zero : Moment := ⟨0, 0, 0, 0, 0, 0, 0⟩

/-- The date of a moment, if it is one. -/
def date? (m : Moment) : Option Date :=
  Date.ofNumbers? m.year m.month m.day

/-- The time of day of a moment, if it is one. -/
def time? (m : Moment) : Option TimeOfDay :=
  TimeOfDay.ofClock? m.hour m.minute m.second m.nano

/-- The date and the time of day of a moment, if it is both. -/
def timestamp? (m : Moment) : Option Timestamp := do
  return ⟨← m.date?, ← m.time?⟩

/-- The moment with the numbers of a date. -/
def withDate (m : Moment) (d : Date) : Moment :=
  { m with year := d.year, month := d.month, day := d.day }

/-- The moment with the numbers that a clock shows at a time of day. -/
def withTime (m : Moment) (t : TimeOfDay) : Moment :=
  { m with hour := t.hour, minute := t.minute,
           second := t.second + t.nano / TimeOfDay.nanosPerSecond,
           nano := t.nano % TimeOfDay.nanosPerSecond }

end Moment

namespace Pattern

/-- An item of a pattern. -/
inductive Item where
  | year
  | month
  | day
  | hour
  | minute
  | second
  /-- The fraction of a second with its point, if there is one. -/
  | fraction
  | blank
  | literal (c : Char)
deriving DecidableEq, Repr

/-! ## Reading -/

/-- A number of at least one and at most `limit` digits at the start of a text, with the rest. -/
def scanDigits (limit : Nat) (text : List Char) : Option (Nat × List Char) :=
  let digits := (text.takeWhile Digits.isDigit).take limit
  if digits.isEmpty then none else some (Digits.value digits, text.drop digits.length)

/-- A year: up to four digits, or a sign and any number of digits. -/
def scanYear : List Char → Option (Int × List Char)
  | '-' :: text => (scanDigits text.length text).map fun (n, rest) => (-(n : Int), rest)
  | '+' :: text => (scanDigits text.length text).map fun (n, rest) => ((n : Int), rest)
  | text => (scanDigits 4 text).map fun (n, rest) => ((n : Int), rest)

/-- The nanoseconds of the digits after a point; digits after the ninth do not count. -/
def nanoseconds (digits : List Char) : Nat :=
  let counted := digits.take 9
  Digits.value counted * 10 ^ (9 - counted.length)

/-- The fraction of a second: nothing, or a point with at least one digit. -/
def scanFraction : List Char → Option (Nat × List Char)
  | '.' :: text =>
    let digits := text.takeWhile Digits.isDigit
    if digits.isEmpty then none
    else some (nanoseconds digits, text.dropWhile Digits.isDigit)
  | text => some (0, text)

/-- Reads one item. Blanks may stand before a number, and where the pattern has a blank there
may be any number of them. -/
def Item.scan (item : Item) (m : Moment) (text : List Char) : Option (Moment × List Char) :=
  let number (set : Nat → Moment) : Option (Moment × List Char) :=
    (scanDigits 2 (Text.trimStart text)).map fun (n, rest) => (set n, rest)
  match item with
  | .year => (scanYear (Text.trimStart text)).map fun (n, rest) => ({ m with year := n }, rest)
  | .month => number fun n => { m with month := n }
  | .day => number fun n => { m with day := n }
  | .hour => number fun n => { m with hour := n }
  | .minute => number fun n => { m with minute := n }
  | .second => number fun n => { m with second := n }
  | .fraction => (scanFraction text).map fun (n, rest) => ({ m with nano := n }, rest)
  | .blank => some (m, Text.trimStart text)
  | .literal c =>
    match text with
    | [] => none
    | d :: rest => if d = c then some (m, rest) else none

/-- Reads the items from left to right. -/
def scanItems (m : Moment) : List Item → List Char → Option (Moment × List Char)
  | [], text => some (m, text)
  | item :: items, text =>
    match item.scan m text with
    | some (m, rest) => scanItems m items rest
    | none => none

end Pattern

/-- A row of items. -/
abbrev Pattern := List Pattern.Item

namespace Pattern

/-- The numbers of a text that fits the pattern from its first to its last character. -/
def scan (pattern : Pattern) (text : List Char) : Option Moment :=
  match scanItems Moment.zero pattern text with
  | some (m, []) => some m
  | _ => none

/-! ## Writing -/

/-- The text of a year: four digits for the years 0 to 9999, else a sign and at least four. -/
def renderYear (year : Int) : List Char :=
  if year < 0 then '-' :: Digits.padded 4 year.natAbs
  else if year ≤ 9999 then Digits.padded 4 year.natAbs
  else '+' :: Digits.padded 4 year.natAbs

/-- The text of a fraction of a second: nothing, or the fewest of three, six and nine digits. -/
def renderFraction (nano : Nat) : List Char :=
  if nano = 0 then []
  else if nano % 1000000 = 0 then '.' :: Digits.padded 3 (nano / 1000000)
  else if nano % 1000 = 0 then '.' :: Digits.padded 6 (nano / 1000)
  else '.' :: Digits.padded 9 nano

/-- The text of one item. -/
def Item.render (m : Moment) : Item → List Char
  | .year => renderYear m.year
  | .month => Digits.padded 2 m.month
  | .day => Digits.padded 2 m.day
  | .hour => Digits.padded 2 m.hour
  | .minute => Digits.padded 2 m.minute
  | .second => Digits.padded 2 m.second
  | .fraction => renderFraction m.nano
  | .blank => [' ']
  | .literal c => [c]

/-- The text of a moment in a pattern. -/
def render (pattern : Pattern) (m : Moment) : List Char :=
  pattern.flatMap (Item.render m)

end Pattern

end TypedCsv
