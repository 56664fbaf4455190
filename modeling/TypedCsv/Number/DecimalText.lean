import TypedCsv.Number.Decimal

/-! # Reading decimal numbers

`Decimal.read` takes an optional sign and digits with at most one point among them; underscores
may stand after the first digit. Places that do not fit are rounded away by the first of them.
A text that is none such may still be a number with an exponent (`Decimal.readScientific`). -/

namespace TypedCsv.Decimal

/-- Why a text is no decimal number. -/
inductive Fault where
  | empty
  | noDigits
  | twoPoints
  | leadingSeparator
  | unknownCharacter
  | tooManyDigits
  | roundedOutOfRange
  | exponentTooLarge (exponent : Nat)
  | badExponent
  | tooLarge
deriving Repr, DecidableEq

/-- The wording of a fault. -/
def Fault.message : Fault → String
  | empty => "Invalid decimal: empty"
  | noDigits => "Invalid decimal: no digits found"
  | twoPoints => "Invalid decimal: two decimal points"
  | leadingSeparator => "Invalid decimal: must start lead with a number"
  | unknownCharacter => "Invalid decimal: unknown character"
  | tooManyDigits => "Invalid decimal: overflow from too many digits"
  | roundedOutOfRange => "Invalid decimal: overflow from mantissa after rounding"
  | exponentTooLarge exponent =>
    s!"Scale exceeds the maximum precision allowed: {exponent} > 28"
  | badExponent => "Failed to parse"
  | tooLarge => "Number exceeds maximum value that can be represented."

/-- A mantissa and a scale that are in range, as a decimal; a zero has no sign. -/
def ofMagnitude (negative : Bool) (mantissa scale : Nat) : Except Fault Decimal :=
  match ofParts? (negative && mantissa != 0) mantissa scale with
  | some d => .ok d
  | none => .error .tooManyDigits

/-- Checks the places that are rounded away: digits and underscores. -/
def checkTail : List Char → Except Fault Unit
  | [] => .ok ()
  | c :: rest =>
    if Digits.isDigit c || c = '_' then checkTail rest
    else if c = '.' then .error .twoPoints
    else .error .unknownCharacter

/-- Rounds a mantissa by the digit `next` that did not fit: five and more round up. A mantissa
that leaves the range this way gives up one place. -/
def roundAt (mantissa scale next : Nat) : Except Fault (Nat × Nat) :=
  if next < 5 then .ok (mantissa, scale)
  else if mantissa + 1 < mantissaBound then .ok (mantissa + 1, scale)
  else if scale = 0 then .error .roundedOutOfRange
  -- the mantissa is all of its range here, one more than it and then four for the half
  else .ok ((mantissa + 5) / 10, scale - 1)

/-- Reads the rest of a magnitude after its sign. `inFraction`: the point has been read;
`started`: a digit has been read. -/
def readMagnitude (inFraction started : Bool) (mantissa scale : Nat) :
    List Char → Except Fault (Nat × Nat)
  | [] => if started then .ok (mantissa, scale) else .error .noDigits
  | c :: rest =>
    match Digits.digit? c with
    | some d =>
      -- the first digit that does not fit
      if inFraction && scale == maxScale || mantissa * 10 + d ≥ mantissaBound then
        if inFraction then do
          checkTail rest
          roundAt mantissa scale d
        else .error .tooManyDigits
      else
        readMagnitude inFraction true (mantissa * 10 + d)
          (if inFraction then scale + 1 else scale) rest
    | none =>
      if c = '.' then
        if inFraction then .error .twoPoints
        else readMagnitude true started mantissa scale rest
      else if c = '_' then
        if started then readMagnitude inFraction started mantissa scale rest
        else .error .leadingSeparator
      else .error .unknownCharacter

/-- Reads a magnitude and gives it its sign. -/
def readSigned (negative : Bool) (text : List Char) : Except Fault Decimal := do
  let (mantissa, scale) ← readMagnitude false false 0 0 text
  ofMagnitude negative mantissa scale

/-- Reads a decimal number without an exponent. -/
def readPlain : List Char → Except Fault Decimal
  | [] => .error .empty
  | '-' :: text => readSigned true text
  | '+' :: text => readSigned false text
  | text => readSigned false text

/-- Reads the digits of an exponent: a number below `2 ^ 32`. -/
def readExponentDigits (text : List Char) : Except Fault Nat :=
  if text.isEmpty || ! text.all Digits.isDigit then .error .badExponent
  else if Digits.value text < 2 ^ 32 then .ok (Digits.value text)
  else .error .badExponent

/-- The decimal divided by `10 ^ exponent`; places beyond the greatest scale are rounded away. -/
def scaleDown (d : Decimal) (exponent : Nat) : Except Fault Decimal :=
  if exponent > maxScale then .error (.exponentTooLarge exponent)
  else
    let d := d.dropPlaces (d.scale + exponent - maxScale)
    match ofParts? d.negative d.mantissa (d.scale + exponent) with
    | some d => .ok d
    | none => .error (.exponentTooLarge exponent)

/-- The decimal multiplied by `10 ^ exponent`. Places are used up first. -/
def scaleUp (d : Decimal) (exponent : Nat) : Except Fault Decimal :=
  if exponent ≤ d.scale then
    .ok { d with scale := d.scale - exponent, scale_le := d.scale_sub_le exponent }
  else if exponent > maxScale then .error (.exponentTooLarge exponent)
  else
    match ofParts? d.negative (d.mantissa * 10 ^ (exponent - d.scale)) 0 with
    | some d => .ok d
    | none => .error .tooLarge

/-- Whether a character separates a number from its exponent. -/
def isExponentMark (c : Char) : Bool :=
  c == 'e' || c == 'E'

/-- Reads a decimal number with an exponent after its first mark. -/
def readScientific (text : List Char) : Except Fault Decimal := do
  let base ← readPlain (text.takeWhile (! isExponentMark ·))
  match (text.dropWhile (! isExponentMark ·)).drop 1 with
  | '-' :: digits => base.scaleDown (← readExponentDigits digits)
  | '+' :: digits => base.scaleUp (← readExponentDigits digits)
  | digits => base.scaleUp (← readExponentDigits digits)

/-- Reads a decimal number. -/
def read (text : List Char) : Except Fault Decimal :=
  match readPlain text with
  | .ok d => .ok d
  | .error fault => if text.any isExponentMark then readScientific text else .error fault

end TypedCsv.Decimal
