import TypedCsv.Number.Digits

/-! # Whole numbers of 64 bits

`Integer.read` takes an optional sign and decimal digits, and nothing else. The digits are taken
from left to right and the first thing that goes wrong is the `Integer.Fault`: a character that
is no digit, or a number that has left the range. -/

namespace TypedCsv.Integer

/-- Why a text is no whole number of 64 bits. -/
inductive Fault where
  | empty
  | invalidDigit
  | tooLarge
  | tooSmall
deriving Repr, DecidableEq

/-- The wording of a fault. -/
def Fault.message : Fault → String
  | empty => "cannot parse integer from empty string"
  | invalidDigit => "invalid digit found in string"
  | tooLarge => "number too large to fit in target type"
  | tooSmall => "number too small to fit in target type"

/-- The greatest magnitude of a negative number, or of any other. -/
def bound (negative : Bool) : Nat :=
  if negative then 2 ^ 63 else 2 ^ 63 - 1

/-- The fault of a number whose magnitude has passed its bound. -/
def outOfRange (negative : Bool) : Fault :=
  if negative then .tooSmall else .tooLarge

/-- Reads the magnitude of a number of known sign, after the digits that make up `n`. -/
def readMagnitude (negative : Bool) (n : Nat) : List Char → Except Fault Nat
  | [] => .ok n
  | c :: rest =>
    match Digits.digit? c with
    | none => .error .invalidDigit
    | some d =>
      if n * 10 + d ≤ bound negative then readMagnitude negative (n * 10 + d) rest
      else .error (outOfRange negative)

/-- Reads the digits of a number of known sign; there must be one. -/
def readDigits (negative : Bool) : List Char → Except Fault Int64
  | [] => .error .invalidDigit
  | digits => do
    let n ← readMagnitude negative 0 digits
    return Int64.ofInt (if negative then -(n : Int) else n)

/-- Reads a whole number of 64 bits. -/
def read : List Char → Except Fault Int64
  | [] => .error .empty
  | '-' :: digits => readDigits true digits
  | '+' :: digits => readDigits false digits
  | digits => readDigits false digits

/-- The text of a whole number. -/
def display (n : Int64) : List Char :=
  Digits.ofInt n.toInt

end TypedCsv.Integer
