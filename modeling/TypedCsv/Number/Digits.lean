import TypedCsv.Number.Power

/-! # Decimal digits

Natural numbers as rows of decimal digits.

* `Digits.ofNat n`: the digits of `n`, without leading zeros.
* `Digits.padded width n`: the same with zeros in front up to a width.
* `Digits.fixed n scale`: `n / 10 ^ scale` with `scale` places after the point.
* `Digits.value`: the number that a row of digits stands for. -/

namespace TypedCsv.Digits

/-- The character of a number below ten. -/
def char (d : Nat) : Char :=
  Char.ofNat (48 + d)

/-- The number that a decimal digit stands for; only the ten digits of ASCII count. -/
def digit? (c : Char) : Option Nat :=
  if '0' ≤ c ∧ c ≤ '9' then some (c.toNat - 48) else none

/-- Whether a character is one of the ten digits of ASCII. -/
def isDigit (c : Char) : Bool :=
  (digit? c).isSome

/-- The digits of a natural number, without leading zeros. -/
def ofNat (n : Nat) : List Char :=
  if n < 10 then [char n] else ofNat (n / 10) ++ [char (n % 10)]
termination_by n

/-- The digits of a natural number, with zeros in front up to the given width. -/
def padded (width n : Nat) : List Char :=
  List.replicate (width - (ofNat n).length) '0' ++ ofNat n

/-- The number `n / 10 ^ scale`, with exactly `scale` digits after the point. -/
def fixed (n scale : Nat) : List Char :=
  if scale = 0 then ofNat n
  else
    let digits := padded (scale + 1) n
    digits.take (digits.length - scale) ++ '.' :: digits.drop (digits.length - scale)

/-- The number that a row of digits stands for when it is read after the number `n`. A character
that is no digit counts as zero. -/
def valueFrom (n : Nat) (digits : List Char) : Nat :=
  digits.foldl (fun n c => n * 10 + (digit? c).getD 0) n

/-- The number that a row of digits stands for. -/
def value (digits : List Char) : Nat :=
  valueFrom 0 digits

/-- Without further digits a number stays as it is. -/
@[simp] theorem valueFrom_nil (n : Nat) : valueFrom n [] = n := rfl

/-- Reading a digit moves the number one place up and adds the digit; a character that is none
counts as zero. -/
@[simp] theorem valueFrom_cons (n : Nat) (c : Char) (digits : List Char) :
    valueFrom n (c :: digits) = valueFrom (n * 10 + (digit? c).getD 0) digits := rfl

/-- Two texts are read one after the other. -/
@[simp] theorem valueFrom_append (n : Nat) (s t : List Char) :
    valueFrom n (s ++ t) = valueFrom (valueFrom n s) t := by
  simp [valueFrom]

/-- A whole number, a minus sign in front if it is negative. -/
def ofInt (n : Int) : List Char :=
  if n < 0 then '-' :: ofNat n.natAbs else ofNat n.natAbs

end TypedCsv.Digits
