import TypedCsv.Number.Binary64
import TypedCsv.Text.Backslash
import TypedCsv.Document.Place

/-! # Styles of scalars

A scalar of a document is written plain, in quotes or as a block of lines. Only a plain one may
stand for something else than its text: for null, for a flag or for a number.

* `Style`: the ways to write a scalar.
* `nullWords`, `trueWords`, `falseWords`: plain texts that mean something else.
* `Style.ofText`: the style in which a text reads back as the same text: plain if that is so, else
  in single quotes, else in double quotes; a text of several lines is a block. -/

namespace TypedCsv.Document

/-- How a scalar is written. -/
inductive Style where
  | plain
  | singleQuoted
  | doubleQuoted
  /-- A block whose lines are kept. -/
  | literal
  /-- A block whose lines are joined. -/
  | folded
deriving DecidableEq, Repr

/-! ## Plain texts that mean something else -/

/-- The plain words for null. -/
def nullWords : List String := ["null", "Null", "NULL", "~"]

/-- The plain words for true. -/
def trueWords : List String := ["true", "True", "TRUE"]

/-- The plain words for false. -/
def falseWords : List String := ["false", "False", "FALSE"]

/-- The flag of a word. -/
def flagOfWord? (word : String) : Option Bool :=
  if trueWords.contains word then some true
  else if falseWords.contains word then some false
  else none

/-- A text without a sign. -/
def unsigned : List Char → List Char
  | '-' :: rest => rest
  | '+' :: rest => rest
  | rest => rest

/-- Whether a text is a row of digits that starts with a zero too many, which is no number. -/
def hasLeadingZero (text : List Char) : Bool :=
  let digits := unsigned text
  1 < digits.length && digits.head? == some '0' && digits.all Digits.isDigit

/-- The base of a number with a mark after its leading zero. -/
def baseOf? (mark : Char) : Option Nat :=
  if mark = 'x' then some 16
  else if mark = 'o' then some 8
  else if mark = 'b' then some 2
  else none

/-- The value of some digits of a base, read after the value `n` of those before them. -/
def valueIn? (base n : Nat) : List Char → Option Nat
  | [] => some n
  | c :: rest =>
    match Text.Backslash.hexDigit? c with
    | some d => if d < base then valueIn? base (n * base + d) rest else none
    | none => none

/-- Whether some digits of a base are a number that 128 bits can hold. -/
def isBased (negative : Bool) (base : Nat) (digits : List Char) : Bool :=
  let bound := if negative then 2 ^ 127 + 1 else 2 ^ 128
  ! digits.isEmpty && (valueIn? base 0 digits).any (· < bound)

/-- Whether a plain text is a whole number. One that has a base is of 128 bits at most. -/
def isWholeNumber (text : List Char) : Bool :=
  let digits := unsigned text
  let base := match digits with
    | '0' :: mark :: _ => baseOf? mark
    | _ => none
  match base with
  | some base => isBased (text.head? == some '-') base (digits.drop 2)
  | none => ! digits.isEmpty && digits.all Digits.isDigit && ! hasLeadingZero text

/-- The plain words for numbers that have no digits. -/
def numberWords : List String :=
  [".inf", ".Inf", ".INF", "+.inf", "+.Inf", "+.INF", "-.inf", "-.Inf", "-.INF", ".nan", ".NaN",
    ".NAN"]

/-- Whether a plain text is a number with a fraction or an exponent. -/
def isFractional (text : List Char) : Bool :=
  if numberWords.contains (String.ofList text) then true
  else
    match Binary64.read text with
    | .ok x => ! x.isNaN && ! x.isInfinite
    | .error _ => false

/-- The plain words that some readers take for flags. -/
def flagWords : List String :=
  ["y", "Y", "yes", "Yes", "YES", "n", "N", "no", "No", "NO", "true", "True", "TRUE", "false",
    "False", "FALSE", "on", "On", "ON", "off", "Off", "OFF"]

/-- Whether a text written plain would mean something else than the text. -/
def isAmbiguous (text : String) : Bool :=
  text.isEmpty || nullWords.contains text || flagWords.contains text
    || isWholeNumber text.toList || hasLeadingZero text.toList || isFractional text.toList

/-! ## The style of a text -/

/-- Whether a character is written as it stands in quotes. -/
def isShown (c : Char) : Bool :=
  let n := c.toNat
  0x20 ≤ n && n ≤ 0x7E || 0xA0 ≤ n && n ≤ 0xD7FF
    || 0xE000 ≤ n && n ≤ 0xFFFD && n != 0xFEFF || 0x10000 ≤ n

/-- Whether a text has an indicator after its first character: a colon before a gap or a hash
after one. `afterGap`: a gap stands before the text. -/
def hasInnerIndicator (afterGap : Bool) : List Char → Bool
  | [] => false
  | c :: rest =>
    c == ':' && rest.head?.all isGap || c == '#' && afterGap || hasInnerIndicator (isGap c) rest

/-- The characters that start something else than a plain scalar. -/
def indicators : List Char :=
  ",[]#&*!|>%@\x7b\x7d\x27\x22\x60".toList

/-- Whether a text starts or goes on in a way that plain texts must not. -/
def hasIndicator : List Char → Bool
  | [] => false
  | c :: rest =>
    indicators.contains c
      || (c == '?' || c == ':' || c == '-') && rest.head?.all isGap
      || (c :: rest).take 3 == ['-', '-', '-'] || (c :: rest).take 3 == ['.', '.', '.']
      || hasInnerIndicator (isGap c) rest

/-- Whether a line of a text ends with a space. -/
def hasSpaceBeforeBreak : List Char → Bool
  | ' ' :: c :: rest => isLineBreak c || hasSpaceBeforeBreak (c :: rest)
  | _ :: rest => hasSpaceBeforeBreak rest
  | [] => false

/-- Whether a line of a text after the first one starts with a space. -/
def hasSpaceAfterBreak : List Char → Bool
  | c :: ' ' :: rest => isLineBreak c || hasSpaceAfterBreak (' ' :: rest)
  | _ :: rest => hasSpaceAfterBreak rest
  | [] => false

/-- The style in which a text reads back as the same text. -/
def Style.ofText (text : String) : Style :=
  let chars := text.toList
  let special := chars.any (fun c => ! isShown c && c != '\n') || hasSpaceBeforeBreak chars
  if chars.contains '\n' && ! isAmbiguous text then
    if special || chars.getLast? == some ' ' then .doubleQuoted else .literal
  else if special then .doubleQuoted
  else if chars.any isLineBreak && hasSpaceAfterBreak chars then .doubleQuoted
  else if isAmbiguous text || hasIndicator chars || chars.any isLineBreak
      || chars.head? == some ' ' || chars.getLast? == some ' ' then .singleQuoted
  else .plain

end TypedCsv.Document
