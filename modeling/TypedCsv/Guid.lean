import TypedCsv.Number.Power
import TypedCsv.Text.Utf8

/-! # Globally unique identifiers

A `Guid` is a number of 128 bits, written as 32 hexadecimal digits in five groups. It is read
with or without the hyphens between the groups, and with a `urn:uuid:` in front of them. -/

namespace TypedCsv

/-- A number of 128 bits. -/
structure Guid where
  value : Nat
  value_lt : value < 2 ^ 128
deriving DecidableEq

namespace Guid

/-! ## Text form -/

/-- The hexadecimal digit of a number below sixteen, in lower case. -/
def hexChar (d : Nat) : Char :=
  if d < 10 then Char.ofNat (48 + d) else Char.ofNat (87 + d)

/-- The last `width` hexadecimal digits of a number. -/
def hexText : Nat → Nat → List Char
  | 0, _ => []
  | width + 1, n => hexText width (n / 16) ++ [hexChar (n % 16)]

/-- The value of a hexadecimal digit in either case. -/
def hexDigit? (c : Char) : Option Nat :=
  if '0' ≤ c ∧ c ≤ '9' then some (c.toNat - 48)
  else if 'a' ≤ c ∧ c ≤ 'f' then some (c.toNat - 87)
  else if 'A' ≤ c ∧ c ≤ 'F' then some (c.toNat - 55)
  else none

/-- Whether a character is a hexadecimal digit. -/
def isHexDigit (c : Char) : Bool :=
  (hexDigit? c).isSome

/-- Cuts a text into groups of the given widths. -/
def groups : List Nat → List Char → List (List Char)
  | [], _ => []
  | width :: widths, text => text.take width :: groups widths (text.drop width)

/-- The widths of the groups. -/
def groupWidths : List Nat := [8, 4, 4, 4, 12]

/-- The text of an identifier: five groups of lower-case digits with hyphens between them. -/
def display (g : Guid) : List Char :=
  ['-'].intercalate (groups groupWidths (hexText 32 g.value))

/-! ## Reading -/

/-- Why a text is no identifier. Lengths and positions count bytes. -/
inductive Fault where
  | length (found : Nat)
  | character (found : Char) (position : Nat)
  | groupCount (found : Nat)
  | groupLength (group expected found : Nat)
deriving Repr, DecidableEq

/-- The wording of a fault. -/
def Fault.message : Fault → String
  | length found => s!"invalid length: found {found}"
  | character found position => s!"invalid character: found `{found}` at {position}"
  | groupCount found => s!"invalid group count: expected 5, found {found}"
  | groupLength group expected found =>
    s!"invalid group length in group {group}: expected {expected}, found {found}"

/-- The number of bytes of a text. -/
def byteLength (text : List Char) : Nat :=
  (Utf8.encode text).length

/-- The value of 32 hexadecimal digits. -/
def ofDigits? (digits : List Char) : Option Guid :=
  if digits.length = 32 ∧ digits.all isHexDigit then
    let value := digits.foldl (fun n c => n * 16 + (hexDigit? c).getD 0) 0
    if h : value < 2 ^ 128 then some ⟨value, h⟩ else none
  else none

/-- Reads five groups with hyphens between them. -/
def ofGroups? (text : List Char) : Option Guid :=
  let digits := text.filter (· != '-')
  if ['-'].intercalate (groups groupWidths digits) = text then ofDigits? digits else none

/-- The text in front of an identifier that is used as a name. -/
def scheme : List Char := "urn:uuid:".toList

/-- The text after a leading scheme, which may be in either case. -/
def afterScheme? (text : List Char) : Option (List Char) :=
  if (text.take scheme.length).map Char.toLower = scheme then some (text.drop scheme.length)
  else none

/-- The byte positions of the characters of a text that starts at a position. -/
def positions (start : Nat) : List Char → List (Nat × Char)
  | [] => []
  | c :: rest => (start, c) :: positions (start + c.utf8Size) rest

/-- The first group whose end is not where it should be, or the last group. -/
def groupFault (length : Nat) (ends : List Nat) : Fault :=
  let expected := [(0, 8, 0, 8), (1, 4, 9, 13), (2, 4, 14, 18), (3, 4, 19, 23)]
  let off := (expected.zip ends).find? fun ((_, _, _, stop), found) => found != stop
  match off with
  | some ((group, width, start, _), found) => .groupLength group width (found - start)
  | none => .groupLength 4 12 (length - 24)

/-- What is wrong with a text that is no identifier. -/
def fault (text : List Char) : Fault :=
  let length := byteLength text
  let named := afterScheme? text
  let groupsOnly := named.getD text
  let offset := if named.isSome then scheme.length else 0
  let marked := positions 0 groupsOnly
  match marked.find? fun (_, c) => ! isHexDigit c && c != '-' with
  | some (position, c) => .character c (position + offset)
  | none =>
    -- a text of the right size or with the scheme is taken for one with hyphens
    let hyphens := (marked.filter fun (_, c) => c == '-').map (·.1)
    if hyphens.isEmpty && named.isNone && length != 36 then .length length
    else if hyphens.length ≠ 4 then .groupCount (hyphens.length + 1)
    else groupFault length hyphens

/-- Reads an identifier. -/
def read (text : List Char) : Except Fault Guid :=
  let length := byteLength text
  let parsed :=
    if length = 32 then ofDigits? text
    else if length = 36 then ofGroups? text
    else if length = 45 then (afterScheme? text).bind ofGroups?
    else none
  match parsed with
  | some g => .ok g
  | none =>
    if length = 0 ∨ 45 < length then .error (.length length)
    else if length = 45 then .error (fault ((afterScheme? text).getD text))
    else .error (fault text)

end Guid

end TypedCsv
