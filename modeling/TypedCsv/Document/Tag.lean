import TypedCsv.Text.Backslash
import TypedCsv.Text.Utf8
import TypedCsv.Document.Place

/-! # Tags

A tag says what a node is. Its full form is a row of octets; a document may shorten it by a handle,
which stands for the octets that the tag starts with.

* `Tag`: the tags that make a difference.
* `TagMark`: a tag as it is written, and `TagMark.read`.
* `TagHandles`: what the handles of a document stand for; `TagHandles.tag?` gives the tag of a
  mark. -/

namespace TypedCsv.Document

/-- What a node is said to be. -/
inductive Tag where
  /-- A name of the document's own. -/
  | named (name : String)
  /-- A name that all documents share. -/
  | shared (name : String)
  /-- Any other row of octets. -/
  | other (octets : List UInt8)
deriving DecidableEq

namespace Tag

/-- How the full form of all shared names starts. -/
def sharedStem : String := "tag:yaml.org,2002:"

/-- The tag of its full form. An exclamation mark stands before a name of the document's own; alone
it is such a name. -/
def ofOctets (octets : List UInt8) : Tag :=
  match Utf8.decode octets with
  | .ok ['!'] => named "!"
  | .ok ('!' :: name) => named (String.ofList name)
  | .ok text =>
    let stem := sharedStem.toList
    if text.take stem.length = stem then shared (String.ofList (text.drop stem.length))
    else other octets
  | .error _ => other octets

/-- The tag of a null. -/
def null : Tag := shared "null"

/-- The tag of a flag. -/
def flag : Tag := shared "bool"

/-- The tag of a whole number. -/
def integer : Tag := shared "int"

/-- The tag of a number. -/
def float : Tag := shared "float"

end Tag

/-! ## Octets -/

/-- Whether a character may stand in the full form of a tag; in angle brackets, some indicators of
flow collections may, too. -/
def isTagChar (bracketed : Bool) (c : Char) : Bool :=
  isWordChar c || ";/?:@&=+$.%!~*\x27()".toList.contains c || bracketed && ",[]".toList.contains c

/-- The number of octets that follow the first octet of a character. -/
def followingOctets? (octet : Nat) : Option Nat :=
  if octet < 0x80 then some 0
  else if 0xC0 ≤ octet ∧ octet < 0xE0 then some 1
  else if 0xE0 ≤ octet ∧ octet < 0xF0 then some 2
  else if 0xF0 ≤ octet ∧ octet < 0xF8 then some 3
  else none

/-- The octets of a text in ASCII, where a percent sign stands before an octet in hexadecimal
digits. `owed`: how many such octets have to follow those before the text. -/
def octetsFrom? (owed : Nat) : List Char → Option (List UInt8)
  | [] => if owed = 0 then some [] else none
  | '%' :: a :: b :: rest =>
    match Text.Backslash.hexDigit? a, Text.Backslash.hexDigit? b with
    | some high, some low =>
      let octet := high * 16 + low
      let owed := if owed = 0 then followingOctets? octet
        else if 0x80 ≤ octet ∧ octet < 0xC0 then some (owed - 1)
        else none
      match owed with
      | some owed => (octetsFrom? owed rest).map (UInt8.ofNat octet :: ·)
      | none => none
    | _, _ => none
  | c :: rest =>
    if c = '%' ∨ owed ≠ 0 then none else (octetsFrom? 0 rest).map (UInt8.ofNat c.toNat :: ·)

/-- Reads the longest row of octets that a text starts with; it counts up to its first null. -/
def octets? (bracketed : Bool) (text : PlacedText) : Option (List UInt8 × PlacedText) :=
  let run : PlacedText := text.takeWhile (isTagChar bracketed ·.char)
  (octetsFrom? 0 run.chars).map fun octets => (octets.takeWhile (· != 0), text.drop run.length)

/-- Reads a row of octets that is written with at least one character. -/
def someOctets? (bracketed : Bool) (text : PlacedText) : Option (List UInt8 × PlacedText) :=
  if text.head?.any (isTagChar bracketed ·.char) then octets? bracketed text else none

/-! ## Marks -/

/-- A tag as it is written. -/
inductive TagMark where
  | full (octets : List UInt8)
  /-- A handle and the octets after those that it stands for. -/
  | short (handle : List Char) (octets : List UInt8)

namespace TagMark

/-- Reads a mark after its first exclamation mark, without what has to follow it. -/
def body? (text : PlacedText) : Option (TagMark × PlacedText) :=
  if text.startsWith '<' then do
    let (octets, rest) ← someOctets? true (text.drop 1)
    if PlacedText.startsWith '>' rest then some (full octets, rest.drop 1) else none
  else
    let word : PlacedText := text.takeWhile (isWordChar ·.char)
    let afterWord : PlacedText := text.drop word.length
    if afterWord.startsWith '!' then do
      let (octets, rest) ← someOctets? false (afterWord.drop 1)
      return (short ('!' :: word.chars ++ ['!']) octets, rest)
    else do
      let (octets, rest) ← octets? false text
      -- an exclamation mark alone is a tag in full
      return (if octets.isEmpty then full (Utf8.encode ['!']) else short ['!'] octets, rest)

/-- Reads a mark after its first exclamation mark. A gap has to follow it, or a comma in a flow
collection. -/
def read (flow : Bool) (text : PlacedText) : Option (TagMark × PlacedText) := do
  let (mark, rest) ← body? text
  if rest.startsGap || flow && rest.startsWith ',' then some (mark, rest) else none

end TagMark

/-! ## Handles -/

/-- Handles with the octets that they stand for. -/
abbrev TagHandles := List (List Char × List UInt8)

namespace TagHandles

/-- The handles of all documents that do not give them another meaning. -/
def default : TagHandles :=
  [(['!'], Utf8.encode ['!']), (['!', '!'], Utf8.encode Tag.sharedStem.toList)]

/-- The tag of a mark. -/
def tag? (handles : TagHandles) : TagMark → Option Tag
  | .full octets => some (Tag.ofOctets octets)
  | .short handle octets =>
    (handles.lookup handle).map fun stem => Tag.ofOctets (stem ++ octets)

end TagHandles

end TypedCsv.Document
