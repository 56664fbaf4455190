/-! # Places of characters

What belongs together in a document shows in its lines and columns. `placed` gives each character of
a text its place once and for all, so that whoever reads a part of the text need not keep count.

* `PlacedChar`: a character with its place.
* `placed`: a text with the places of its characters; a line may end in several ways, most of
  which become a line feed. -/

namespace TypedCsv.Document

/-! ## Kinds of characters -/

/-- Whether a character is a space or a tab. -/
def isBlank (c : Char) : Bool :=
  c == ' ' || c == '\t'

/-- Whether a character ends a line. -/
def isLineBreak (c : Char) : Bool :=
  c == '\n' || c == '\r' || c == '\u0085' || c == '\u2028' || c == '\u2029'

/-- Whether a character is a blank or ends a line. -/
def isGap (c : Char) : Bool :=
  isBlank c || isLineBreak c

/-- Whether a character is a letter or a digit of ASCII, a dash or an underscore. -/
def isWordChar (c : Char) : Bool :=
  'a' ≤ c && c ≤ 'z' || 'A' ≤ c && c ≤ 'Z' || '0' ≤ c && c ≤ '9' || c == '-' || c == '_'

/-- Whether a character structures a flow collection. -/
def isFlowIndicator (c : Char) : Bool :=
  c == ',' || c == '[' || c == ']' || c == '\x7b' || c == '\x7d'

/-! ## Places -/

/-- A character of a text with its place. -/
structure PlacedChar where
  char : Char
  /-- The number of lines before the line of the character. -/
  line : Nat
  /-- The number of characters before it on its line. -/
  column : Nat
  /-- The number of characters before it in the text. -/
  offset : Nat

/-- A text whose characters have places. -/
abbrev PlacedText := List PlacedChar

/-- The character that is kept of an end of a line. -/
def keptBreak (c : Char) : Char :=
  if c = '\r' ∨ c = '\u0085' then '\n' else c

/-- The characters of a text with their places, from a given place on. A carriage return and the
line feed after it are one end of a line. -/
def placedFrom (line column offset : Nat) : List Char → PlacedText
  | [] => []
  | '\r' :: '\n' :: rest =>
    ⟨'\n', line, column, offset⟩ :: placedFrom (line + 1) 0 (offset + 2) rest
  | c :: rest =>
    if isLineBreak c then
      ⟨keptBreak c, line, column, offset⟩ :: placedFrom (line + 1) 0 (offset + 1) rest
    else ⟨c, line, column, offset⟩ :: placedFrom line (column + 1) (offset + 1) rest

/-- The characters of a text with their places. -/
def placed (text : List Char) : PlacedText :=
  placedFrom 0 0 0 text

namespace PlacedText

/-- The characters of a text without their places. -/
def chars (text : PlacedText) : List Char :=
  text.map PlacedChar.char

/-- Whether a text starts with the given character. -/
def startsWith (c : Char) (text : PlacedText) : Bool :=
  text.head?.any (·.char == c)

/-- Whether a text starts with a blank or the end of a line, or is empty. -/
def startsGap (text : PlacedText) : Bool :=
  text.head?.all (isGap ·.char)

/-- Whether a text is empty or starts with the end of a line. -/
def endsLine (text : PlacedText) : Bool :=
  text.head?.all (isLineBreak ·.char)

/-- Whether a line starts with a mark of three equal characters and nothing else. -/
def startsMark (c : Char) : PlacedText → Bool
  | x :: y :: z :: rest =>
    x.column == 0 && x.char == c && y.char == c && z.char == c && startsGap rest
  | _ => false

/-- Whether a line starts with the mark of the start or the end of a document. -/
def startsMarker (text : PlacedText) : Bool :=
  text.startsMark '-' || text.startsMark '.'

/-- The text after the blanks at its start. -/
def skipBlanks (text : PlacedText) : PlacedText :=
  text.dropWhile (isBlank ·.char)

/-- The text from the next line on, if only blanks and a comment stand before it. -/
def skipLine (text : PlacedText) : Option PlacedText :=
  let rest : PlacedText := text.skipBlanks
  let rest := if rest.startsWith '#' then rest.dropWhile (! isLineBreak ·.char) else rest
  if endsLine rest then some (rest.drop 1) else none

end PlacedText

end TypedCsv.Document
