import TypedCsv.Document.Node

/-! # Printing documents

`Document.render` writes a document in blocks: an entry of a mapping on a line of its own, the
items of a sequence with a dash under their key, empty collections in brackets. Each scalar is
written in its style, a folded one as the literal block with the same lines. A tree that is written
has its nodes in place; a reference would be written as the number of its anchor. -/

namespace TypedCsv.Document

/-! ## Scalars -/

/-- A number in base sixteen, in upper case, with zeros in front up to a width. -/
def upperHex (width n : Nat) : List Char :=
  let digits := (Nat.toDigits 16 n).map Char.toUpper
  List.replicate (width - digits.length) '0' ++ digits

/-- The names of characters in double quotes. -/
def doubleQuotedNames : List (Char × Char) :=
  [('\x00', '0'), ('\x07', 'a'), ('\x08', 'b'), ('\t', 't'), ('\n', 'n'), ('\x0b', 'v'),
    ('\x0c', 'f'), ('\r', 'r'), ('\x1b', 'e'), ('\x22', '\x22'), ('\\', '\\'), ('\u0085', 'N'),
    ('\u00a0', '_'), ('\u2028', 'L'), ('\u2029', 'P')]

/-- The form of a character in double quotes. -/
def doubleQuotedChar (c : Char) : List Char :=
  if isShown c && ! isLineBreak c && c != '\x22' && c != '\\' then [c]
  else
    match doubleQuotedNames.lookup c with
    | some name => ['\\', name]
    | none =>
      if c.toNat ≤ 0xFF then '\\' :: 'x' :: upperHex 2 c.toNat
      else if c.toNat ≤ 0xFFFF then '\\' :: 'u' :: upperHex 4 c.toNat
      else '\\' :: 'U' :: upperHex 8 c.toNat

/-- A text of which the lines stand at an indentation, those without a character apart. `atStart`: a
line starts at its start. -/
def indented (indentation : Nat) (atStart : Bool) : List Char → List Char
  | [] => []
  | c :: rest =>
    if isLineBreak c then c :: indented indentation true rest
    else if atStart then List.replicate indentation ' ' ++ c :: indented indentation false rest
    else c :: indented indentation false rest

/-- Whether a text ends with the end of a line. -/
def endsWithBreak (text : List Char) : Bool :=
  text.getLast?.any isLineBreak

/-- The marks of the block of a text: an indentation if the first line does not show it, and what
becomes of the ends of lines at the end. -/
def blockHeader (text : List Char) : List Char :=
  let hint := if text.head?.any (fun c => c == ' ' || isLineBreak c) then ['2'] else []
  let chomping :=
    if ! endsWithBreak text then ['-']
    else if text.dropLast.isEmpty || endsWithBreak text.dropLast then ['+']
    else []
  '|' :: hint ++ chomping

/-- A text as a scalar of a style; its further lines stand at the given indentation. -/
def renderText (indentation : Nat) (style : Style) (text : String) : List Char :=
  let chars := text.toList
  match style with
  | .plain => chars
  | .singleQuoted =>
    let doubled := chars.flatMap fun c => if c = '\x27' then [c, c] else [c]
    let margin := if endsWithBreak chars then List.replicate indentation ' ' else []
    '\x27' :: indented indentation false doubled ++ margin ++ ['\x27']
  | .doubleQuoted => '\x22' :: chars.flatMap doubleQuotedChar ++ ['\x22']
  | .literal | .folded => blockHeader chars ++ '\n' :: indented indentation true chars

/-- A scalar after its key or its dash, up to the end of its last line. -/
def renderScalar (indentation : Nat) (style : Style) (text : String) : List Char :=
  let isBlock := style = .literal || style = .folded
  let lineEnd := if isBlock && endsWithBreak text.toList then [] else ['\n']
  ' ' :: renderText indentation style text ++ lineEnd

/-! ## Tags -/

/-- Octets of a tag; those that are no character of tags are written in hexadecimal digits. -/
def renderOctets (octets : List UInt8) : List Char :=
  octets.flatMap fun octet =>
    let c := Char.ofNat octet.toNat
    if octet < 0x80 && isTagChar false c && c != '!' && c != '%' then [c]
    else '%' :: upperHex 2 octet.toNat

/-- A tag as it stands before its node. -/
def renderTag : Tag → List Char
  | .named name => if name = "!" then ['!'] else '!' :: renderOctets (Utf8.encode name.toList)
  | .shared name => '!' :: '!' :: renderOctets (Utf8.encode name.toList)
  | .other octets => '!' :: '<' :: renderOctets octets ++ ['>']

/-- A reference to the anchor of a number. -/
def renderReference (anchor : Nat) : List Char :=
  '*' :: Digits.ofNat anchor

/-! ## Trees -/

mutual

/-- A node after its key or its dash: a scalar or an empty collection on the same line, any
other collection on the lines below. The entries of a collection stand at `indentation`;
`beside` is the indentation of a sequence. -/
def renderValue (indentation beside : Nat) : Node → List Char
  | .scalar style text => renderScalar indentation style text
  | .sequence [] => [' ', '[', ']', '\n']
  | .sequence items => '\n' :: renderItems beside items
  | .mapping [] => [' ', '\x7b', '\x7d', '\n']
  | .mapping entries => '\n' :: renderEntries indentation entries
  | .tagged tag node => ' ' :: renderTag tag ++ renderValue indentation beside node
  | .reference anchor => ' ' :: renderReference anchor ++ ['\n']

/-- The items of a sequence whose dashes stand at the given indentation. -/
def renderItems (indentation : Nat) : List Node → List Char
  | [] => []
  | item :: items =>
    List.replicate indentation ' ' ++ '-' :: renderItem indentation item
      ++ renderItems indentation items

/-- An item of a sequence after its dash. A mapping starts on the line of the dash. -/
def renderItem (indentation : Nat) : Node → List Char
  | .mapping (entry :: entries) =>
    ' ' :: renderEntry (indentation + 2) entry ++ renderEntries (indentation + 2) entries
  | .mapping [] => [' ', '\x7b', '\x7d', '\n']
  | .scalar style text => renderScalar (indentation + 2) style text
  | .sequence [] => [' ', '[', ']', '\n']
  | .sequence items => '\n' :: renderItems (indentation + 2) items
  | .tagged tag node =>
    ' ' :: renderTag tag ++ renderValue (indentation + 2) (indentation + 2) node
  | .reference anchor => ' ' :: renderReference anchor ++ ['\n']

/-- The entries of a mapping at the given indentation. -/
def renderEntries (indentation : Nat) : List (Node × Node) → List Char
  | [] => []
  | entry :: entries =>
    List.replicate indentation ' ' ++ renderEntry indentation entry
      ++ renderEntries indentation entries

/-- An entry of a mapping: its key and its value. -/
def renderEntry (indentation : Nat) : Node × Node → List Char
  | (key, value) => renderKey key ++ ':' :: renderValue (indentation + 2) indentation value

/-- A key of a mapping. -/
def renderKey : Node → List Char
  | .scalar style text => renderText 0 style text
  | _ => []

end

/-- The text of a document that is a mapping. -/
def render (entries : List (Node × Node)) : String :=
  String.ofList (renderEntries 0 entries)

end TypedCsv.Document
