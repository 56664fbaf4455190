import TypedCsv.Document.Style

/-! # Scalars of a document

Each function here reads a scalar of one style from the start of a text and returns its content with
the text after it. A scalar may go on over several lines: a line feed inside it becomes a blank, and
further ones stay line feeds (`Gap.text`).

* `Scalar.plain`: a scalar without quotes.
* `Scalar.singleQuoted`, `Scalar.doubleQuoted`: a scalar in quotes, after the first one.
* `Scalar.block`: a scalar that is a block of lines, after its first mark. -/

namespace TypedCsv.Document.Scalar

/-! ## Gaps -/

/-- The text that the ends of some lines stand for. A first line feed is a blank if it is alone, and
nothing if others follow it. -/
def joinBreaks : Option Char → List Char → List Char
  | some '\n', [] => [' ']
  | some '\n', breaks => breaks
  | first, breaks => first.toList ++ breaks

/-- What has been passed over since the last character of a scalar. -/
inductive Gap where
  /-- Blanks on a line, the last one first. -/
  | blanks (chars : List Char)
  /-- The ends of lines: the first one unless it does not count, and the others, the last one
  first. Blanks beside them do not count. -/
  | breaks (first : Option Char) (others : List Char)

namespace Gap

/-- Nothing has been passed over. -/
def none : Gap := blanks []

/-- Whether nothing has been passed over. -/
def isNone : Gap → Bool
  | blanks chars => chars.isEmpty
  | breaks _ _ => false

/-- Whether the end of a line has been passed over. -/
def isBreak : Gap → Bool
  | blanks _ => false
  | breaks _ _ => true

/-- Passes over one more blank or end of a line. -/
def add (gap : Gap) (c : Char) : Gap :=
  match gap with
  | blanks chars => if isLineBreak c then breaks (some c) [] else blanks (c :: chars)
  | breaks first others => if isLineBreak c then breaks first (c :: others) else gap

/-- The text that a gap inside a scalar stands for. -/
def text : Gap → List Char
  | blanks chars => chars.reverse
  | breaks first others => joinBreaks first others.reverse

end Gap

/-! ## Plain scalars -/

/-- Whether a plain scalar ends before a text. In a block its lines stand at the column `least` or
further right; `gap` stands before the text. -/
def endsPlain (flow : Bool) (least : Nat) (gap : Gap) (c : PlacedChar) (rest : PlacedText) :
    Bool :=
  ! gap.isNone
      && (! flow && c.column < least || c.char == '#' || PlacedText.startsMarker (c :: rest))
    || c.char == ':' && PlacedText.startsGap rest
    || flow && isFlowIndicator c.char

/-- Whether a text starts with a character that must not follow a colon in a flow collection. -/
def splitsColon (text : PlacedText) : Bool :=
  text.head?.any fun c => isFlowIndicator c.char || c.char == '?'

/-- Reads a plain scalar or the rest of one; says also whether the end of a line follows it. A tab
must not stand for indentation, nor a colon before an indicator of the flow collection around. -/
def plain (flow : Bool) (least : Nat) (gap : Gap) :
    PlacedText → Option (List Char × Bool × PlacedText)
  | [] => some ([], gap.isBreak, [])
  | c :: rest =>
    if isGap c.char then
      if c.char = '\t' ∧ gap.isBreak ∧ c.column < least then none
      else plain flow least (gap.add c.char) rest
    else if endsPlain flow least gap c rest then some ([], gap.isBreak, c :: rest)
    else if flow && c.char == ':' && splitsColon rest then none
    else
      (plain flow least .none rest).map fun (more, after) => (gap.text ++ c.char :: more, after)

/-! ## Quoted scalars -/

/-- Reads the rest of a scalar in single quotes; two of them stand for one. No line of it may look
like a marker of a document. -/
def singleQuoted (gap : Gap) : PlacedText → Option (List Char × PlacedText)
  | [] => none
  | c :: rest =>
    if isGap c.char then singleQuoted (gap.add c.char) rest
    else if PlacedText.startsMarker (c :: rest) then none
    else if c.char = '\x27' then
      match rest with
      | d :: rest' =>
        if d.char = '\x27' then
          (singleQuoted .none rest').map fun (more, after) => (gap.text ++ '\x27' :: more, after)
        else some (gap.text, d :: rest')
      | [] => some (gap.text, [])
    else (singleQuoted .none rest).map fun (more, after) => (gap.text ++ c.char :: more, after)

/-- The characters that a backslash and one more character stand for in double quotes. -/
def escapes : List (Char × Char) :=
  [('0', '\x00'), ('a', '\x07'), ('b', '\x08'), ('t', '\t'), ('\t', '\t'), ('n', '\n'),
    ('v', '\x0b'), ('f', '\x0c'), ('r', '\r'), ('e', '\x1b'), (' ', ' '), ('\x22', '\x22'),
    ('/', '/'), ('\\', '\\'), ('N', '\u0085'), ('_', '\u00a0'), ('L', '\u2028'),
    ('P', '\u2029')]

/-- The number of hexadecimal digits after a backslash and the given character. -/
def escapeWidth? (c : Char) : Option Nat :=
  if c = 'x' then some 2 else if c = 'u' then some 4 else if c = 'U' then some 8 else none

/-- The character of a number of so many hexadecimal digits at the start of a text. -/
def ofHex? (width : Nat) (text : List Char) : Option Char :=
  let digits := text.take width
  if digits.length = width then
    match Text.Backslash.hexValueFrom? 0 digits with
    | some n => if h : n.isValidChar then some (Char.ofNatAux n h) else none
    | none => none
  else none

/-- Reads the rest of a scalar in double quotes. A backslash before the end of a line joins two
lines; other characters after one are `escapes` or numbers of characters. -/
def doubleQuoted (gap : Gap) : PlacedText → Option (List Char × PlacedText)
  | [] => none
  | c :: rest =>
    if isGap c.char then doubleQuoted (gap.add c.char) rest
    else if PlacedText.startsMarker (c :: rest) then none
    else if c.char = '\x22' then some (gap.text, rest)
    else if c.char = '\\' then
      match rest with
      | [] => none
      | d :: rest' =>
        if isLineBreak d.char then
          (doubleQuoted (.breaks none []) rest').map fun (more, after) => (gap.text ++ more, after)
        else
          match escapes.lookup d.char, escapeWidth? d.char with
          | some e, _ =>
            (doubleQuoted .none rest').map fun (more, after) => (gap.text ++ e :: more, after)
          | none, some width =>
            match ofHex? width (PlacedText.chars rest') with
            | some e =>
              (doubleQuoted .none (rest'.drop width)).map fun (more, after) =>
                (gap.text ++ e :: more, after)
            | none => none
          | none, none => none
    else (doubleQuoted .none rest).map fun (more, after) => (gap.text ++ c.char :: more, after)
termination_by text => text.length
decreasing_by all_goals simp_wf; try omega

/-! ## Blocks of lines -/

/-- What becomes of the ends of lines at the end of a block. -/
inductive Chomping where
  | strip
  | clip
  | keep
deriving DecidableEq

namespace Chomping

/-- The chomping of a mark. -/
def ofMark? (c : Char) : Option Chomping :=
  if c = '+' then some keep else if c = '-' then some strip else none

/-- What is kept of the end of the last line and of the ends of the empty lines after it. -/
def kept : Chomping → Option Char → List Char → List Char
  | strip, _, _ => []
  | clip, last, _ => last.toList
  | keep, last, breaks => last.toList ++ breaks

end Chomping

/-- The indentation that a digit gives; it is not zero. -/
def indentationOfMark? (c : Char) : Option Nat :=
  if '1' ≤ c ∧ c ≤ '9' then some (c.toNat - '0'.toNat) else none

/-- Reads the marks of a block: its chomping and its indentation in either order, each of them at
most once. -/
def blockMarks (text : PlacedText) : Chomping × Option Nat × PlacedText :=
  let chomping (text : PlacedText) := text.head?.bind (Chomping.ofMark? ·.char)
  let indentation (text : PlacedText) := text.head?.bind (indentationOfMark? ·.char)
  match chomping text with
  | some c =>
    match indentation (text.drop 1) with
    | some n => (c, some n, text.drop 2)
    | none => (c, none, text.drop 1)
  | none =>
    match indentation text with
    | some n =>
      match chomping (text.drop 1) with
      | some c => (c, some n, text.drop 2)
      | none => (.clip, some n, text.drop 1)
    | none => (.clip, none, text)

/-- Passes over the spaces and empty lines at the start of a block of which no indentation is
given; returns the ends of these lines and the widest indentation. No tab may stand for it. -/
def leadingLines (widest : Nat) : PlacedText → Option (List Char × Nat × PlacedText)
  | [] => some ([], widest, [])
  | c :: rest =>
    if c.char = ' ' then leadingLines widest rest
    else if c.char = '\t' then none
    else if isLineBreak c.char then
      (leadingLines (max widest c.column) rest).map fun (breaks, after) => (c.char :: breaks, after)
    else some ([], max widest c.column, c :: rest)

/-- The text between two lines of a block: the end of the first one and the ends of the empty lines
after it. A folded block joins them unless one of the two lines starts with a blank. -/
def betweenLines (folded indented : Bool) (last : Option Char) (breaks : List Char) : List Char :=
  if folded && ! indented then joinBreaks last breaks else last.toList ++ breaks

/-- Where the reading of a block stands. -/
inductive BlockPlace where
  /-- Inside a line; `indented`: the line starts with a blank. -/
  | line (indented : Bool)
  /-- Before a line, after the end of the last one and the ends of the empty lines since then, the
  last of these first. -/
  | between (indented : Bool) (last : Option Char) (breaks : List Char)

/-- Reads the lines of a block at the given indentation; returns with them the end of the last one
and the ends of the empty lines after it. -/
def blockLines (folded : Bool) (indentation : Nat) (place : BlockPlace) :
    PlacedText → Option (List Char × Option Char × List Char × PlacedText)
  | [] =>
    match place with
    | .line _ => some ([], none, [], [])
    | .between _ last breaks => some ([], last, breaks.reverse, [])
  | c :: rest =>
    match place with
    | .line indented =>
      if isLineBreak c.char then
        blockLines folded indentation (.between indented (some c.char) []) rest
      else
        (blockLines folded indentation place rest).map fun (more, after) => (c.char :: more, after)
    | .between indented last breaks =>
      if c.char = ' ' ∧ c.column < indentation then blockLines folded indentation place rest
      else if c.char = '\t' ∧ c.column < indentation then none
      else if isLineBreak c.char then
        blockLines folded indentation (.between indented last (c.char :: breaks)) rest
      else if c.column = indentation then
        let blank := isBlank c.char
        (blockLines folded indentation (.line blank) rest).map fun (more, after) =>
          (betweenLines folded (indented || blank) last breaks.reverse ++ c.char :: more, after)
      else some ([], last, breaks.reverse, c :: rest)

/-- Reads a block of lines after its first mark. In the block around it, text stands at the column
`least` or further right. -/
def block (folded : Bool) (least : Nat) (text : PlacedText) :
    Option (List Char × PlacedText) := do
  let (chomping, indentation, rest) := blockMarks text
  let body ← rest.skipLine
  let (breaks, indentation, body) ←
    match indentation with
    | some n => some ([], least - 1 + n, body)
    | none =>
      (leadingLines 0 body).map fun (breaks, widest, body) =>
        (breaks, max widest (max least 1), body)
  let (content, last, breaks, after) ←
    blockLines folded indentation (.between false none breaks.reverse) body
  return (content ++ chomping.kept last breaks, after)

end TypedCsv.Document.Scalar
