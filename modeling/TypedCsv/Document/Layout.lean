import TypedCsv.Document.Scalar
import TypedCsv.Document.Token

/-! # Layout

The tokens of a text follow from its characters and from their places: indentation starts and ends
blocks, and what stands before a colon is found to be a key only when the colon is reached.

* `Layout`: what has to be known of a text up to a place, among it the blocks that are open and the
  place where a key may have started.
* `Layout.next`: reads one token.
* `Layout.tokens?`: the tokens of a text. -/

namespace TypedCsv.Document

/-- A place where a key may have started. -/
structure KeyStart where
  place : PlacedChar
  /-- The number of tokens before the key. -/
  number : Nat
  /-- Whether nothing else than a key can stand there. -/
  required : Bool

/-- What is known of a text up to a place. -/
structure Layout where
  /-- The tokens, the last one first. -/
  tokens : List Token
  /-- The columns of the open blocks, the innermost first. -/
  blocks : List Nat
  /-- The place where a key may have started in the innermost collection. -/
  key : Option KeyStart
  /-- The same for each collection around an open flow collection, the innermost first. -/
  outerKeys : List (Option KeyStart)
  /-- Whether a key may start here. -/
  keyAllowed : Bool

namespace Layout

/-- Nothing has been read. -/
def start : Layout := ⟨[], [], none, [], true⟩

/-- Whether a flow collection is open. -/
def inFlow (layout : Layout) : Bool :=
  ! layout.outerKeys.isEmpty

/-- The least column inside the innermost block. -/
def least (layout : Layout) : Nat :=
  match layout.blocks with
  | [] => 0
  | column :: _ => column + 1

/-- Adds a token. -/
def add (layout : Layout) (token : Token) : Layout :=
  { layout with tokens := token :: layout.tokens }

/-- Adds tokens before a token that has been added. -/
def insert (layout : Layout) (number : Nat) (tokens : List Token) : Layout :=
  let later := layout.tokens.length - number
  { layout with
    tokens := layout.tokens.take later ++ tokens.reverse ++ layout.tokens.drop later }

/-! ## Blocks -/

/-- Ends the blocks for which a test holds of their column. -/
def endBlocks (layout : Layout) (test : Nat → Bool) : Layout :=
  if layout.inFlow then layout
  else
    let ended := layout.blocks.takeWhile test
    { layout with
      tokens := ended.map (fun _ => Token.blockEnd) ++ layout.tokens
      blocks := layout.blocks.drop ended.length }

/-- Whether a block starts at a column. -/
def startsBlock (layout : Layout) (column : Nat) : Bool :=
  ! layout.inFlow && layout.least ≤ column

/-- Starts a block at a column, unless one is open there. -/
def startBlock (layout : Layout) (column : Nat) (token : Token) : Layout :=
  if layout.startsBlock column then { layout.add token with blocks := column :: layout.blocks }
  else layout

/-! ## Keys -/

/-- The most characters between the start of a key and its colon. -/
def keyWidth : Nat := 1024

/-- Gives up the key that may have started, unless nothing else can stand in its place. -/
def dropKey (layout : Layout) : Option Layout :=
  if layout.key.any (·.required) then none else some { layout with key := none }

/-- Gives up the key that may have started if it ends too late: a key stands on one line and is not
too wide. -/
def dropLateKey (layout : Layout) (c : PlacedChar) : Option Layout :=
  match layout.key with
  | some key =>
    if key.place.line < c.line || key.place.offset + keyWidth < c.offset then layout.dropKey
    else some layout
  | none => some layout

/-- Notes that a key may start here, if that is so. At the column of the innermost block nothing
else can stand. -/
def noteKey (layout : Layout) (c : PlacedChar) : Option Layout :=
  if layout.keyAllowed then do
    let layout ← layout.dropKey
    let required := ! layout.inFlow && layout.least == c.column + 1
    return { layout with key := some ⟨c, layout.tokens.length, required⟩ }
  else some layout

/-! ## Tokens -/

/-- Adds a token after which a key may start or not. -/
def addMark (layout : Layout) (token : Token) (keyAllowed : Bool) : Layout :=
  { layout.add token with keyAllowed := keyAllowed }

/-- Starts a flow collection. -/
def startFlow (layout : Layout) (c : PlacedChar) (token : Token) : Option Layout := do
  let layout ← layout.noteKey c
  let layout := layout.addMark token true
  return { layout with key := none, outerKeys := layout.key :: layout.outerKeys }

/-- Ends a flow collection. -/
def endFlow (layout : Layout) (token : Token) : Option Layout := do
  let layout ← layout.dropKey
  let layout := layout.addMark token false
  match layout.outerKeys with
  | key :: outer => return { layout with key := key, outerKeys := outer }
  | [] => return layout

/-- Adds the mark of an item or of a key; in a block it has to be the first thing on its line, or to
follow such a mark. -/
def addItem (layout : Layout) (c : PlacedChar) (block token : Token) (keyAllowed : Bool) :
    Option Layout := do
  if ! layout.inFlow && ! layout.keyAllowed then none
  else
    let layout ← (layout.startBlock c.column block).dropKey
    return layout.addMark token keyAllowed

/-- Adds the colon before a value. If a key may have started, now it has, and with it perhaps a
block; else the value belongs to a key with a mark, or to none. -/
def addValue (layout : Layout) (c : PlacedChar) : Option Layout :=
  match layout.key with
  | some key =>
    let column := key.place.column
    let layout :=
      if layout.startsBlock column then
        { layout.insert key.number [.blockMapping, .key] with blocks := column :: layout.blocks }
      else layout.insert key.number [.key]
    some ({ layout with key := none }.addMark .value false)
  | none => layout.addItem c .blockMapping .value (! layout.inFlow)

/-- Adds the marker of the start or the end of a document, or a directive: it ends all blocks. -/
def addMarker (layout : Layout) (token : Token) : Option Layout := do
  let layout ← (layout.endBlocks fun _ => true).dropKey
  return layout.addMark token false

/-- Adds a token that a node may start with, and with it a key. -/
def addNode (layout : Layout) (c : PlacedChar) (token : Token) : Option Layout := do
  let layout ← layout.noteKey c
  return layout.addMark token false

/-- The indicators that may follow a name. -/
def nameEnds : List Char :=
  "?:,]\x7d%@\x60".toList

/-- Reads the name of an anchor or of a reference: a word with a gap or one of a few indicators
after it. -/
def name? (text : PlacedText) : Option (List Char × PlacedText) :=
  let word : PlacedText := text.takeWhile (isWordChar ·.char)
  let rest : PlacedText := text.drop word.length
  if ! word.isEmpty && rest.head?.all (fun c => isGap c.char || nameEnds.contains c.char) then
    some (word.chars, rest)
  else none

/-- Whether a plain scalar may start with a character. -/
def startsPlain (layout : Layout) (c : PlacedChar) (rest : PlacedText) : Bool :=
  if c.char = '-' then ! rest.head?.any (isBlank ·.char)
  else if c.char = '?' || c.char = ':' then ! layout.inFlow && ! rest.startsGap
  else ! isGap c.char && ! indicators.contains c.char

/-- Reads a scalar in quotes or plain. -/
def scalar? (layout : Layout) (c : PlacedChar) (rest : PlacedText) :
    Option (Layout × PlacedText) := do
  if c.char = '\x27' then
    let (text, rest) ← Scalar.singleQuoted .none rest
    return (← layout.addNode c (.scalar .singleQuoted (String.ofList text)), rest)
  else if c.char = '\x22' then
    let (text, rest) ← Scalar.doubleQuoted .none rest
    return (← layout.addNode c (.scalar .doubleQuoted (String.ofList text)), rest)
  else if layout.startsPlain c rest then
    let (text, atLineEnd, rest) ← Scalar.plain layout.inFlow layout.least .none (c :: rest)
    let layout ← layout.addNode c (.scalar .plain (String.ofList text))
    return ({ layout with keyAllowed := atLineEnd }, rest)
  else none

/-- Reads a block of lines; a key may start on the line after it. -/
def block? (layout : Layout) (style : Style) (rest : PlacedText) :
    Option (Layout × PlacedText) := do
  let layout ← layout.dropKey
  let (text, rest) ← Scalar.block (style == .folded) layout.least rest
  return (layout.addMark (.scalar style (String.ofList text)) true, rest)

/-- Reads the token that starts with a character. -/
def token? (layout : Layout) (c : PlacedChar) (rest : PlacedText) :
    Option (Layout × PlacedText) := do
  let text : PlacedText := c :: rest
  if c.column = 0 ∧ c.char = '%' then
    let (directive, rest) ← Directive.read rest
    return (← layout.addMarker (.directive directive), rest)
  else if text.startsMark '-' then return (← layout.addMarker .documentStart, text.drop 3)
  else if text.startsMark '.' then return (← layout.addMarker .documentEnd, text.drop 3)
  else if c.char = '[' then return (← layout.startFlow c .flowSequence, rest)
  else if c.char = '\x7b' then return (← layout.startFlow c .flowMapping, rest)
  else if c.char = ']' then return (← layout.endFlow .flowSequenceEnd, rest)
  else if c.char = '\x7d' then return (← layout.endFlow .flowMappingEnd, rest)
  else if c.char = ',' then return ((← layout.dropKey).addMark .comma true, rest)
  else if c.char = '-' && rest.startsGap then
    return (← layout.addItem c .blockSequence .item true, rest)
  else if c.char = '?' && (layout.inFlow || rest.startsGap) then
    return (← layout.addItem c .blockMapping .key (! layout.inFlow), rest)
  else if c.char = ':' && (layout.inFlow || rest.startsGap) then
    return (← layout.addValue c, rest)
  else if c.char = '*' then
    let (name, rest) ← name? rest
    return (← layout.addNode c (.reference name), rest)
  else if c.char = '&' then
    let (name, rest) ← name? rest
    return (← layout.addNode c (.anchor name), rest)
  else if c.char = '!' then
    let (mark, rest) ← TagMark.read layout.inFlow rest
    return (← layout.addNode c (.tag mark), rest)
  else if c.char = '|' && ! layout.inFlow then layout.block? .literal rest
  else if c.char = '>' && ! layout.inFlow then layout.block? .folded rest
  else layout.scalar? c rest

/-! ## The whole text -/

/-- Passes over blanks, comments and ends of lines up to a token. A tab is no blank where a key
may start in a block, for it cannot stand for indentation; a line may start with a byte order
mark. A key may start on the next line of a block. -/
def skipGap (flow comment keyAllowed : Bool) : PlacedText → Bool × PlacedText
  | [] => (keyAllowed, [])
  | c :: rest =>
    if isLineBreak c.char then skipGap flow false (keyAllowed || ! flow) rest
    else if comment then skipGap flow true keyAllowed rest
    else if c.char = ' ' || c.char = '\t' && (flow || ! keyAllowed)
        || c.char = '\ufeff' && c.column == 0 then
      skipGap flow false keyAllowed rest
    else if c.char = '#' then skipGap flow true keyAllowed rest
    else (keyAllowed, c :: rest)

/-- Reads one more token, or finds the end of the text. -/
def next (layout : Layout) (text : PlacedText) : Option (Layout × PlacedText) :=
  let (keyAllowed, text) := skipGap layout.inFlow false layout.keyAllowed text
  let layout := { layout with keyAllowed := keyAllowed }
  match text with
  | [] => (layout.endBlocks fun _ => true).dropKey.map (·, [])
  | c :: rest => do
    let layout ← layout.dropLateKey c
    (layout.endBlocks (c.column < ·)).token? c rest

/-- Reads a text to its end. Each step but the last takes a character at least. -/
def finish : Nat → Layout → PlacedText → Option Layout
  | 0, _, _ => none
  | bound + 1, layout, text => do
    let (layout, rest) ← layout.next text
    if rest.isEmpty then layout.next [] |>.map (·.1) else finish bound layout rest

/-- The tokens of a text. -/
def tokens? (text : PlacedText) : Option (List Token) :=
  (finish (text.length + 1) start text).map (·.tokens.reverse)

end Layout

end TypedCsv.Document
