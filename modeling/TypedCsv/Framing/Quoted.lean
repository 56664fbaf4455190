import TypedCsv.Framing.Record

/-! # The quoted framing

A record is a line of cells with delimiters between them. A cell that starts with a quote goes
on to the next quote that is not doubled or escaped, over delimiters and line breaks.

* `Quoted.step`: the machine that reads one byte.
* `Quoted.Reader.next`: the next record of an input.
* `Quoted.frame`: the bytes of a record.
* `Quoted.write`: the same with the escape doubled inside cells, as reading expects it. -/

namespace TypedCsv.Framing.Quoted

/-! ## The machine -/

/-- What the machine is in the middle of. -/
inductive Mode where
  | recordStart
  | cellStart
  | inCell
  | inQuotes
  | afterEscape
  | afterQuote
  | inComment
deriving DecidableEq, Repr

/-- The machine between two bytes: its mode, the cells of the record so far and the bytes of the
current cell, both in reverse. -/
structure Machine where
  mode : Mode
  cells : List (List UInt8)
  current : List UInt8
deriving DecidableEq, Repr

/-- The machine before a record. -/
def Machine.start : Machine := ⟨.recordStart, [], []⟩

/-- What a byte leads to: more of the record, or its end. -/
inductive Step where
  | more (machine : Machine)
  | record (cells : List (List UInt8))
deriving DecidableEq, Repr

namespace Machine

/-- Adds a byte to the current cell. -/
def keep (m : Machine) (mode : Mode) (byte : UInt8) : Machine :=
  ⟨mode, m.cells, byte :: m.current⟩

/-- Ends the current cell and starts another. -/
def endCell (m : Machine) : Machine :=
  ⟨.cellStart, m.current.reverse :: m.cells, []⟩

/-- The cells of the record, the current one last. -/
def finished (m : Machine) : List (List UInt8) :=
  (m.current.reverse :: m.cells).reverse

/-- The record that the end of the input completes, if one has been started. -/
def atEnd (m : Machine) : Option (List (List UInt8)) :=
  if m.mode = .recordStart then none else some m.finished

end Machine

/-- Whether a byte ends a record outside quotes. -/
def isTerminator (byte : UInt8) : Bool :=
  byte == Source.lineFeed || byte == Source.carriageReturn

/-- Reads a byte outside quotes. -/
def stepOutside (d : Dialect) (m : Machine) (byte : UInt8) : Step :=
  if byte = d.delimiter then .more m.endCell
  else if isTerminator byte then .record m.finished
  else .more (m.keep .inCell byte)

/-- Reads a byte where a cell may start. -/
def stepCellStart (d : Dialect) (m : Machine) (byte : UInt8) : Step :=
  if d.quote = some byte then .more { m with mode := .inQuotes }
  else stepOutside d m byte

/-- Reads a byte. -/
def step (d : Dialect) (m : Machine) (byte : UInt8) : Step :=
  match m.mode with
  | .recordStart =>
    if isTerminator byte then .more m
    else if d.comment = some byte then .more { m with mode := .inComment }
    else stepCellStart d m byte
  | .cellStart => stepCellStart d m byte
  | .inCell => stepOutside d m byte
  | .inQuotes =>
    if d.quote = some byte then .more { m with mode := .afterQuote }
    else if d.escape = some byte then .more { m with mode := .afterEscape }
    else .more (m.keep .inQuotes byte)
  | .afterEscape => .more (m.keep .inQuotes byte)
  -- a second quote is literal; after anything else the cell goes on without quotes
  | .afterQuote =>
    if d.quote = some byte then .more (m.keep .inQuotes byte) else stepOutside d m byte
  | .inComment =>
    if byte = Source.lineFeed then .more { m with mode := .recordStart } else .more m

/-! ## Reading -/

/-- What a run of the machine over an input comes to. -/
inductive Scan where
  | record (cells : List (List UInt8)) (position : Position) (rest : Source)
  | ended (machine : Machine)

/-- Runs the machine up to the end of a record or of the input. -/
def scan (d : Dialect) (m : Machine) (position : Position) (source : Source) : Scan :=
  match _h : source.next? with
  | none => .ended m
  | some (byte, rest) =>
    match step d m byte with
    | .more m => scan d m (position.advance byte) rest
    | .record cells => .record cells (position.advance byte) rest
termination_by source.size
decreasing_by exact Source.size_lt_of_next? _h

/-- A reader of records. -/
structure Reader where
  dialect : Dialect
  source : Source
  /-- The place where the last record ended. -/
  position : Position
  /-- Whether the input has ended. -/
  closed : Bool

/-- The bytes that may mark the start of an input as text. -/
def byteOrderMark : List UInt8 := [0xEF, 0xBB, 0xBF]

namespace Reader

/-- The reader of an input. -/
def ofSource (d : Dialect) (source : Source) : Reader :=
  ⟨d, source, Position.start, false⟩

/-- The input that the machine runs over and the place where it starts. At the start of an input
a byte order mark is passed over if the first piece holds it whole; a first piece that is nothing
but the mark is taken for the end of the input. -/
def opening (r : Reader) : Source × Position :=
  if r.position.byte = 0 then
    match r.source.pieces with
    | (0xEF :: 0xBB :: 0xBF :: piece) :: pieces =>
      let position := { r.position with byte := byteOrderMark.length }
      if piece.isEmpty then (⟨[], .complete⟩, position)
      else (⟨piece :: pieces, r.source.ending⟩, position)
    | _ => (r.source, r.position)
  else (r.source, r.position)

/-- The outcome of a record that starts where the reader is. -/
def outcome (r : Reader) (cells : List (List UInt8)) : Outcome :=
  match decodeCells 0 cells with
  | .ok cells => .record r.position.line cells
  | .error (cell, fault) =>
    .malformed r.position.line (.quotedText r.position cell fault.index)

/-- The reader after the end of its input. -/
def close (r : Reader) : Reader :=
  { r with closed := true }

/-- Reads the next record. A record whose end has not been read before a failure is lost. -/
def next (r : Reader) : Outcome × Reader :=
  if r.closed then (.finished, r)
  else
    match scan r.dialect Machine.start r.opening.2 r.opening.1 with
    | .record cells position rest =>
      (r.outcome cells, { r with source := rest, position := position.nextRecord })
    | .ended machine =>
      match r.opening.1.ending with
      -- the record that has been started may go on, so it does not count
      | .failure fault => (.failed fault, r.close)
      | .complete =>
        match machine.atEnd with
        | some cells => (r.outcome cells, r.close)
        | none => (.finished, r.close)

/-- How much a reader has still to do: its bytes, and the end of the input. -/
def remaining (r : Reader) : Nat :=
  r.source.size + (if r.closed then 0 else 1)

end Reader

/-- A record takes at least one byte of its input. -/
theorem size_lt_of_scan {d : Dialect} {m : Machine} {position after : Position}
    {source rest : Source} {cells : List (List UInt8)}
    (h : scan d m position source = .record cells after rest) : rest.size < source.size := by
  fun_induction scan d m position source with
  | case1 => cases h
  | case2 m position source byte rest' hn m' _ ih =>
    exact Nat.lt_trans (ih h) (Source.size_lt_of_next? hn)
  | case3 m position source byte rest' hn _ _ =>
    cases h
    exact Source.size_lt_of_next? hn

/-- Passing over a byte order mark does not make an input longer. -/
theorem Reader.size_opening_le (r : Reader) : r.opening.1.size ≤ r.source.size := by
  unfold Reader.opening
  split
  · split
    · next piece pieces h =>
      dsimp only
      split
      · simp [Source.size, Source.bytes, h]
      · simp [Source.size, Source.bytes, h]; omega
    · exact Nat.le_refl _
  · exact Nat.le_refl _

/-- A call that does not say that the input has ended brings its end nearer. -/
theorem Reader.remaining_next_lt {r : Reader} (h : r.next.1 ≠ .finished) :
    r.next.2.remaining < r.remaining := by
  have ho := r.size_opening_le
  unfold Reader.next at h ⊢
  split
  · next hc => simp [hc] at h
  · next hc =>
    split
    · next hs =>
      have := size_lt_of_scan hs
      simp only [Reader.remaining]
      omega
    · split
      · simp [Reader.remaining, Reader.close, hc]
      · split <;> simp [Reader.remaining, Reader.close, hc]

/-! ## Writing -/

/-- The byte around cells that need it. -/
def quoteByte (d : Dialect) : UInt8 :=
  d.quote.getD Dialect.doubleQuote

/-- Whether a byte makes its cell need quotes. -/
def isSpecial (d : Dialect) (byte : UInt8) : Bool :=
  byte == d.delimiter || byte == quoteByte d || isTerminator byte
    || d.escape == some byte || d.comment == some byte

/-- The form of a byte inside quotes: a quote is escaped, or doubled if there is no escape. -/
def quotedByte (d : Dialect) (byte : UInt8) : List UInt8 :=
  if byte = quoteByte d then [d.escape.getD byte, byte] else [byte]

/-- The bytes of a cell, in quotes if it needs them. -/
def frameCell (d : Dialect) (cell : List UInt8) : List UInt8 :=
  if cell.any (isSpecial d) then
    quoteByte d :: cell.flatMap (quotedByte d) ++ [quoteByte d]
  else cell

/-- The bytes of a record with the line feed that ends it. A record without bytes is written as
an empty cell in quotes, so that it is no blank line. -/
def frame (d : Dialect) (cells : List String) : List UInt8 :=
  let body := [d.delimiter].intercalate (cells.map fun cell => frameCell d (cellBytes cell))
  (if body.isEmpty then [quoteByte d, quoteByte d] else body) ++ [Source.lineFeed]

/-- A text with every escape doubled. -/
def doubleEscape (d : Dialect) (cell : String) : String :=
  match d.escape with
  | none => cell
  | some escape =>
    let escape := Dialect.charOfByte escape
    String.ofList (cell.toList.flatMap fun c => if c = escape then [c, c] else [c])

/-- The bytes of a record whose cells may hold the escape. -/
def write (d : Dialect) (cells : List String) : List UInt8 :=
  frame d (cells.map (doubleEscape d))

end TypedCsv.Framing.Quoted
