import TypedCsv.Framing.Record

/-! # The plain framing

A record is a line of cells with delimiters between them, and nothing is quoted. The byte after
an escape is literal, also a line feed: a record may go on over several lines. An empty line is a
record with one empty cell.

* `Plain.Reader.next`: the next record of an input, line by line.
* `Plain.write`: the bytes of a record, or the cell that cannot be written without an escape. -/

namespace TypedCsv.Framing.Plain

/-! ## Reading -/

/-- A record that is being read: its cells so far and the bytes of the current cell, both in
reverse; whether an escape is open; and whether the last byte is a carriage return that is not
escaped. -/
structure Pending where
  cells : List (List UInt8)
  current : List UInt8
  escaped : Bool
  trailingReturn : Bool
deriving DecidableEq, Repr

namespace Pending

/-- The record before its first byte. -/
def start : Pending := ⟨[], [], false, false⟩

/-- Reads a byte of a line, its line feed apart. -/
def read (d : Dialect) (p : Pending) (byte : UInt8) : Pending :=
  if p.escaped then ⟨p.cells, byte :: p.current, false, false⟩
  else
    -- only the last byte before a line feed matters; an escaped one never gets here
    let trailingReturn := byte == Source.carriageReturn
    if d.escape = some byte then ⟨p.cells, p.current, true, trailingReturn⟩
    else if byte = d.delimiter then ⟨p.current.reverse :: p.cells, [], false, trailingReturn⟩
    else ⟨p.cells, byte :: p.current, false, trailingReturn⟩

/-- Reads a line: the record after it, and whether the line has ended the record. -/
def readLine (d : Dialect) (p : Pending) : List UInt8 → Pending × Bool
  | [] => (p, false)
  | byte :: rest =>
    if ! p.escaped && byte == Source.lineFeed then (p, true)
    else (p.read d byte).readLine d rest

/-- The cells of a record that the end of the input completes. -/
def atEnd (p : Pending) : List (List UInt8) :=
  (p.current.reverse :: p.cells).reverse

/-- The cells of a record that a line feed ends; a carriage return before it does not count. -/
def atLineFeed (p : Pending) : List (List UInt8) :=
  if p.trailingReturn then { p with current := p.current.drop 1 }.atEnd else p.atEnd

end Pending

/-- What comes of reading lines up to the end of a record. `lines` counts the lines read. -/
inductive Scan where
  | record (startLine : Nat) (cells : List (List UInt8)) (lines : Nat) (rest : Source)
  | ended
  | failed (fault : IoFault)

/-- Reads the lines of a record that has started on the line `startLine`. -/
def scanRecord (d : Dialect) (startLine lines : Nat) (p : Pending) (source : Source) : Scan :=
  match _h : source.readLine with
  | .failed fault => .failed fault
  | .ended => .record startLine p.atEnd lines source
  | .line line rest =>
    match p.readLine d line with
    | (p, true) => .record startLine p.atLineFeed (lines + 1) rest
    -- the line feed was escaped, or this was the last line
    | (p, false) => scanRecord d startLine (lines + 1) p rest
termination_by source.size
decreasing_by exact Source.size_lt_of_readLine _h

/-- Whether a line is a comment. -/
def isComment (d : Dialect) (line : List UInt8) : Bool :=
  d.comment.isSome && line.head? == d.comment

/-- Reads lines up to the end of the next record, comments before it being skipped. -/
def scan (d : Dialect) (lines : Nat) (source : Source) : Scan :=
  match _h : source.readLine with
  | .failed fault => .failed fault
  | .ended => .ended
  | .line line rest =>
    if isComment d line then scan d (lines + 1) rest
    else
      match Pending.start.readLine d line with
      | (p, true) => .record (lines + 1) p.atLineFeed (lines + 1) rest
      | (p, false) => scanRecord d (lines + 1) (lines + 1) p rest
termination_by source.size
decreasing_by exact Source.size_lt_of_readLine _h

/-- A reader of records. -/
structure Reader where
  dialect : Dialect
  source : Source
  /-- The number of lines read. -/
  lines : Nat
  /-- Whether the input has failed. -/
  closed : Bool

namespace Reader

/-- The reader of an input. -/
def ofSource (d : Dialect) (source : Source) : Reader :=
  ⟨d, source, 0, false⟩

/-- The outcome of a record. -/
def outcome (line : Nat) (cells : List (List UInt8)) : Outcome :=
  match decodeCells 0 cells with
  | .ok cells => .record line cells
  | .error (_, fault) => .malformed line (.plainText fault)

/-- Reads the next record. -/
def next (r : Reader) : Outcome × Reader :=
  if r.closed then (.finished, r)
  else
    match scan r.dialect r.lines r.source with
    | .record startLine cells lines rest =>
      (outcome startLine cells, { r with source := rest, lines := lines })
    | .ended => (.finished, { r with closed := true })
    | .failed fault => (.failed fault, { r with closed := true })

/-- How much a reader has still to do: its bytes, and the end of the input. -/
def remaining (r : Reader) : Nat :=
  r.source.size + (if r.closed then 0 else 1)

end Reader

/-- What is left behind a record is no longer than what stood in front of it. -/
theorem size_le_of_scanRecord {d : Dialect} {startLine lines : Nat} {p : Pending}
    {source rest : Source} {line total : Nat} {cells : List (List UInt8)}
    (h : scanRecord d startLine lines p source = .record line cells total rest) :
    rest.size ≤ source.size := by
  fun_induction scanRecord d startLine lines p source with
  | case1 => cases h
  | case2 => cases h; exact Nat.le_refl _
  | case3 lines p source bytes rest' hl _ _ =>
    cases h
    exact Nat.le_of_lt (Source.size_lt_of_readLine hl)
  | case4 lines p source bytes rest' hl _ _ ih =>
    exact Nat.le_trans (ih h) (Nat.le_of_lt (Source.size_lt_of_readLine hl))

/-- A record takes at least one byte of its input. -/
theorem size_lt_of_scan {d : Dialect} {lines : Nat} {source rest : Source} {line total : Nat}
    {cells : List (List UInt8)} (h : scan d lines source = .record line cells total rest) :
    rest.size < source.size := by
  fun_induction scan d lines source with
  | case1 => cases h
  | case2 => cases h
  | case3 lines source bytes rest' hl _ ih =>
    exact Nat.lt_trans (ih h) (Source.size_lt_of_readLine hl)
  | case4 lines source bytes rest' hl _ _ _ =>
    cases h
    exact Source.size_lt_of_readLine hl
  | case5 lines source bytes rest' hl _ _ _ =>
    exact Nat.lt_of_le_of_lt (size_le_of_scanRecord h) (Source.size_lt_of_readLine hl)

/-- A call that does not say that the input has ended brings its end nearer. -/
theorem Reader.remaining_next_lt {r : Reader} (h : r.next.1 ≠ .finished) :
    r.next.2.remaining < r.remaining := by
  unfold Reader.next at h ⊢
  split
  · next hc => simp [hc] at h
  · next hc =>
    split
    · next hs =>
      have := size_lt_of_scan hs
      simp only [Reader.remaining]
      omega
    · simp [Reader.remaining, hc]
    · simp [Reader.remaining, hc]

/-! ## Writing -/

/-- Whether a byte would change the structure of a record. The first byte of the record would if
it started a comment. -/
def isSpecial (d : Dialect) (first : Bool) (byte : UInt8) : Bool :=
  byte == d.delimiter || byte == Source.lineFeed || byte == Source.carriageReturn
    || d.escape == some byte || first && d.comment == some byte

/-- The bytes of a cell with an escape before the special ones; none without an escape if there
is a special one. `first`: the bytes start the record. -/
def frameBytes (d : Dialect) (first : Bool) : List UInt8 → Option (List UInt8)
  | [] => some []
  | byte :: rest =>
    match frameBytes d false rest with
    | none => none
    | some framed =>
      if isSpecial d first byte then d.escape.map fun escape => escape :: byte :: framed
      else some (byte :: framed)

/-- The bytes of each cell, or the first cell that cannot be written. -/
def frameCells (d : Dialect) (first : Bool) : List String → Except String (List (List UInt8))
  | [] => .ok []
  | cell :: cells =>
    match frameBytes d first (cellBytes cell) with
    | none => .error cell
    | some framed => (frameCells d false cells).map (framed :: ·)

/-- The bytes of a record with the line feed that ends it. -/
def write (d : Dialect) (cells : List String) : Except String (List UInt8) :=
  (frameCells d true cells).map fun framed =>
    [d.delimiter].intercalate framed ++ [Source.lineFeed]

end TypedCsv.Framing.Plain
