import TypedCsv.Source
import TypedCsv.Text.Utf8
import TypedCsv.Dialect

/-! # Records

A framing cuts the bytes of an input into records of cells. This module holds what the framings
share: what comes next in an input (`Framing.Outcome`), and the reading of cells as texts. -/

namespace TypedCsv.Framing

/-- A place in an input. -/
structure Position where
  /-- The number of bytes before it. -/
  byte : Nat
  /-- One more than the number of line feeds before it. -/
  line : Nat
  /-- The number of records before it. -/
  record : Nat
deriving DecidableEq, Repr

namespace Position

/-- The start of an input. -/
def start : Position := ⟨0, 1, 0⟩

/-- The place after one more byte. -/
def advance (p : Position) (byte : UInt8) : Position :=
  { p with byte := p.byte + 1, line := if byte = Source.lineFeed then p.line + 1 else p.line }

/-- The place after one more record. -/
def nextRecord (p : Position) : Position :=
  { p with record := p.record + 1 }

end Position

/-- Why a record is malformed. -/
inductive Fault where
  /-- It has more cells than the table has columns. -/
  | tooWide (expected found : Nat)
  /-- A cell of a quoted framing is no text: where the record is, which cell, and how many of its
  bytes are a text. -/
  | quotedText (position : Position) (cell validBytes : Nat)
  /-- A cell of a plain framing is no text. -/
  | plainText (fault : Utf8.Fault)
deriving DecidableEq, Repr

/-- The wording of a fault. -/
def Fault.message : Fault → String
  | tooWide expected found => s!"expected at most {expected} field(s), found {found}"
  | quotedText position cell validBytes =>
    s!"CSV parse error: record {position.record} (line {position.line}, field: {cell}, " ++
      s!"byte: {position.byte}): invalid utf-8: invalid UTF-8 in field {cell} " ++
      s!"near byte index {validBytes}"
  | plainText fault => s!"invalid UTF-8: {fault.message}"

/-- What comes next in an input. -/
inductive Outcome where
  | record (line : Nat) (cells : List String)
  | malformed (line : Nat) (fault : Fault)
  | failed (fault : IoFault)
  | finished
deriving DecidableEq, Repr

/-- Reads the bytes of cells as texts; a fault comes with the index of its cell, the first cell
having the given index. -/
def decodeCells (index : Nat) : List (List UInt8) → Except (Nat × Utf8.Fault) (List String)
  | [] => .ok []
  | cell :: cells =>
    match Utf8.decode cell with
    | .error fault => .error (index, fault)
    | .ok text =>
      match decodeCells (index + 1) cells with
      | .error fault => .error fault
      | .ok texts => .ok (String.ofList text :: texts)

/-- The bytes of a cell. -/
def cellBytes (cell : String) : List UInt8 :=
  Utf8.encode cell.toList

end TypedCsv.Framing
