import TypedCsv.Error
import TypedCsv.Framing.Plain
import TypedCsv.Framing.Quoted

/-! # Encoding

An `Encoder` turns rows into the bytes of a file, a record for each row.

* `Encoder.encodeRow`: the record of a row.
* `Encoder.Writer`: the records written so far; a row that is refused leaves no trace.
* `Encoder.encode`: the bytes of some rows. -/

namespace TypedCsv

/-- The checked options of an output and its columns. -/
structure Encoder where
  dialect : Dialect
  rowType : RowType

namespace Encoder

/-- Makes the encoder of a table. -/
def compile (rowType : RowType) (options : Options) : Except Error Encoder := do
  let dialect ← (Dialect.compile rowType options).mapError .configuration
  return ⟨dialect, rowType⟩

/-- The bytes of a record of cells in the framing of a dialect. -/
def frame (d : Dialect) (cells : List String) : Except Encoding.Fault (List UInt8) :=
  if d.quote.isSome then .ok (Framing.Quoted.write d cells)
  else (Framing.Plain.write d cells).mapError .unquotable

/-- The bytes of the record of a row. -/
def encodeRow (e : Encoder) (row : Row) : Except Encoding.Fault (List UInt8) := do
  frame e.dialect (← CellWriter.write e.dialect e.rowType row)

/-- Where the bytes go: a sink fails when it has no room for all of them. -/
structure Sink where
  room : Option Nat
  fault : IoFault

/-- A sink that takes everything. -/
def Sink.unbounded : Sink := ⟨none, ⟨""⟩⟩

/-- The rows written so far. -/
structure Writer where
  encoder : Encoder
  /-- The records, the last one first. -/
  records : List (List UInt8)
  /-- The number of records. -/
  written : Nat

/-- A writer that has written nothing. -/
def writer (e : Encoder) : Writer :=
  ⟨e, [], 0⟩

namespace Writer

/-- The bytes written so far. -/
def bytes (w : Writer) : List UInt8 :=
  w.records.reverse.flatten

/-- Writes a row. -/
def append (w : Writer) (row : Row) : Except Encoding.Fault Writer := do
  let record ← w.encoder.encodeRow row
  return { w with records := record :: w.records, written := w.written + 1 }

/-- Writes rows up to the first that is refused. -/
def appendAll (w : Writer) : List Row → Writer × Option Encoding.Fault
  | [] => (w, none)
  | row :: rows =>
    match w.append row with
    | .ok w => w.appendAll rows
    | .error fault => (w, some fault)

/-- Hands the bytes to the sink. -/
def finish (w : Writer) (sink : Sink) : Except IoFault (List UInt8) :=
  match sink.room with
  | some room => if room < w.bytes.length then .error sink.fault else .ok w.bytes
  | none => .ok w.bytes

end Writer

/-- The bytes of some rows. -/
def encode (e : Encoder) (rows : List Row) : Except Encoding.Fault (List UInt8) :=
  match e.writer.appendAll rows with
  | (w, none) => .ok w.bytes
  | (_, some fault) => .error fault

end Encoder

end TypedCsv
