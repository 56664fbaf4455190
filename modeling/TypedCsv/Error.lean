import TypedCsv.Framing.Record
import TypedCsv.CellReader
import TypedCsv.CellWriter

/-! # Errors

An `Error` is what can go wrong in decoding and encoding: options or a projection that cannot be
used, a cell or a record that cannot be read, an input or an output that fails, a row that does
not fit. Errors of records know the line on which their record starts. -/

namespace TypedCsv

/-- What can go wrong. -/
inductive Error where
  | configuration (fault : Options.Fault)
  | projection (fault : Projection.Fault)
  | cell (line : Nat) (fault : CellReader.Fault)
  | malformed (line : Nat) (fault : Framing.Fault)
  | io (fault : IoFault)
  | encoding (fault : Encoding.Fault)

namespace Error

/-- The wording of an error. -/
def message : Error → String
  | configuration fault => fault.message
  | projection fault => s!"invalid projection: {fault.message}"
  | cell line fault => s!"line {line}: {fault.message}"
  | malformed line fault => s!"line {line}: malformed record: {fault.message}"
  | io fault => fault.message
  | encoding fault => s!"row does not match writer schema: {fault.message}"

/-- The line on which the record at fault starts. -/
def line? : Error → Option Nat
  | cell line _ => some line
  | malformed line _ => some line
  | _ => none

/-- An error and its causes, the outermost first. A cell at fault is the cause of the error that
tells its line. -/
def chain : Error → List String
  | cell line fault => [(cell line fault).message, fault.message]
  | error => [error.message]

end Error

end TypedCsv
