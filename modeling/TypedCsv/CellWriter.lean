import TypedCsv.Packing
import TypedCsv.Value
import TypedCsv.Text.Quoted

/-! # From values to cells

`CellWriter.write` gives the texts of a row, in the order of the columns. A row that does not fit
its row type is refused: nothing is converted on the way. -/

namespace TypedCsv

namespace Encoding

/-- Why a row cannot be written. -/
inductive Fault where
  | columnCount (expected found : Nat)
  | nullColumn (name : String)
  | wrongType (name : String) (expected : DataType) (found : String)
  /-- The cell would change the structure of the record. -/
  | unquotable (cell : String)

/-- The wording of a fault. -/
def Fault.message : Fault → String
  | columnCount expected found => s!"expected {expected} column(s), found {found}"
  | nullColumn name => s!"null in non-nullable column '{name}'"
  | wrongType name expected found =>
    s!"column '{name}' expects " ++ expected.describe ++ s!", found {found}"
  | unquotable cell =>
    "cell " ++ Text.quoted cell ++ " cannot be written unquoted without an escape character"

end Encoding

namespace CellWriter

/-- The text of a value in a cell; the members of a composite are packed. -/
def render (d : Dialect) : Value → String
  | .array items => packItems items
  | .row items => packItems items
  | scalar => scalar.display
where
  /-- The cell of some members. -/
  packItems (items : List Cell) : String :=
    String.ofList (d.packing.pack (items.map (Option.map fun item => item.display.toList)))

/-- The text of a cell of a column. -/
def writeCell (d : Dialect) (field : Field) : Cell → Except Encoding.Fault String
  | none => if field.nullable then .ok d.nullToken else .error (.nullColumn field.name)
  | some value =>
    if value.matches field.type then .ok (render d value)
    else .error (.wrongType field.name field.type value.typeName)

/-- The texts of a row. -/
def write (d : Dialect) (rowType : RowType) (row : Row) : Except Encoding.Fault (List String) :=
  if row.length = rowType.length then
    (row.zip rowType).mapM fun (cell, field) => writeCell d field cell
  else .error (.columnCount rowType.length row.length)

end CellWriter

end TypedCsv
