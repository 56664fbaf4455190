import TypedCsv.Packing
import TypedCsv.Projection
import TypedCsv.Scalar

/-! # From cells to values

A `CellReader` turns the texts of a record into the typed cells of the selected columns. Columns
that are not selected are never looked at.

* `CellReader.readColumn`: the cell of one column, or the `CellReader.Fault`.
* `CellReader.read`: the row of a record. Under the lenient policy a cell that cannot be read is
  null where its column allows it. -/

namespace TypedCsv

/-- What becomes of a record that cannot be read. -/
inductive Policy where
  /-- Stop at the first fault. -/
  | strict
  /-- Null out cells where that is allowed, and skip the records that still cannot be read. -/
  | lenient
deriving DecidableEq, Repr

/-- The policy that the options ask for. -/
def Policy.ofOptions (options : Options) : Policy :=
  if options.ignoreParseErrors then .lenient else .strict

namespace CellReader

/-- Why a cell cannot be read. -/
inductive Reason where
  | missing
  | nullColumn
  | nullMember
  | memberCount (expected found : Nat)
  | scalar (fault : Scalar.Fault)

/-- The wording of a reason. -/
def Reason.message : Reason → String
  | missing => "missing value for non-nullable column"
  | nullColumn => "null for non-nullable column"
  | nullMember => "null for non-nullable field"
  | memberCount expected found => s!"expected {expected} nested field(s), found {found}"
  | scalar fault => fault.message

/-- A cell that cannot be read: its column, the text at fault, and the reason. -/
structure Fault where
  column : String
  value : String
  reason : Reason

/-- The wording of a fault. -/
def Fault.message (fault : Fault) : String :=
  s!"column '{fault.column}': cannot parse '{fault.value}': {fault.reason.message}"

end CellReader

/-- Reads the selected columns of a dialect under a policy. -/
structure CellReader where
  dialect : Dialect
  columns : List Projection.Column
  policy : Policy

namespace CellReader

/-- The reader of the selected columns; without a projection these are all columns. -/
def ofProjection (dialect : Dialect) (rowType : RowType) (projection : Option Projection)
    (policy : Policy) : Except Projection.Fault CellReader := do
  let columns ← (projection.getD (Projection.all rowType)).resolve rowType
  return ⟨dialect, columns, policy⟩

/-- The row type of the rows that are read. -/
def rowType (r : CellReader) : RowType :=
  r.columns.map Projection.Column.field

/-! ## Members of composites -/

/-- The members of the cell of a composite. -/
def unpackToken (d : Dialect) (token : String) : List (Option String) :=
  (d.packing.unpack token.toList).map (Option.map String.ofList)

/-- Reads a text as a scalar of the named column. -/
def readScalar (name : String) (type : DataType) (text : String) : Except Fault Value :=
  (Value.read type text).mapError fun fault => ⟨name, text, .scalar fault⟩

/-- Reads an element of an array; it may be null. -/
def readElement (name : String) (type : DataType) : Option String → Except Fault Cell
  | none => .ok none
  | some text => (readScalar name type text).map some

/-- Reads a member of a nested row; it may be null if its field may. -/
def readMember (d : Dialect) (name : String) (field : Field) :
    Option String → Except Fault Cell
  | none => if field.nullable then .ok none else .error ⟨name, d.nullToken, .nullMember⟩
  | some text => (readScalar name field.type text).map some

/-- The members of a nested row of the given width. -/
def unpackRow (d : Dialect) (name token : String) (width : Nat) :
    Except Fault (List (Option String)) :=
  let members := unpackToken d token
  if members.length = width then .ok members
  else .error ⟨name, token, .memberCount width members.length⟩

/-! ## Columns -/

/-- Reads the text of a cell as a value. An empty text is an empty array. -/
def readValue (d : Dialect) (name : String) (type : DataType) (token : String) :
    Except Fault Value :=
  match type with
  | .array element =>
    if token.isEmpty then .ok (.array [])
    else do return .array (← (unpackToken d token).mapM (readElement name element))
  | .row fields => do
    let members ← unpackRow d name token fields.length
    let items ← (members.zip fields).mapM fun (member, field) =>
      readMember d (name ++ "." ++ field.name) field member
    return .row items
  | scalar => readScalar name scalar token

/-- Reads the cell of a whole column; a short record has no text for its last columns. An empty
text is a value of a column that may not be null, unless it is the text of null. -/
def readToken (d : Dialect) (field : Field) : Option String → Except Fault Cell
  | none => if field.nullable then .ok none else .error ⟨field.name, "", .missing⟩
  | some token =>
    -- without a null literal the empty text is null only where null is allowed
    if d.isNullToken token && field.nullable then .ok none
    else if d.isNullToken token && ! d.nullToken.isEmpty then
      .error ⟨field.name, token, .nullColumn⟩
    else (readValue d field.name field.type token).map some

/-- Reads the member of a nested row that is a column of its own. A null row has null members. -/
def readSlot (d : Dialect) (field : Field) (slot : Projection.Slot) (token : Option String) :
    Except Fault Cell := do
  let member ←
    match token with
    | none => .ok none
    | some token =>
      if d.isNullToken token then .ok none
      else do
        let members ← unpackRow d field.name token slot.width
        .ok members[slot.index]?.join
  readMember d field.name field member

/-- Reads the cell of a selected column. -/
def readColumn (d : Dialect) (column : Projection.Column) (record : List String) :
    Except Fault Cell :=
  match column.slot with
  | none => readToken d column.field record[column.position]?
  | some slot => readSlot d column.field slot record[column.position]?

/-- Reads the cell of a selected column; the lenient policy puts null for a fault where the
column may be null. -/
def readCell (r : CellReader) (column : Projection.Column) (record : List String) :
    Except Fault Cell :=
  match readColumn r.dialect column record with
  | .ok cell => .ok cell
  | .error fault =>
    if r.policy = .lenient ∧ column.field.nullable then .ok none else .error fault

/-- The row of a record. -/
def read (r : CellReader) (record : List String) : Except Fault Row :=
  r.columns.mapM fun column => r.readCell column record

end CellReader

end TypedCsv
