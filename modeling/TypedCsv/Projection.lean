import TypedCsv.RowType
import TypedCsv.Text.Split

/-! # Projections

A projection selects columns of a table, in an order of its own. It is a list of paths: a path
of one step is a column, a path of two is a member of a nested row, which becomes a column.

* `Projection.ofNames`: the projection of column names; `parent.child` names a member.
* `Projection.resolve`: the selected columns, each with its place and its field.
* `Projection.apply`: the row type of the selected columns. -/

namespace TypedCsv

/-- Where the selected columns are. -/
structure Projection where
  paths : List (List Nat)
deriving DecidableEq, Repr

namespace Projection

/-- Why a projection cannot be used. -/
inductive Fault where
  | unknownColumn (name : String)
  | segmentNotRow (segment name : String) (type : DataType)
  | emptyPath
  | columnOutOfRange (index count : Nat)
  | columnNotRow (name : String) (type : DataType)
  | memberOutOfRange (index : Nat) (name : String)
  | tooDeep (path : List Nat)

/-- The wording of a fault. -/
def Fault.message : Fault → String
  | unknownColumn name => s!"unknown column '{name}'"
  | segmentNotRow segment name type =>
    s!"'{segment}' in '{name}' is " ++ type.describe ++ ", not a row"
  | emptyPath => "empty projection path"
  | columnOutOfRange index count =>
    s!"column index {index} is out of range for {count} column(s)"
  | columnNotRow name type => s!"column '{name}' is " ++ type.describe ++ ", not a row"
  | memberOutOfRange index name =>
    s!"nested index {index} is out of range for column '{name}'"
  | tooDeep path =>
    "projection path [" ++ ", ".intercalate (path.map toString)
      ++ "] is deeper than the row type"

/-- The projection of some columns. -/
def columns (indices : List Nat) : Projection :=
  ⟨indices.map fun index => [index]⟩

/-- The projection of all columns in order. -/
def all (rowType : RowType) : Projection :=
  columns (List.range rowType.length)

/-! ## Names -/

/-- The path that the parts of a name take from a row type on. -/
def pathOfSegments (name : String) (rowType : RowType) :
    List (List Char) → Except Fault (List Nat)
  | [] => .ok []
  | segment :: rest => do
    let segment := String.ofList segment
    match rowType.indexOf? segment with
    | none => .error (.unknownColumn name)
    | some index =>
      match rest with
      | [] => .ok [index]
      | _ =>
        match rowType[index]?.map Field.type with
        | some (.row fields) => return index :: (← pathOfSegments name fields rest)
        | some type => .error (.segmentNotRow segment name type)
        | none => .error (.unknownColumn name)

/-- The path of a name. -/
def pathOfName (rowType : RowType) (name : String) : Except Fault (List Nat) :=
  pathOfSegments name rowType (Text.split '.' name.toList)

/-- The projection of some names. -/
def ofNames (rowType : RowType) (names : List String) : Except Fault Projection := do
  return ⟨← names.mapM (pathOfName rowType)⟩

/-! ## Columns -/

/-- The place of a member inside the cell of a nested row. -/
structure Slot where
  index : Nat
  /-- The number of members of the row. -/
  width : Nat
deriving DecidableEq, Repr

/-- A selected column: where its cell is and what it holds. -/
structure Column where
  /-- The position of the cell in a record. -/
  position : Nat
  slot : Option Slot
  field : Field

/-- The column of a path. A member may be null if it or its row may be. -/
def resolvePath (rowType : RowType) (path : List Nat) : Except Fault Column :=
  match path with
  | [] => .error .emptyPath
  | position :: rest =>
    match rowType[position]? with
    | none => .error (.columnOutOfRange position rowType.length)
    | some top =>
      match rest with
      | [] => .ok ⟨position, none, top⟩
      | [index] =>
        match top.type with
        | .row members =>
          match members[index]? with
          | none => .error (.memberOutOfRange index top.name)
          | some inner =>
            .ok ⟨position, some ⟨index, members.length⟩,
              { name := top.name ++ "_" ++ inner.name
                type := inner.type
                nullable := top.nullable || inner.nullable }⟩
        | type => .error (.columnNotRow top.name type)
      | _ => .error (.tooDeep path)

/-- The selected columns. -/
def resolve (projection : Projection) (rowType : RowType) : Except Fault (List Column) :=
  projection.paths.mapM (resolvePath rowType)

/-- The row type of the selected columns. -/
def apply (projection : Projection) (rowType : RowType) : Except Fault RowType := do
  return (← projection.resolve rowType).map Column.field

end Projection

end TypedCsv
