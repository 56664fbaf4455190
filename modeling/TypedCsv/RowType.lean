/-! # Row types

A row type is an ordered list of fields; the order fixes the position of each column in a
record. A field has a name, a type and may or may not be null. A type is a scalar, or a
composite: an array of elements or a nested row of fields.

* `DataType.describe`: the text of a type.
* `RowType.indexOf?`: the first column of a name. -/

namespace TypedCsv

mutual

/-- The type of a column. -/
inductive DataType where
  | boolean
  | integer
  | float
  | decimal
  | string
  | date
  | time
  | timestamp
  | guid
  | array (element : DataType)
  | row (fields : List Field)

/-- A column: its name, its type, and whether it may be null. -/
structure Field where
  name : String
  type : DataType
  nullable : Bool

end

/-- The columns of a table, in order. -/
abbrev RowType := List Field

namespace DataType

/-- The name of a type without its members. -/
def name : DataType → String
  | boolean => "boolean"
  | integer => "integer"
  | float => "float"
  | decimal => "decimal"
  | string => "string"
  | date => "date"
  | time => "time"
  | timestamp => "timestamp"
  | guid => "guid"
  | array _ => "array"
  | row _ => "row"

/-- Whether values of a type have members. -/
def isComposite : DataType → Bool
  | array _ => true
  | row _ => true
  | _ => false

/-- The scalar type of a name. -/
def ofName? (name : String) : Option DataType :=
  [boolean, integer, float, decimal, string, date, time, timestamp, guid].find?
    fun type => type.name == name

end DataType

/-! ## Text of a type -/

mutual

/-- The text of a type with its members: `row<id integer, tags array<string>>`. -/
def DataType.describe : DataType → String
  | .array element => "array<" ++ element.describe ++ ">"
  | .row fields => "row<" ++ ", ".intercalate (describeFields fields) ++ ">"
  | .boolean => "boolean"
  | .integer => "integer"
  | .float => "float"
  | .decimal => "decimal"
  | .string => "string"
  | .date => "date"
  | .time => "time"
  | .timestamp => "timestamp"
  | .guid => "guid"

/-- The text of a field: its name and its type. -/
def Field.describe : Field → String
  | ⟨name, type, _⟩ => name ++ " " ++ type.describe

/-- The texts of some fields. -/
def describeFields : List Field → List String
  | [] => []
  | field :: fields => field.describe :: describeFields fields

end

/-! ## Equality -/

mutual

/-- Whether two types are the same. -/
def DataType.same : DataType → DataType → Bool
  | .boolean, .boolean => true
  | .integer, .integer => true
  | .float, .float => true
  | .decimal, .decimal => true
  | .string, .string => true
  | .date, .date => true
  | .time, .time => true
  | .timestamp, .timestamp => true
  | .guid, .guid => true
  | .array s, .array t => s.same t
  | .row fs, .row gs => sameFields fs gs
  | _, _ => false

/-- Whether two fields are the same. -/
def Field.same : Field → Field → Bool
  | ⟨m, s, a⟩, ⟨n, t, b⟩ => m == n && s.same t && a == b

/-- Whether two lists of fields are the same. -/
def sameFields : List Field → List Field → Bool
  | [], [] => true
  | f :: fs, g :: gs => f.same g && sameFields fs gs
  | _, _ => false

end

instance : BEq DataType := ⟨DataType.same⟩

instance : BEq Field := ⟨Field.same⟩

mutual

/-- Types are the same if they are equal. -/
theorem DataType.same_iff : ∀ {s t : DataType}, s.same t = true ↔ s = t
  | .array _, t => by
    cases t with
    | array _ => rw [DataType.same, DataType.array.injEq]; exact DataType.same_iff
    | _ => simp [DataType.same]
  | .row _, t => by
    cases t with
    | row _ => rw [DataType.same, DataType.row.injEq]; exact sameFields_iff
    | _ => simp [DataType.same]
  | .boolean, t | .integer, t | .float, t | .decimal, t | .string, t | .date, t | .time, t
  | .timestamp, t | .guid, t => by cases t <;> simp [DataType.same]

/-- Fields are the same if they are equal. -/
theorem Field.same_iff : ∀ {f g : Field}, f.same g = true ↔ f = g
  | ⟨_, s, _⟩, ⟨_, t, _⟩ => by
    have htypes : s.same t = true ↔ s = t := DataType.same_iff
    rw [Field.same, Bool.and_eq_true, Bool.and_eq_true, beq_iff_eq, beq_iff_eq, htypes,
      Field.mk.injEq, and_assoc]

/-- Lists of fields are the same if they are equal. -/
theorem sameFields_iff : ∀ {fs gs : List Field}, sameFields fs gs = true ↔ fs = gs
  | [], [] | [], _ :: _ | _ :: _, [] => by simp [sameFields]
  | f :: fs, g :: gs => by
    have hfields : f.same g = true ↔ f = g := Field.same_iff
    have hothers : sameFields fs gs = true ↔ fs = gs := sameFields_iff
    rw [sameFields, Bool.and_eq_true, hfields, hothers, List.cons.injEq]

end

/-! ## Columns -/

namespace RowType

/-- The names of the columns. -/
def names (rowType : RowType) : List String :=
  rowType.map Field.name

/-- The position of the first column of a name. -/
def indexOf? (rowType : RowType) (name : String) : Option Nat :=
  rowType.findIdx? fun field => field.name == name

end RowType

end TypedCsv
