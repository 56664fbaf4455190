import TypedCsv.RowType
import TypedCsv.Number.Integer
import TypedCsv.Number.Decimal
import TypedCsv.Number.Binary64
import TypedCsv.Calendar.Formats
import TypedCsv.Guid

/-! # Values

A cell of a row holds a value or is null. A value is a scalar, an array or a nested row; the
members of the last two may be null as well.

* `Value.display`: the canonical text of a value.
* `Value.matches`: whether a value is of a type.
* `Value.equal`: equality as numbers, not as texts: `1.50` and `1.5` are equal decimals. -/

namespace TypedCsv

/-- A value of a cell. -/
inductive Value where
  | boolean (value : Bool)
  | integer (value : Int64)
  | float (value : Binary64)
  | decimal (value : Decimal)
  | string (value : String)
  | date (value : Date)
  | time (value : TimeOfDay)
  | timestamp (value : Timestamp)
  | guid (value : Guid)
  | array (items : List (Option Value))
  | row (items : List (Option Value))

/-- A cell: a value or null. -/
abbrev Cell := Option Value

/-- A row of cells. -/
abbrev Row := List Cell

namespace Value

/-- The name of the type of a value. -/
def typeName : Value → String
  | boolean _ => "boolean"
  | integer _ => "integer"
  | float _ => "float"
  | decimal _ => "decimal"
  | string _ => "string"
  | date _ => "date"
  | time _ => "time"
  | timestamp _ => "timestamp"
  | guid _ => "guid"
  | array _ => "array"
  | row _ => "row"

end Value

/-! ## Text -/

mutual

/-- The canonical text of a value. The members of a composite stand in brackets. -/
def Value.display : Value → String
  | .boolean true => "true"
  | .boolean false => "false"
  | .integer n => String.ofList (Integer.display n)
  | .float x => String.ofList x.display
  | .decimal d => String.ofList d.display
  | .string s => s
  | .date d => String.ofList d.display
  | .time t => String.ofList t.display
  | .timestamp t => String.ofList t.display
  | .guid g => String.ofList g.display
  | .array items => "[" ++ ", ".intercalate (displayItems items) ++ "]"
  | .row items => "[" ++ ", ".intercalate (displayItems items) ++ "]"

/-- The texts of the members of a composite. -/
def displayItems : List (Option Value) → List String
  | [] => []
  | none :: items => "null" :: displayItems items
  | some value :: items => value.display :: displayItems items

end

/-! ## Types -/

mutual

/-- Whether a value is of a type. -/
def Value.matches : Value → DataType → Bool
  | .boolean _, .boolean => true
  | .integer _, .integer => true
  | .float _, .float => true
  | .decimal _, .decimal => true
  | .string _, .string => true
  | .date _, .date => true
  | .time _, .time => true
  | .timestamp _, .timestamp => true
  | .guid _, .guid => true
  | .array items, .array element => elementsMatch items element
  | .row items, .row fields => membersMatch items fields
  | _, _ => false

/-- Whether all elements of an array are of a type; elements may be null. -/
def elementsMatch : List (Option Value) → DataType → Bool
  | [], _ => true
  | none :: items, type => elementsMatch items type
  | some value :: items, type => value.matches type && elementsMatch items type

/-- Whether the members of a nested row fit its fields one by one. -/
def membersMatch : List (Option Value) → List Field → Bool
  | [], [] => true
  | none :: items, field :: fields => field.nullable && membersMatch items fields
  | some value :: items, field :: fields => value.matches field.type && membersMatch items fields
  | _, _ => false

end

/-- Whether a cell fits a field: null only if the field may be null. -/
def Field.admits (field : Field) : Cell → Bool
  | none => field.nullable
  | some value => value.matches field.type

/-! ## Equality -/

mutual

/-- Whether two values are equal: numbers as numbers, everything else as it stands. -/
def Value.equal : Value → Value → Bool
  | .boolean a, .boolean b => a == b
  | .integer a, .integer b => a == b
  | .float a, .float b => a.equal b
  | .decimal a, .decimal b => a.equal b
  | .string a, .string b => a == b
  | .date a, .date b => a == b
  | .time a, .time b => a == b
  | .timestamp a, .timestamp b => a == b
  | .guid a, .guid b => a == b
  | .array a, .array b => itemsEqual a b
  | .row a, .row b => itemsEqual a b
  | _, _ => false

/-- Whether two lists of cells are equal. -/
def itemsEqual : List (Option Value) → List (Option Value) → Bool
  | [], [] => true
  | none :: as, none :: bs => itemsEqual as bs
  | some a :: as, some b :: bs => a.equal b && itemsEqual as bs
  | _, _ => false

end

end TypedCsv
