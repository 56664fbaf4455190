import TypedCsv.Value
import TypedCsv.Number.DecimalText
import TypedCsv.Text.Blank

/-! # Reading scalars

`Value.read` reads a text as a value of a scalar type. Strings are taken as they stand; for all
other types blanks at the ends do not count. -/

namespace TypedCsv

namespace Scalar

/-- Why a text is no value of a scalar type. -/
inductive Fault where
  | boolean
  | integer (fault : Integer.Fault)
  | float (fault : Binary64.Fault)
  | decimal (fault : Decimal.Fault)
  | date
  | time
  | timestamp
  | guid (fault : Guid.Fault)
  /-- The type is no scalar. -/
  | composite (type : DataType)

/-- The wording of a fault. -/
def Fault.message : Fault → String
  | boolean => "not a boolean"
  | integer fault => fault.message
  | float fault => fault.message
  | decimal fault => fault.message
  | date => "not a recognised date"
  | time => "not a recognised time"
  | timestamp => "not a recognised timestamp"
  | guid fault => fault.message
  | composite type => type.describe ++ " is not a scalar type"

/-- The words for true. -/
def trueWords : List (List Char) :=
  [['t', 'r', 'u', 'e'], ['t'], ['y', 'e', 's'], ['y'], ['1']]

/-- The words for false. -/
def falseWords : List (List Char) :=
  [['f', 'a', 'l', 's', 'e'], ['f'], ['n', 'o'], ['n'], ['0']]

/-- Reads a boolean, in either case. -/
def readBoolean (text : List Char) : Option Bool :=
  let word := text.map Char.toLower
  if word ∈ trueWords then some true
  else if word ∈ falseWords then some false
  else none

/-- Whether a character is a brace; those around an identifier do not count. -/
def isBrace (c : Char) : Bool :=
  c == '\x7b' || c == '\x7d'

/-- The text without the braces at its ends. -/
def trimBraces (text : List Char) : List Char :=
  ((text.dropWhile isBrace).reverse.dropWhile isBrace).reverse

end Scalar

/-- The value, or the fault if there is none. -/
def Scalar.orFault (fault : Scalar.Fault) : Option Value → Except Scalar.Fault Value
  | some value => .ok value
  | none => .error fault

/-- Reads a text as a value of a scalar type. -/
def Value.read (type : DataType) (text : String) : Except Scalar.Fault Value :=
  let trimmed := Text.trim text.toList
  match type with
  | .string => .ok (.string text)
  | .boolean => Scalar.orFault .boolean ((Scalar.readBoolean trimmed).map .boolean)
  | .integer => (Integer.read trimmed).map .integer |>.mapError .integer
  | .float => (Binary64.read trimmed).map .float |>.mapError .float
  | .decimal => (Decimal.read trimmed).map .decimal |>.mapError .decimal
  | .date => Scalar.orFault .date ((Date.read trimmed).map .date)
  | .time => Scalar.orFault .time ((TimeOfDay.read trimmed).map .time)
  | .timestamp => Scalar.orFault .timestamp ((Timestamp.read trimmed).map .timestamp)
  | .guid => (Guid.read (Scalar.trimBraces trimmed)).map .guid |>.mapError .guid
  | .array element => .error (.composite (.array element))
  | .row fields => .error (.composite (.row fields))

end TypedCsv
