import TypedCsv.RowType
import TypedCsv.Text.Blank

/-! # Format options

The options of a dialect as texts and flags, not yet checked. They come as keys and values:
`Options.set` changes one of them, `Options.assign` does so from a text `key=value`. Unknown keys
change nothing. -/

namespace TypedCsv

/-- The options of a dialect; an unset text leaves the default in force. -/
structure Options where
  fieldDelimiter : Option String
  quoteCharacter : Option String
  /-- No character quotes; the quote character does not count then. -/
  quotingDisabled : Bool
  escapeCharacter : Option String
  allowComments : Bool
  arrayElementDelimiter : Option String
  nullLiteral : Option String
  /-- Skip what cannot be read instead of stopping. -/
  ignoreParseErrors : Bool
deriving DecidableEq, Repr

namespace Options

/-- The options with nothing set. -/
def default : Options :=
  ⟨none, none, false, none, false, none, none, false⟩

instance : Inhabited Options := ⟨default⟩

/-- Why an option cannot be used. -/
inductive Reason where
  | empty
  | notSingleByte (c : Char)
  | quoteIsDelimiter
  | escapeIsStructural
  | containsEscape (escape : Char)
  | nestedComposite (type : DataType)
  | notBoolean (found : String)
  | notAssignment

/-- The wording of a reason. -/
def Reason.message : Reason → String
  | empty => "must not be empty"
  | notSingleByte c => s!"'{c}' is not a single-byte character"
  | quoteIsDelimiter => "quote character must differ from the field delimiter"
  | escapeIsStructural =>
    "escape character must differ from the field delimiter and quote character"
  | containsEscape escape => s!"must not contain the escape character '{escape}'"
  | nestedComposite type =>
    "unsupported column type " ++ type.describe ++ ": composite members must be scalar"
  | notBoolean found => s!"expected a boolean, found '{found}'"
  | notAssignment => "expected an assignment of the form key=value"

/-- An option that cannot be used, and why. -/
structure Fault where
  option : String
  reason : Reason

/-- The wording of a fault. -/
def Fault.message (fault : Fault) : String :=
  s!"invalid format option '{fault.option}': {fault.reason.message}"

/-- Reads a flag, in either case and with blanks around it. -/
def readFlag (key value : String) : Except Fault Bool :=
  let word := String.ofList ((Text.trim value.toList).map Char.toLower)
  if word ∈ ["true", "yes", "1"] then .ok true
  else if word ∈ ["false", "no", "0"] then .ok false
  else .error ⟨key, .notBoolean word⟩

/-- Sets the option of a key; an unknown key changes nothing. -/
def set (options : Options) (key value : String) : Except Fault Options :=
  match key with
  | "fieldDelimiter" => .ok { options with fieldDelimiter := some value }
  | "quoteCharacter" => .ok { options with quoteCharacter := some value }
  | "quotingDisabled" | "disableQuoteCharacter" => do
    return { options with quotingDisabled := ← readFlag key value }
  | "escapeCharacter" => .ok { options with escapeCharacter := some value }
  | "allowComments" => do return { options with allowComments := ← readFlag key value }
  | "arrayElementDelimiter" => .ok { options with arrayElementDelimiter := some value }
  | "nullLiteral" => .ok { options with nullLiteral := some value }
  | "ignoreParseErrors" => do return { options with ignoreParseErrors := ← readFlag key value }
  | _ => .ok options

/-- Sets options one after the other; a later one overrides an earlier one. -/
def ofPairs (pairs : List (String × String)) : Except Fault Options :=
  pairs.foldlM (fun options (key, value) => options.set key value) default

/-- Sets an option from a text `key=value`; blanks around the key do not count. -/
def assign (options : Options) (assignment : String) : Except Fault Options :=
  let text := assignment.toList
  match text.dropWhile (· != '=') with
  | [] => .error ⟨assignment, .notAssignment⟩
  | _ :: value =>
    let key := Text.trim (text.takeWhile (· != '='))
    options.set (String.ofList key) (String.ofList value)

end Options

end TypedCsv
