import TypedCsv.Options
import TypedCsv.Text.Backslash
import TypedCsv.Text.Utf8

/-! # Dialects

A `Dialect` holds the options of a file after checking: the bytes that give a record its
structure, and the texts inside a cell. Decoding and encoding both start from it.
`Dialect.compile` checks the options of a table one after the other; the first that cannot be
used is the fault. -/

namespace TypedCsv

/-- The checked options of a file. -/
structure Dialect where
  /-- The byte between two cells. -/
  delimiter : UInt8
  /-- The byte around a quoted cell, if cells are quoted. -/
  quote : Option UInt8
  /-- The byte that takes its meaning from the one after it. -/
  escape : Option UInt8
  /-- The byte that makes a line a comment. -/
  comment : Option UInt8
  /-- The text between two members of a composite. -/
  elementDelimiter : String
  /-- The text that stands for null. -/
  nullLiteral : Option String
deriving DecidableEq

namespace Dialect

/-- The byte of a comma. -/
def comma : UInt8 := 0x2C

/-- The byte of a double quote. -/
def doubleQuote : UInt8 := 0x22

/-- The byte that starts a comment. -/
def hash : UInt8 := 0x23

/-- The byte that protects members of composites when no escape is set. -/
def backslash : UInt8 := 0x5C

/-- The character of a byte. -/
def charOfByte (byte : UInt8) : Char :=
  Char.ofNat byte.toNat

/-- The escape inside composite cells: the escape of the dialect, or a backslash. -/
def elementEscape (d : Dialect) : Char :=
  charOfByte (d.escape.getD backslash)

/-- The text of a null cell or member: the null literal, or nothing. -/
def nullToken (d : Dialect) : String :=
  d.nullLiteral.getD ""

/-- Whether a text stands for null. -/
def isNullToken (d : Dialect) (token : String) : Bool :=
  token == d.nullToken

/-- The byte of the first character of an option; it has to be a single one. -/
def firstByte (option : String) (value : List Char) : Except Options.Fault UInt8 :=
  match value with
  | [] => .error ⟨option, .empty⟩
  | c :: _ =>
    if c.toNat < 128 then .ok (UInt8.ofNat c.toNat) else .error ⟨option, .notSingleByte c⟩

/-- Whether the members of a type, if it has any, are scalars. -/
def isFlat : DataType → Bool
  | .array element => ! element.isComposite
  | .row fields => fields.all fun field => ! field.type.isComposite
  | _ => true

/-- Checks that composites have scalar members: each of them is a single cell. -/
def checkFlat (rowType : RowType) : Except Options.Fault Unit :=
  match rowType.find? fun field => ! isFlat field.type with
  | none => .ok ()
  | some field => .error ⟨field.name, .nestedComposite field.type⟩

/-- The field delimiter; backslash sequences are resolved. -/
def compileDelimiter (options : Options) : Except Options.Fault UInt8 :=
  match options.fieldDelimiter with
  | some raw => firstByte "fieldDelimiter" (Text.Backslash.resolve raw.toList)
  | none => .ok comma

/-- The quote, unless quoting is disabled. -/
def compileQuote (options : Options) : Except Options.Fault (Option UInt8) :=
  if options.quotingDisabled then .ok none
  else
    match options.quoteCharacter with
    | some raw => (firstByte "quoteCharacter" raw.toList).map some
    | none => .ok (some doubleQuote)

/-- The escape, if one is set. -/
def compileEscape (options : Options) : Except Options.Fault (Option UInt8) :=
  match options.escapeCharacter with
  | some raw => (firstByte "escapeCharacter" raw.toList).map some
  | none => .ok none

/-- The text between members of composites; it must not be empty. -/
def compileElementDelimiter (options : Options) : Except Options.Fault String :=
  match options.arrayElementDelimiter with
  | some raw =>
    if raw.isEmpty then .error ⟨"arrayElementDelimiter", .empty⟩ else .ok raw
  | none => .ok ";"

/-- Checks a condition that an option has to meet. -/
def require (condition : Bool) (option : String) (reason : Options.Reason) :
    Except Options.Fault Unit :=
  if condition then .ok () else .error ⟨option, reason⟩

/-- Checks the options of a table. -/
def compile (rowType : RowType) (options : Options) : Except Options.Fault Dialect := do
  checkFlat rowType
  let delimiter ← compileDelimiter options
  let quote ← compileQuote options
  require (quote != some delimiter) "quoteCharacter" .quoteIsDelimiter
  let elementDelimiter ← compileElementDelimiter options
  let escape ← compileEscape options
  require (escape.isNone || escape != some delimiter && escape != quote)
    "escapeCharacter" .escapeIsStructural
  let dialect : Dialect :=
    { delimiter, quote, escape
      comment := if options.allowComments then some hash else none
      elementDelimiter
      nullLiteral := options.nullLiteral }
  require (! elementDelimiter.toList.contains dialect.elementEscape)
    "arrayElementDelimiter" (.containsEscape dialect.elementEscape)
  return dialect

end Dialect

end TypedCsv
