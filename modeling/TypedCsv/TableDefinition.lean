import TypedCsv.Options
import TypedCsv.RowType
import TypedCsv.Document.Reader
import TypedCsv.Document.Visit
import TypedCsv.Document.Printer
import TypedCsv.Text.Utf8

/-! # Table definitions

A table definition is a row type with its format options, kept in a document:

* `fields`: a sequence of mappings with the keys `name`, `type` and `nullable`;
* `options`: a mapping of the format options; it may be missing.

Other keys do not count, and no key that counts may be given twice.

* `TableDefinition.read?`: the definition of some bytes.
* `TableDefinition.render`: the document of a definition. -/

namespace TypedCsv

/-- A row type with its format options. -/
structure TableDefinition where
  fields : RowType
  options : Options

namespace TableDefinition

open Document (Node Style Tag Visit)

/-- Whether two definitions are the same. -/
def same (a b : TableDefinition) : Bool :=
  sameFields a.fields b.fields && a.options == b.options

/-- Definitions are the same if they are equal. -/
theorem same_iff {a b : TableDefinition} : a.same b = true ↔ a = b := by
  obtain ⟨fields, options⟩ := a
  obtain ⟨others, found⟩ := b
  rw [same, Bool.and_eq_true, sameFields_iff, beq_iff_eq, mk.injEq]

/-! ## Reading -/

/-- The keys of a field that have been found. -/
structure FoundKeys where
  name : Option String
  type : Option DataType
  nullable : Option Bool

namespace FoundKeys

/-- No key has been found. -/
def none : FoundKeys := ⟨.none, .none, .none⟩

/-- Adds a name; there must not be one. -/
def addName (found : FoundKeys) (name : String) : Option FoundKeys :=
  if found.name.isNone then some { found with name := name } else .none

/-- Adds a type; there must not be one. -/
def addType (found : FoundKeys) (type : DataType) : Option FoundKeys :=
  if found.type.isNone then some { found with type := type } else .none

/-- Adds whether the field may be null; this must not be known. -/
def addNullable (found : FoundKeys) (nullable : Bool) : Option FoundKeys :=
  if found.nullable.isNone then some { found with nullable := nullable } else .none

/-- The field of the keys. It has a name and a type, and may be null unless told otherwise. -/
def field? (found : FoundKeys) : Option Field := do
  return ⟨← found.name, ← found.type, found.nullable.getD true⟩

end FoundKeys

/-- Whether a node with the given tag may be a type: the tag is no name of the document's own. -/
def isUnnamed : Option Tag → Bool
  | some (.named _) => false
  | _ => true

/-- Whether a scalar with the given tag may be the name of a type. -/
def mayNameType (tag : Option Tag) : Bool :=
  isUnnamed tag && ! [Tag.null, Tag.flag, Tag.integer, Tag.float].any (tag == some ·)

/-- The type of the elements of an array: a scalar type by its name, or by a tag on nothing; an
array of scalars by its tag on their name; a row by its tag on its fields. -/
def visitElementType (visitRow : Node → Visit RowType) (node : Node) : Visit DataType := do
  match ← Visit.node node with
  | (some (.named tag), content) =>
    if tag = "row" then return .row (← visitRow content)
    else if tag = "array" then
      match content with
      | .scalar _ name => return .array (← Visit.ofOption (DataType.ofName? name))
      | _ => failure
    else
      let type ← Visit.ofOption (DataType.ofName? tag)
      if (← Visit.optionalText content).isNone then return type else failure
  | (_, .scalar _ name) => Visit.ofOption (DataType.ofName? name)
  | _ => failure

mutual

/-- A type by its name, or by a mapping with the one key `array` or `row`. Here and below, the
number tells how many collections may start inside one another. -/
def visitType : Nat → Node → Visit DataType
  | depth, node => do
    match ← Visit.node node, depth with
    | (tag, .scalar _ name), _ =>
      if mayNameType tag then Visit.ofOption (DataType.ofName? name) else failure
    | (tag, .mapping [(key, value)]), depth + 1 =>
      let key ← Visit.text key
      if ! isUnnamed tag then failure
      else if key = "array" then return .array (← visitElementType (visitRowType depth) value)
      else if key = "row" then return .row (← visitRowType depth value)
      else failure
    | _, _ => failure

/-- The row type of a sequence of fields. -/
def visitRowType : Nat → Node → Visit RowType
  | 0, node => do
    -- only a missing value has no items without being a sequence
    let _ ← Visit.items 0 node
    return []
  | depth + 1, node => do
    (← Visit.items (depth + 1) node).mapM (visitField depth)

/-- The field of a mapping. -/
def visitField : Nat → Node → Visit Field
  | 0, _ => failure
  | depth + 1, node => do
    let found ← (← Visit.entries (depth + 1) node).foldlM
      (fun found (key, value) => do
        if key = "name" then Visit.ofOption (found.addName (← Visit.text value))
        else if key = "type" then Visit.ofOption (found.addType (← visitType depth value))
        else if key = "nullable" then Visit.ofOption (found.addNullable (← Visit.flag value))
        else return found)
      FoundKeys.none
    Visit.ofOption found.field?

end

/-- The value of a key under any of its names; it may be given once. -/
def lookup (entries : List (String × Node)) (names : List String) : Visit (Option Node) :=
  match entries.filter fun (key, _) => names.contains key with
  | [] => return none
  | [(_, node)] => return some node
  | _ => failure

/-- The text of an option, or nothing where it is missing or null. -/
def textOption (entries : List (String × Node)) (key : String) : Visit (Option String) := do
  match ← lookup entries [key] with
  | none => return none
  | some node => Visit.optionalText node

/-- The flag of an option under any of its names; it is off where it is missing. -/
def flagOption (entries : List (String × Node)) (names : List String) : Visit Bool := do
  match ← lookup entries names with
  | none => return false
  | some node => Visit.flag node

/-- The options of a mapping. -/
def visitOptions (depth : Nat) (node : Node) : Visit Options := do
  let entries ← Visit.entries depth node
  return {
    fieldDelimiter := ← textOption entries "fieldDelimiter"
    quoteCharacter := ← textOption entries "quoteCharacter"
    quotingDisabled := ← flagOption entries ["quotingDisabled", "disableQuoteCharacter"]
    escapeCharacter := ← textOption entries "escapeCharacter"
    allowComments := ← flagOption entries ["allowComments"]
    arrayElementDelimiter := ← textOption entries "arrayElementDelimiter"
    nullLiteral := ← textOption entries "nullLiteral"
    ignoreParseErrors := ← flagOption entries ["ignoreParseErrors"] }

/-- The definition of a document. -/
def visit (node : Node) : Visit TableDefinition := do
  let entries ← Visit.entries Visit.maxDepth node
  let depth := Visit.maxDepth - 1
  let fields ←
    match ← lookup entries ["fields"] with
    | none => failure
    | some node => visitRowType depth node
  let options ←
    match ← lookup entries ["options"] with
    | none => pure Options.default
    | some node => visitOptions depth node
  return ⟨fields, options⟩

/-- The definition of some bytes. -/
def read? (bytes : List UInt8) : Option TableDefinition :=
  match Utf8.decode bytes with
  | .ok text => (Document.read? text).bind (Visit.run visit)
  | .error _ => none

/-! ## Writing -/

/-- A text that is written as it stands. -/
def word (text : String) : Node := .scalar .plain text

/-- A text that is quoted where it has to be. -/
def quotable (text : String) : Node := .scalar (Style.ofText text) text

/-- A flag. -/
def ofFlag (flag : Bool) : Node := word (if flag then "true" else "false")

mutual

/-- The node of the elements of an array; a composite has a tag. -/
def ofElement : DataType → Node
  | .array element => .tagged (.named "array") (ofElement element)
  | .row fields => .tagged (.named "row") (.sequence (ofFields fields))
  | .boolean => word "boolean"
  | .integer => word "integer"
  | .float => word "float"
  | .decimal => word "decimal"
  | .string => word "string"
  | .date => word "date"
  | .time => word "time"
  | .timestamp => word "timestamp"
  | .guid => word "guid"

/-- The node of a type. -/
def ofType : DataType → Node
  | .array element => .mapping [(word "array", ofElement element)]
  | .row fields => .mapping [(word "row", .sequence (ofFields fields))]
  | .boolean => word "boolean"
  | .integer => word "integer"
  | .float => word "float"
  | .decimal => word "decimal"
  | .string => word "string"
  | .date => word "date"
  | .time => word "time"
  | .timestamp => word "timestamp"
  | .guid => word "guid"

/-- The node of a field. -/
def ofField : Field → Node
  | ⟨name, type, nullable⟩ =>
    .mapping [(word "name", quotable name), (word "type", ofType type),
      (word "nullable", ofFlag nullable)]

/-- The nodes of some fields. -/
def ofFields : List Field → List Node
  | [] => []
  | field :: fields => ofField field :: ofFields fields

end

/-- The entry of an option, if it is set. -/
def ofText (key : String) (value : Option String) : List (Node × Node) :=
  match value with
  | some text => [(word key, quotable text)]
  | none => []

/-- The node of options; those that are not set are left out. -/
def ofOptions (options : Options) : Node :=
  .mapping <|
    ofText "fieldDelimiter" options.fieldDelimiter
      ++ ofText "quoteCharacter" options.quoteCharacter
      ++ [(word "quotingDisabled", ofFlag options.quotingDisabled)]
      ++ ofText "escapeCharacter" options.escapeCharacter
      ++ [(word "allowComments", ofFlag options.allowComments)]
      ++ ofText "arrayElementDelimiter" options.arrayElementDelimiter
      ++ ofText "nullLiteral" options.nullLiteral
      ++ [(word "ignoreParseErrors", ofFlag options.ignoreParseErrors)]

/-- The document of a definition. -/
def render (definition : TableDefinition) : String :=
  Document.render
    [(word "fields", .sequence (ofFields definition.fields)),
      (word "options", ofOptions definition.options)]

end TableDefinition

end TypedCsv
