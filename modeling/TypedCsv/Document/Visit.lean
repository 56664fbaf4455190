import TypedCsv.Document.Node

/-! # Visiting documents

The values of a document are read from its nodes. Where a node is a reference, the value is that of
the node with the anchor; since a few nodes could stand for very many in this way, a visit follows
references only so often.

* `Visit`: a reading of a document.
* `Visit.text`, `Visit.optionalText`, `Visit.flag`, `Visit.items`, `Visit.entries`: the values of a
  node. -/

namespace TypedCsv.Document

/-- A reading of a document with the given anchored nodes; its state is how often it may follow a
reference from here on. -/
abbrev Visit := ReaderT (List (Nat × Node)) (StateT Nat Option)

namespace Visit

/-- How often a visit may follow a reference, for each node of the document. -/
def referencesPerNode : Nat := 100

/-- How many collections of which the values are read may stand inside one another. -/
def maxDepth : Nat := 128

/-- Visits a document from its root on. -/
def run {α : Type} (visit : Node → Visit α) (document : Document) : Option α :=
  let references := referencesPerNode * document.root.size
  (visit document.root document.anchored references).map (·.1)

/-- A value that may be missing; the visit fails where it is. -/
def ofOption {α : Type} : Option α → Visit α
  | some a => return a
  | none => failure

/-- The node that a node stands for, and its tag. -/
def node (node : Node) : Visit (Option Tag × Node) := do
  let target ←
    match node with
    | .reference number => do
      match ← get with
      | 0 => failure
      | left + 1 => set left
      ofOption ((← read).lookup number)
    | node => pure node
  match target with
  | .tagged tag node => return (some tag, node)
  | node => return (none, node)

/-- The text of a scalar, however it is written and tagged. -/
def text (node : Node) : Visit String := do
  match ← Visit.node node with
  | (_, .scalar _ text) => return text
  | _ => failure

/-- The text of a scalar, or nothing for null: a plain scalar without a tag that is empty or a word
for null, or such a word with the tag of null. -/
def optionalText (node : Node) : Visit (Option String) := do
  match ← Visit.node node with
  | (some tag, .scalar _ text) =>
    if tag = .null then
      if nullWords.contains text then return none else failure
    else return some text
  | (none, .scalar style text) =>
    if style = .plain && (text.isEmpty || nullWords.contains text) then return none
    else return some text
  | _ => failure

/-- The flag of a plain scalar, or of a literal block with the tag of flags. -/
def flag (node : Node) : Visit Bool := do
  match ← Visit.node node with
  | (tag, .scalar style text) =>
    if style = .plain || style = .literal && tag = some .flag then ofOption (flagOfWord? text)
    else failure
  | _ => failure

/-- The items of a sequence that `depth` collections may start in; a missing value has none. -/
def items (depth : Nat) (node : Node) : Visit (List Node) := do
  match ← Visit.node node with
  | (_, .sequence items) => if depth = 0 then failure else return items
  | (_, .scalar .plain "") => return []
  | _ => failure

/-- The entries of a mapping that `depth` collections may start in, with texts as keys; a missing
value has none. -/
def entries (depth : Nat) (node : Node) : Visit (List (String × Node)) := do
  match ← Visit.node node with
  | (_, .mapping entries) =>
    if depth = 0 then failure
    else entries.mapM fun (key, value) => return (← text key, value)
  | (_, .scalar .plain "") => return []
  | _ => failure

end Visit

end TypedCsv.Document
