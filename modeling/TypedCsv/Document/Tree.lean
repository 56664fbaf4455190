import TypedCsv.Document.Node
import TypedCsv.Document.Token

/-! # Trees of tokens

The tokens of a document make up a tree. `Document.ofTokens?` finds the one document of some tokens.

An anchor has the number of different names that have been given before it, and a name given again
belongs to the later node from there on. Two anchors may thus have one number; references to it
stand for the node that starts last. -/

namespace TypedCsv.Document

/-- What is left to read of a document, and what has been named in it. -/
structure Assembly where
  tokens : List Token
  /-- What the handles of tags stand for. -/
  handles : TagHandles
  /-- The names that have been given, with the numbers of their anchors. -/
  names : List (List Char × Nat)
  /-- The numbers of the anchors in the order in which their nodes start, the last one first. -/
  started : List Nat
  /-- The anchored nodes that have been read, each with the number of anchors before its own. -/
  nodes : List (Nat × Node)

namespace Assembly

/-- The anchored nodes by the numbers of their anchors, those that start last first. -/
def anchored (a : Assembly) : List (Nat × Node) :=
  a.started.zipIdx.filterMap fun (number, later) =>
    (a.nodes.lookup (a.started.length - 1 - later)).map (number, ·)

end Assembly

/-- A step of reading: it gives a result and moves on, or fails. -/
abbrev Assembling := StateT Assembly Option

namespace Assembling

/-! ## Tokens -/

/-- The next token, if there is one. -/
def peek : Assembling (Option Token) := do
  return (← get).tokens.head?

/-- Passes over the next token. -/
def pass : Assembling Unit :=
  modify fun a => { a with tokens := a.tokens.tail }

/-- Passes over the next token; fails if there is none. -/
def take : Assembling Token := do
  match ← peek with
  | some token => do
    pass
    return token
  | none => failure

/-! ## Properties of nodes -/

/-- Gives the node that starts here a name; returns the number of anchors before it. -/
def start (name : List Char) : Assembling Nat := do
  let a ← get
  let number := a.names.length
  set { a with
    names := (name, number) :: a.names.filter (·.1 != name)
    started := number :: a.started }
  return a.started.length

/-- Notes the node of an anchor. -/
def finish (anchor : Option Nat) (node : Node) : Assembling Node := do
  match anchor with
  | some anchor => modify fun a => { a with nodes := (anchor, node) :: a.nodes }
  | none => pure ()
  return node

/-- The node that a name has been given to. -/
def named (name : List Char) : Assembling Node := do
  match (← get).names.lookup name with
  | some number => return .reference number
  | none => failure

/-- The tag of a mark, if there is one. -/
def tagOf : Option TagMark → Assembling (Option Tag)
  | some mark => do
    match (← get).handles.tag? mark with
    | some tag => return some tag
    | none => failure
  | none => return none

/-- Reads an anchor, if there is one. -/
def anchorName? : Assembling (Option (List Char)) := do
  match ← peek with
  | some (.anchor name) => do
    pass
    return some name
  | _ => return none

/-- Reads a tag, if there is one. -/
def tagMark? : Assembling (Option TagMark) := do
  match ← peek with
  | some (.tag mark) => do
    pass
    return some mark
  | _ => return none

/-- Reads what is said of a node before it, in either order: its anchor and its tag. Returns the
number of anchors before its own. -/
def properties : Assembling (Option Nat × Option Tag) := do
  let (name, mark) ←
    match ← anchorName? with
    | some name => pure (some name, ← tagMark?)
    | none => do
      let mark ← tagMark?
      match mark with
      | some _ => pure (← anchorName?, mark)
      | none => pure (none, none)
  let tag ← tagOf mark
  match name with
  | some name => return (some (← start name), tag)
  | none => return (none, tag)

/-! ## Nodes -/

/-- Where a node stands. -/
inductive Position where
  /-- In a flow collection. -/
  | flow
  /-- In a block. -/
  | block
  /-- In an entry of a block mapping, where a sequence need not be indented. -/
  | entry
deriving DecidableEq

/-- Whether a token ends an item of a sequence in a flow collection. -/
def endsFlowItem : Option Token → Bool
  | some .comma | some .flowSequenceEnd => true
  | _ => false

/-- Whether a token ends an entry of a mapping in a flow collection. -/
def endsFlowEntry : Option Token → Bool
  | some .comma | some .flowMappingEnd => true
  | _ => false

/-- Whether a token ends a key or a value of a block mapping. -/
def endsBlockEntry : Option Token → Bool
  | some .key | some .value | some .blockEnd => true
  | _ => false

/-- Whether a token stands before a value. -/
def isValue : Option Token → Bool
  | some .value => true
  | _ => false

mutual

/-- Reads a node. -/
def node : Nat → Position → Assembling Node
  | 0, _ => failure
  | bound + 1, position => do
    match ← peek with
    | some (.reference name) => do
      pass
      named name
    | _ => do
      let (anchor, tag) ← properties
      let content ← content bound position
      match content with
      | some content => finish anchor (content.withTag tag)
      | none =>
        -- what is said of nothing is said of an empty scalar
        if anchor.isSome || tag.isSome then finish anchor (Node.empty.withTag tag) else failure

/-- Reads a node after its properties, or nothing if none starts here. -/
def content : Nat → Position → Assembling (Option Node)
  | 0, _ => failure
  | bound + 1, position => do
    match ← peek with
    | some (.scalar style text) => do
      pass
      return some (.scalar style text)
    | some .flowSequence => do
      pass
      return some (.sequence (← flowItems bound true))
    | some .flowMapping => do
      pass
      return some (.mapping (← flowEntries bound true))
    | some .item =>
      if position = .entry then return some (.sequence (← besideItems bound)) else return none
    | some .blockSequence =>
      if position = .flow then return none
      else do
        pass
        return some (.sequence (← blockItems bound))
    | some .blockMapping =>
      if position = .flow then return none
      else do
        pass
        return some (.mapping (← blockEntries bound))
    | _ => return none

/-- Reads a node, or nothing where a test tells that none starts. -/
def nodeUnless (test : Option Token → Bool) : Nat → Position → Assembling Node
  | 0, _ => failure
  | bound + 1, position => do
    if test (← peek) then return .empty else node bound position

/-- Reads the value of a key, if there is one. -/
def valueUnless (test : Option Token → Bool) : Nat → Position → Assembling Node
  | 0, _ => failure
  | bound + 1, position => do
    if isValue (← peek) then
      pass
      nodeUnless test bound position
    else return .empty

/-- Reads the items of a block up to its end. -/
def blockItems : Nat → Assembling (List Node)
  | 0 => failure
  | bound + 1 => do
    match ← take with
    | .item => do
      let test
        | some .item | some .blockEnd => true
        | _ => false
      let item ← nodeUnless test bound .block
      return item :: (← blockItems bound)
    | .blockEnd => return []
    | _ => failure

/-- Reads the items of a sequence that is not indented more than the mapping around it. -/
def besideItems : Nat → Assembling (List Node)
  | 0 => failure
  | bound + 1 => do
    match ← peek with
    | some .item => do
      pass
      let test token := endsBlockEntry token || token matches some .item
      let item ← nodeUnless test bound .block
      return item :: (← besideItems bound)
    | _ => return []

/-- Reads the entries of a block up to its end. -/
def blockEntries : Nat → Assembling (List (Node × Node))
  | 0 => failure
  | bound + 1 => do
    match ← take with
    | .key => do
      let key ← nodeUnless endsBlockEntry bound .entry
      let value ← valueUnless endsBlockEntry bound .entry
      return (key, value) :: (← blockEntries bound)
    | .blockEnd => return []
    | _ => failure

/-- Reads the items of a flow collection up to its end. One that has a key is a mapping of one
entry. -/
def flowItems : Nat → Bool → Assembling (List Node)
  | 0, _ => failure
  | bound + 1, first => do
    if (← peek) matches some .flowSequenceEnd then
      pass
      return []
    if ! first then
      unless (← take) matches .comma do failure
    match ← peek with
    | some .flowSequenceEnd => do
      pass
      return []
    | some .key => do
      pass
      let key ←
        -- the token that ends an empty key is passed over with it
        if isValue (← peek) || endsFlowItem (← peek) then do
          pass
          pure Node.empty
        else node bound .flow
      let value ← valueUnless endsFlowItem bound .flow
      return .mapping [(key, value)] :: (← flowItems bound false)
    | _ => do
      let item ← node bound .flow
      return item :: (← flowItems bound false)

/-- Reads the entries of a flow collection up to its end. -/
def flowEntries : Nat → Bool → Assembling (List (Node × Node))
  | 0, _ => failure
  | bound + 1, first => do
    if (← peek) matches some .flowMappingEnd then
      pass
      return []
    if ! first then
      unless (← take) matches .comma do failure
    match ← peek with
    | some .flowMappingEnd => do
      pass
      return []
    | some .key => do
      pass
      let key ← nodeUnless (fun token => isValue token || endsFlowEntry token) bound .flow
      let value ← valueUnless endsFlowEntry bound .flow
      return (key, value) :: (← flowEntries bound false)
    | _ => do
      let key ← node bound .flow
      return (key, .empty) :: (← flowEntries bound false)

end

/-! ## Documents -/

/-- Reads the directives before a document. -/
def directives : Nat → Assembling (List Directive)
  | 0 => failure
  | bound + 1 => do
    match ← peek with
    | some (.directive directive) => do
      pass
      return directive :: (← directives bound)
    | _ => return []

/-- Passes over the markers of a document's end. -/
def documentEnds : Nat → Assembling Unit
  | 0 => failure
  | bound + 1 => do
    if (← peek) matches some .documentEnd then
      pass
      documentEnds bound

/-- Reads a document. One that starts with a marker may be empty; directives need that marker. -/
def document (bound : Nat) : Assembling Node := do
  let directives ← directives bound
  match Directive.handles? directives with
  | some handles => modify fun a => { a with handles := handles }
  | none => failure
  if (← peek) matches some .documentStart then
    pass
    let test
      | none | some (.directive _) | some .documentStart | some .documentEnd => true
      | _ => false
    nodeUnless test bound .block
  else if directives.isEmpty then node bound .block
  else failure

end Assembling

/-- The document of some tokens; there must not be another one. -/
def ofTokens? (tokens : List Token) : Option Document := do
  let bound := 4 * tokens.length + 16
  let (root, a) ← (Assembling.document bound).run ⟨tokens, [], [], [], []⟩
  let ((), a') ← (Assembling.documentEnds bound).run a
  if a'.tokens.isEmpty then some ⟨root, a.anchored⟩ else none

end TypedCsv.Document
