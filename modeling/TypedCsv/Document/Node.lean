import TypedCsv.Document.Style
import TypedCsv.Document.Tag

/-! # Documents

A document is a tree of scalars, sequences and mappings, any of which may carry a tag. A node may
have an anchor, and a reference elsewhere in the document stands for that node.

* `Node`: a document or a part of one, and `Node.size`.
* `Document`: a tree with its anchored nodes. -/

namespace TypedCsv

namespace Document

/-- A part of a document. -/
inductive Node where
  | scalar (style : Style) (text : String)
  | sequence (items : List Node)
  | mapping (entries : List (Node × Node))
  | tagged (tag : Tag) (node : Node)
  /-- The node whose anchor has the given number. -/
  | reference (anchor : Nat)

namespace Node

/-- The node of a missing value. -/
def empty : Node := scalar .plain ""

/-- A node with a tag, if there is one. -/
def withTag (tag : Option Tag) (node : Node) : Node :=
  match tag with
  | some tag => tagged tag node
  | none => node

mutual

/-- The size of a node: one for each scalar and reference, two for each collection. -/
def size : Node → Nat
  | scalar _ _ => 1
  | sequence items => 2 + sizeOfItems items
  | mapping entries => 2 + sizeOfEntries entries
  | tagged _ node => node.size
  | reference _ => 1

/-- The size of the items of a sequence. -/
def sizeOfItems : List Node → Nat
  | [] => 0
  | node :: nodes => node.size + sizeOfItems nodes

/-- The size of the entries of a mapping. -/
def sizeOfEntries : List (Node × Node) → Nat
  | [] => 0
  | (key, value) :: entries => key.size + value.size + sizeOfEntries entries

end

end Node

end Document

/-- A tree with its anchored nodes. -/
structure Document where
  root : Document.Node
  /-- The nodes by the numbers of their anchors. Where a number is given twice, the first node
  counts. -/
  anchored : List (Nat × Document.Node)

end TypedCsv
