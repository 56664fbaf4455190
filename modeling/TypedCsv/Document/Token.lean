import TypedCsv.Document.Style
import TypedCsv.Document.Directive

/-! # Tokens of a document

A document is a row of tokens: its scalars, what is said of its nodes, and the marks that hold
them together. The blocks of a document have no marks of their own, but indentation gives them a
start and an end among the tokens as well. -/

namespace TypedCsv.Document

/-- A part of a document that has no smaller parts. -/
inductive Token where
  | directive (directive : Directive)
  | documentStart
  | documentEnd
  /-- A sequence starts whose items stand below each other. -/
  | blockSequence
  /-- A mapping starts whose entries stand below each other. -/
  | blockMapping
  | blockEnd
  | flowSequence
  | flowSequenceEnd
  | flowMapping
  | flowMappingEnd
  /-- The dash before an item of a block. -/
  | item
  /-- The comma between the items or entries of a flow collection. -/
  | comma
  /-- What follows is a key. -/
  | key
  /-- What follows is the value of a key. -/
  | value
  /-- The node that follows has a name. -/
  | anchor (name : List Char)
  /-- A node that has been given a name. -/
  | reference (name : List Char)
  | tag (mark : TagMark)
  | scalar (style : Style) (text : String)

end TypedCsv.Document
