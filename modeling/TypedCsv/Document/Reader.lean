import TypedCsv.Document.Layout
import TypedCsv.Document.Tree

/-! # Reading documents

`Document.read?` reads a text as a single document: its characters get places, these make up tokens,
and these make up a tree. -/

namespace TypedCsv.Document

/-- Whether a character may stand in a document. -/
def isAllowed (c : Char) : Bool :=
  let n := c.toNat
  n == 0x09 || n == 0x0A || n == 0x0D || 0x20 ≤ n && n ≤ 0x7E || n == 0x85
    || 0xA0 ≤ n && n ≤ 0xD7FF || 0xE000 ≤ n && n ≤ 0xFFFD || 0x10000 ≤ n

/-- Reads a text as a single document. -/
def read? (text : List Char) : Option Document :=
  if text.all isAllowed then (Layout.tokens? (placed text)).bind ofTokens? else none

end TypedCsv.Document
