import TypedCsv.Dialect

/-! # Packed cells

The members of an array or a nested row share a cell: their texts stand one after the other with
a delimiter between them. Inside a member the escape protects the delimiter and itself, and the
first character of a member whose text is that of null.

* `Packing.pack`: the cell of some members.
* `Packing.unpack`: the members of a cell. -/

namespace TypedCsv

/-- How members share a cell. -/
structure Packing where
  /-- The text between two members. -/
  delimiter : List Char
  /-- The character that takes the meaning from the next one. -/
  escape : Char
  /-- The text of a null member. -/
  nullToken : List Char
deriving DecidableEq, Repr

/-- The packing of a dialect. -/
def Dialect.packing (d : Dialect) : Packing :=
  ⟨d.elementDelimiter.toList, d.elementEscape, d.nullToken.toList⟩

namespace Packing

/-- A member: its text, or null. -/
abbrev Member := Option (List Char)

/-! ## Packing -/

/-- Whether a delimiter would be found at the start of `text`, the rest of a member, once a
delimiter follows it. -/
def delimiterStarts (p : Packing) (text : List Char) : Bool :=
  p.delimiter.isPrefixOf (text.take p.delimiter.length ++ p.delimiter)

/-- The text of a member with an escape before each escape and each start of a delimiter. -/
def protect (p : Packing) : List Char → List Char
  | [] => []
  | c :: rest =>
    if c = p.escape ∨ p.delimiterStarts (c :: rest) then p.escape :: c :: p.protect rest
    else c :: p.protect rest

/-- The form of a text inside a cell. A form that reads as null gets an escape in front. -/
def packText (p : Packing) (text : List Char) : List Char :=
  let body := p.protect text
  if p.nullToken ≠ [] ∧ body = p.nullToken then p.escape :: body else body

/-- The form of a member inside a cell. -/
def packMember (p : Packing) : Member → List Char
  | some text => p.packText text
  | none => p.nullToken

/-- The cell of some members. -/
def pack (p : Packing) (members : List Member) : List Char :=
  p.delimiter.intercalate (members.map p.packMember)

/-! ## Unpacking -/

/-- The member of a part of a cell, given as it stands and with its escapes resolved. -/
def member (p : Packing) (raw text : List Char) : Member :=
  if raw = p.nullToken then none else some text

/-- The parts of a cell: the first one as it stands and with its escapes resolved, then the
members after it. An escape at the end of the cell is dropped. -/
def unpackFrom (p : Packing) : List Char → (List Char × List Char) × List Member
  | [] => (([], []), [])
  | c :: rest =>
    -- the character after an escape is literal
    if c = p.escape then
      match rest with
      | [] => (([c], []), [])
      | next :: rest =>
        let ((raw, text), members) := p.unpackFrom rest
        ((c :: next :: raw, next :: text), members)
    else if p.delimiter.isPrefixOf (c :: rest) then
      let ((raw, text), members) := p.unpackFrom (rest.drop (p.delimiter.length - 1))
      (([], []), p.member raw text :: members)
    else
      let ((raw, text), members) := p.unpackFrom rest
      ((c :: raw, c :: text), members)
termination_by cell => cell.length
decreasing_by all_goals simp_wf; try omega

/-- The members of a cell; there is at least one. -/
def unpack (p : Packing) (cell : List Char) : List Member :=
  let ((raw, text), members) := p.unpackFrom cell
  p.member raw text :: members

end Packing

end TypedCsv
