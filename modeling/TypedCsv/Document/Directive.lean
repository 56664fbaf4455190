import TypedCsv.Number.Digits
import TypedCsv.Document.Tag

/-! # Directives

A document may start with directives, one on a line: the version of the format that it is written
in, and handles of tags.

* `Directive.read`: reads a directive after its percent sign.
* `Directive.handles?`: what the handles of a document with some directives stand for. -/

namespace TypedCsv.Document

/-- A line that tells how to read a document. -/
inductive Directive where
  | version (major minor : Nat)
  | handle (name : List Char) (stem : List UInt8)

namespace Directive

/-- The most digits of a part of a version. -/
def versionWidth : Nat := 9

/-- Reads a part of a version. -/
def versionPart? (text : PlacedText) : Option (Nat × PlacedText) :=
  let digits : PlacedText := text.takeWhile (Digits.isDigit ·.char)
  if digits.isEmpty || versionWidth < digits.length then none
  else some (Digits.value digits.chars, text.drop digits.length)

/-- Reads a version: two parts with a point between them. -/
def version? (text : PlacedText) : Option (Directive × PlacedText) := do
  let (major, rest) ← versionPart? text
  if PlacedText.startsWith '.' rest then
    let (minor, rest) ← versionPart? (rest.drop 1)
    return (version major minor, rest)
  else none

/-- Reads a handle: one exclamation mark, or a word between two of them. -/
def handleName? (text : PlacedText) : Option (List Char × PlacedText) :=
  if text.startsWith '!' then
    let word : PlacedText := (text.drop 1).takeWhile (isWordChar ·.char)
    let rest : PlacedText := text.drop (word.length + 1)
    if rest.startsWith '!' then some ('!' :: word.chars ++ ['!'], rest.drop 1)
    else if word.isEmpty then some (['!'], rest)
    else none
  else none

/-- Reads a handle and what it stands for. -/
def handle? (text : PlacedText) : Option (Directive × PlacedText) := do
  let (name, rest) ← handleName? text
  if rest.head?.any (isBlank ·.char) then
    let (stem, rest) ← someOctets? true rest.skipBlanks
    if rest.startsGap then some (handle name stem, rest) else none
  else none

/-- Reads a directive after its percent sign, with the end of its line. -/
def read (text : PlacedText) : Option (Directive × PlacedText) := do
  let word : PlacedText := text.takeWhile (isWordChar ·.char)
  let rest : PlacedText := text.drop word.length
  if ! rest.startsGap then none
  else
    let (directive, rest) ←
      if word.chars = "YAML".toList then version? rest.skipBlanks
      else if word.chars = "TAG".toList then handle? rest.skipBlanks
      else none
    return (directive, ← rest.skipLine)

/-- The handles of a document with the given directives. It has one version at most, which is 1.1
or 1.2, and gives a meaning to no handle twice. -/
def handles? (directives : List Directive) : Option TagHandles := do
  let versions := directives.filterMap fun
    | version major minor => some (major, minor)
    | handle _ _ => none
  let given := directives.filterMap fun
    | version _ _ => none
    | handle name stem => some (name, stem)
  let names := given.map Prod.fst
  if versions.length ≤ 1 && versions.all (fun v => v == (1, 1) || v == (1, 2))
      && names.eraseDups.length == names.length then
    return given ++ TagHandles.default
  else none

end Directive

end TypedCsv.Document
