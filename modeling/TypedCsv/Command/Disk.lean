import TypedCsv.Source
import TypedCsv.Text.Split

/-! # Files

A `Disk` is what a command sees of the files around it: the entries of some paths, and the
directories that hold them.

* `Disk.find`: what is at a path, or why nothing can be found there.
* `Disk.create`: makes an empty file at a path. -/

namespace TypedCsv

namespace IoFault

/-- There is nothing at a path. -/
def missing : IoFault := ⟨"No such file or directory (os error 2)"⟩

/-- A part of a path is no directory. -/
def notDirectory : IoFault := ⟨"Not a directory (os error 20)"⟩

/-- There is a directory where a file is wanted. -/
def isDirectory : IoFault := ⟨"Is a directory (os error 21)"⟩

end IoFault

/-- Where an entry is: the names that lead to it. -/
abbrev Place := List String

/-- The names of a path between its slashes. The root has the name `/`, and a slash at the end
stands before an empty name. -/
def Place.names (path : String) : List String :=
  match (Text.split '/' path.toList).map String.ofList with
  | "" :: name :: names => "/" :: name :: names
  | names => names

/-- What is at a place. -/
inductive Disk.Entry where
  | file (content : List UInt8)
  | directory
  /-- It cannot be opened. -/
  | barred (fault : IoFault)
deriving DecidableEq, Repr

/-- Entries at places; of two at the same place the first one counts. -/
structure Disk where
  entries : List (Place × Disk.Entry)
deriving DecidableEq, Repr

namespace Disk

/-- No entries. -/
def empty : Disk := ⟨[]⟩

/-- Puts an entry at a place. -/
def put (disk : Disk) (place : Place) (entry : Entry) : Disk :=
  ⟨(place, entry) :: disk.entries⟩

/-- Whether a place leads to another one. -/
def leadsTo (place other : Place) : Bool :=
  place.isPrefixOf other && place != other

/-- What is at a place, if anything. The current directory, those above it and the root are
there, and entries further on make a place a directory. -/
def entryAt (disk : Disk) (place : Place) : Option Entry :=
  match disk.entries.lookup place with
  | some entry => some entry
  | none =>
    if place.all (· == "..") || place == ["/"]
        || disk.entries.any fun (other, _) => leadsTo place other then
      some .directory
    else none

/-- The place above a directory; nothing is above the root. -/
def above (place : Place) : Place :=
  if place == ["/"] then place
  else if place.all (· == "..") then place ++ [".."]
  else place.dropLast

/-- The place of a name as seen from another place, which has to be a directory. -/
def enter (disk : Disk) (place : Place) (name : String) : Except IoFault Place :=
  match disk.entryAt place with
  | none => .error .missing
  | some (.file _) => .error .notDirectory
  | some (.barred fault) => .error fault
  | some .directory =>
    if name = "" ∨ name = "." then .ok place
    else if name = ".." then .ok (above place)
    else .ok (place ++ [name])

/-- What is at a path. -/
def find (disk : Disk) (path : String) : Except IoFault Entry := do
  match disk.entryAt (← (Place.names path).foldlM disk.enter []) with
  | none => .error .missing
  | some (.barred fault) => .error fault
  | some entry => .ok entry

/-- The bytes that reading an entry gives; a directory opens, but cannot be read. -/
def Entry.source : Entry → Source
  | file content => Source.ofBytes content
  | directory => ⟨[], .failure .isDirectory⟩
  | barred fault => ⟨[], .failure fault⟩

/-- Makes an empty file at a path, in place of the file that is there: its place and the disk
after it. -/
def create (disk : Disk) (path : String) : Except IoFault (Place × Disk) := do
  let names := Place.names path
  let directory ← names.dropLast.foldlM disk.enter []
  let name := names.getLastD ""
  -- a slash at the end asks for a directory
  if name = "" then .error .isDirectory
  else
    let place ← disk.enter directory name
    match disk.entryAt place with
    | some .directory => .error .isDirectory
    | some (.barred fault) => .error fault
    | _ => .ok (place, disk.put place (.file []))

end Disk

end TypedCsv
