import TypedCsv.Number.Power
import TypedCsv.Source

/-! # Estimating the number of rows

The number of rows of some files is estimated from their first lines: at most `Sample.cap` lines
over all files are read, and their mean size is set against the size of the files.

* `Sample.take`: sizes the files and reads the lines.
* `Sample.estimate`: the number of rows that a sample leads to.
* `Estimate.ofFiles`: the estimate of some files, unknown if one of them fails. -/

namespace TypedCsv

/-- A file to estimate: its size, and its content once it is opened. -/
structure SampleFile where
  size : Except IoFault Nat
  content : Except IoFault Source

/-- What has been sampled. -/
structure Sample where
  /-- The size of all files. -/
  totalBytes : Nat
  /-- The number of lines read. -/
  rows : Nat
  /-- The size of the lines read, each counted with one byte for its end. -/
  rowBytes : Nat
deriving DecidableEq, Repr

/-- An estimated number of rows. -/
inductive Estimate where
  | rows (count : Nat)
  | unknown
deriving DecidableEq, Repr

/-- The text of an estimate. -/
def Estimate.display : Estimate → String
  | rows count => toString count
  | unknown => "unknown"

namespace Sample

/-- The greatest number of lines that are read. -/
def cap : Nat := 100

/-- The first number that a count of 64 bits cannot hold. -/
def countBound : Nat := 2 ^ 64

/-- The sample before the first file. -/
def empty : Sample := ⟨0, 0, 0⟩

/-- The size of a line without the bytes that end it. -/
def contentSize (line : List UInt8) : Nat :=
  let line := if line.getLast? = some Source.lineFeed then line.dropLast else line
  (if line.getLast? = some Source.carriageReturn then line.dropLast else line).length

/-- Counts one more line. -/
def addLine (s : Sample) (line : List UInt8) : Sample :=
  { s with rows := s.rows + 1, rowBytes := s.rowBytes + (contentSize line + 1) }

/-- Reads lines of an input up to its end or to the cap. -/
def readLines (s : Sample) (source : Source) : Except IoFault Sample :=
  if s.rows < cap then
    match _h : source.readLine with
    | .ended => .ok s
    | .failed fault => .error fault
    | .line line rest => (s.addLine line).readLines rest
  else .ok s
termination_by source.size
decreasing_by exact Source.size_lt_of_readLine _h

/-- Sizes a file, and reads its lines unless the cap has been reached. -/
def addFile (s : Sample) (file : SampleFile) : Except IoFault Sample := do
  let size ← file.size
  -- files after the cap are sized but never opened
  let s := { s with totalBytes := (s.totalBytes + size) % countBound }
  if s.rows < cap then s.readLines (← file.content) else return s

/-- Samples files in order; the first failure is that of the sample. -/
def take (files : List SampleFile) : Except IoFault Sample :=
  files.foldlM addFile empty

/-- The size that the lines of a sample stand for. Below the cap they are all lines, and the size
of the files takes the place of theirs. -/
def effectiveBytes (s : Sample) : Nat :=
  if s.rows < cap then s.totalBytes else s.rowBytes

/-- The number of rows that a sample leads to; it is at most what 64 bits can hold. -/
def estimate (s : Sample) : Estimate :=
  if s.effectiveBytes = 0 then .unknown
  else .rows (min (countBound - 1) (s.totalBytes * min s.rows cap / s.effectiveBytes))

end Sample

/-- The estimate of some files. -/
def Estimate.ofFiles (files : List SampleFile) : Estimate :=
  match Sample.take files with
  | .ok sample => sample.estimate
  | .error _ => .unknown

end TypedCsv
