import TypedCsv.Framing.Plain
import TypedCsv.Framing.Quoted

/-! # Reading records

A dialect with a quote has the quoted framing, one without has the plain framing.

* `Framing.Reader.next`: the next record of an input in the framing of its dialect.
* `Framing.Reader.outcomes`: all of them up to the end or the failure of the input. -/

namespace TypedCsv.Framing

/-- A reader of records in one of the two framings. -/
inductive Reader where
  | quoted (reader : Quoted.Reader)
  | plain (reader : Plain.Reader)

namespace Reader

/-- The reader of an input in the framing of its dialect. -/
def ofSource (d : Dialect) (source : Source) : Reader :=
  if d.quote.isSome then .quoted (Quoted.Reader.ofSource d source)
  else .plain (Plain.Reader.ofSource d source)

/-- Reads the next record. -/
def next : Reader → Outcome × Reader
  | quoted reader => (reader.next.1, quoted reader.next.2)
  | plain reader => (reader.next.1, plain reader.next.2)

/-- How much a reader has still to do. -/
def remaining : Reader → Nat
  | quoted reader => reader.remaining
  | plain reader => reader.remaining

/-- A call that does not say that the input has ended brings its end nearer. -/
theorem remaining_next_lt {r : Reader} (h : r.next.1 ≠ .finished) :
    r.next.2.remaining < r.remaining := by
  cases r with
  | quoted reader => exact Quoted.Reader.remaining_next_lt h
  | plain reader => exact Plain.Reader.remaining_next_lt h

/-- Everything that is found in an input, up to its end or its failure. -/
def outcomes (r : Reader) : List Outcome :=
  match _h : r.next.1 with
  | .finished => []
  | .failed fault => [.failed fault]
  | .malformed line fault => .malformed line fault :: r.next.2.outcomes
  | .record line cells => .record line cells :: r.next.2.outcomes
termination_by r.remaining
decreasing_by all_goals exact remaining_next_lt (by simp [_h])

end Reader

end TypedCsv.Framing
