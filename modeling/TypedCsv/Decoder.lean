import TypedCsv.Error
import TypedCsv.Framing.Reader

/-! # Decoding

A `Decoder` turns the bytes of an input into rows. It is made once and holds nothing of an
input; `Decoder.rows` starts one.

* `Decoder.convert`: what an outcome of the framing comes to.
* `Decoder.Rows.next`: the next row. The strict policy stops at the first error; the lenient one
  skips and counts the records that cannot be read. A failure of the input ends both. -/

namespace TypedCsv

/-- The checked options of an input, its width and the columns to read. -/
structure Decoder where
  dialect : Dialect
  /-- The number of columns of the table. -/
  width : Nat
  cells : CellReader

namespace Decoder

/-- Makes the decoder of a table. -/
def compile (rowType : RowType) (options : Options) (projection : Option Projection)
    (policy : Policy) : Except Error Decoder := do
  let dialect ← (Dialect.compile rowType options).mapError .configuration
  let cells ← (CellReader.ofProjection dialect rowType projection policy).mapError .projection
  return ⟨dialect, rowType.length, cells⟩

/-- The row type of the rows. -/
def rowType (d : Decoder) : RowType :=
  d.cells.rowType

/-- What becomes of records that cannot be read. -/
def policy (d : Decoder) : Policy :=
  d.cells.policy

/-- What an outcome of the framing comes to. -/
inductive Conversion where
  | row (row : Row)
  /-- The record cannot be read. -/
  | rejected (error : Error)
  | failed (fault : IoFault)
  | finished

/-- Converts an outcome. A short record lacks its last cells; a record that is wider than the
table is malformed. -/
def convert (d : Decoder) : Framing.Outcome → Conversion
  | .record line cells =>
    if cells.length > d.width then
      .rejected (.malformed line (.tooWide d.width cells.length))
    else
      match d.cells.read cells with
      | .ok row => .row row
      | .error fault => .rejected (.cell line fault)
  | .malformed line fault => .rejected (.malformed line fault)
  | .failed fault => .failed fault
  | .finished => .finished

/-- The rows of an input that are still to come. -/
structure Rows where
  decoder : Decoder
  records : Framing.Reader
  /-- The number of records skipped so far. -/
  skipped : Nat
  finished : Bool

/-- Starts decoding an input. -/
def rows (d : Decoder) (source : Source) : Rows :=
  ⟨d, Framing.Reader.ofSource d.dialect source, 0, false⟩

namespace Rows

/-- The next row or error, if there is one. -/
def next (s : Rows) : Option (Except Error Row) × Rows :=
  if s.finished then (none, s)
  else
    match _h : s.decoder.convert s.records.next.1 with
    | .row row => (some (.ok row), { s with records := s.records.next.2 })
    -- a record that cannot be read is skipped or ends the rows
    | .rejected error =>
      if s.decoder.policy = .lenient then
        next { s with records := s.records.next.2, skipped := s.skipped + 1 }
      else (some (.error error), { s with records := s.records.next.2, finished := true })
    -- a failure of the input ends them under either policy
    | .failed fault =>
      (some (.error (.io fault)), { s with records := s.records.next.2, finished := true })
    | .finished => (none, { s with records := s.records.next.2, finished := true })
termination_by s.records.remaining
decreasing_by
  exact Framing.Reader.remaining_next_lt fun hf => by simp [hf, convert] at _h

/-- How much there is still to do. -/
def remaining (s : Rows) : Nat :=
  if s.finished then 0 else s.records.remaining + 1

/-- A call that gives an item leaves fewer steps: this is what ends a run over an input. -/
theorem remaining_next_lt {s : Rows} (h : s.next.1.isSome) :
    s.next.2.remaining < s.remaining := by
  fun_induction next s with
  | case1 => simp at h
  | case2 s hf row hc =>
    have := Framing.Reader.remaining_next_lt (r := s.records) fun he => by
      simp [he, convert] at hc
    simp [remaining, hf, this]
  | case3 s hf error hc _ ih =>
    have := Framing.Reader.remaining_next_lt (r := s.records) fun he => by
      simp [he, convert] at hc
    refine Nat.lt_trans (ih h) ?_
    simp [remaining, hf, this]
  | case4 s hf => simp [remaining, hf]
  | case5 s hf => simp [remaining, hf]
  | case6 => simp at h

/-- The items of an input, each with the number of records skipped before it, and the number of
records skipped in all. -/
def items (s : Rows) : List (Except Error Row × Nat) × Rows :=
  match _h : s.next.1 with
  | none => ([], s.next.2)
  | some item =>
    let (rest, after) := s.next.2.items
    ((item, s.next.2.skipped) :: rest, after)
termination_by s.remaining
decreasing_by exact remaining_next_lt (by simp [_h])

end Rows

end Decoder

end TypedCsv
