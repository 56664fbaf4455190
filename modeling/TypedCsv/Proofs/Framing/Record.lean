import TypedCsv.Framing.Reader
import TypedCsv.Proofs.Text.Utf8

/-! # Records one after the other

`Framing.written` is what a reader should find in records that stand one after the other: each
record with its cells, on the line on which it starts. What a reader finds is what it finds first
and then what it finds from there (`Reader.outcomes_of_ne_finished`). -/

namespace TypedCsv.Framing

/-- The outcomes of records that are framed one after the other, the first one starting on the
given line. -/
def written (frame : List String → List UInt8) (line : Nat) : List (List String) → List Outcome
  | [] => []
  | cells :: records =>
    .record line cells :: written frame (line + (frame cells).count Source.lineFeed) records

/-- Without records there are no outcomes. -/
@[simp] theorem written_nil (frame : List String → List UInt8) (line : Nat) :
    written frame line [] = [] := rfl

/-- A record is found on its line, and the others behind the lines that it takes. -/
theorem written_cons (frame : List String → List UInt8) (line : Nat) (cells : List String)
    (records : List (List String)) :
    written frame line (cells :: records) =
      .record line cells :: written frame (line + (frame cells).count Source.lineFeed) records :=
  rfl

/-- The bytes of cells are read as the cells. -/
theorem decodeCells_map_cellBytes (index : Nat) (cells : List String) :
    decodeCells index (cells.map cellBytes) = .ok cells := by
  induction cells generalizing index with
  | nil => rfl
  | cons cell cells ih =>
    have hcell : Utf8.decode (cellBytes cell) = .ok cell.toList := Utf8.decode_encode cell.toList
    simp only [List.map_cons, decodeCells, hcell, ih, String.ofList_toList]

/-- A cell holds the character of a byte below 128 exactly if its bytes hold the byte. -/
theorem mem_cellBytes_iff {cell : String} {byte : UInt8} (h : byte.toNat < 128) :
    byte ∈ cellBytes cell ↔ Dialect.charOfByte byte ∈ cell.toList :=
  Utf8.mem_encode_iff h

/-- A cell starts with the character of a byte below 128 exactly if its bytes start with the
byte. -/
theorem head?_cellBytes_iff {cell : String} {byte : UInt8} (h : byte.toNat < 128) :
    (cellBytes cell).head? = some byte ↔ cell.toList.head? = some (Dialect.charOfByte byte) :=
  Utf8.head?_encode_iff h

namespace Reader

variable {r : Reader}

/-- A reader at the end of its input has no outcomes. -/
theorem outcomes_of_finished (h : r.next.1 = .finished) : r.outcomes = [] := by
  rw [outcomes.eq_def]
  split <;> simp_all

/-- A record that is found next is the first outcome. -/
theorem outcomes_of_record {line : Nat} {cells : List String}
    (h : r.next.1 = .record line cells) :
    r.outcomes = .record line cells :: r.next.2.outcomes := by
  rw [outcomes.eq_def]
  split <;> simp_all

/-- A reader without outcomes is at the end of its input. -/
theorem next_of_outcomes_eq_nil (h : r.outcomes = []) : r.next.1 = .finished := by
  rw [outcomes.eq_def] at h
  split at h <;> simp_all

/-- The first outcome, if it is a record, is what is found next, and the others are found behind it.
-/
theorem next_of_outcomes_eq_record {line : Nat} {cells : List String} {rest : List Outcome}
    (h : r.outcomes = .record line cells :: rest) :
    r.next.1 = .record line cells ∧ r.next.2.outcomes = rest := by
  rw [outcomes.eq_def] at h
  split at h <;> simp_all

/-! ## After the end -/

/-- A reader whose input has ended or failed finds nothing more. -/
def closed : Reader → Bool
  | quoted reader => reader.closed
  | plain reader => reader.closed

/-- A closed reader has no outcomes. -/
theorem outcomes_of_closed (h : r.closed = true) : r.outcomes = [] := by
  refine outcomes_of_finished ?_
  cases r with
  | quoted reader =>
    have hc : reader.closed = true := h
    simp [Reader.next, Quoted.Reader.next, hc]
  | plain reader =>
    have hc : reader.closed = true := h
    simp [Reader.next, Plain.Reader.next, hc]

/-- After the end of an input and after its failure the reader is closed. -/
theorem closed_next (h : r.next.1 = .finished ∨ ∃ fault, r.next.1 = .failed fault) :
    r.next.2.closed = true := by
  cases r with
  | quoted reader =>
    simp only [Reader.next, Quoted.Reader.next] at h ⊢
    split
    · next hc => exact hc
    · next hc =>
      rw [if_neg hc] at h
      split
      · next hs =>
        -- a record is neither
        rw [hs] at h
        dsimp only [Quoted.Reader.outcome] at h
        split at h <;> simp at h
      · split
        · rfl
        · split <;> rfl
  | plain reader =>
    simp only [Reader.next, Plain.Reader.next] at h ⊢
    split
    · next hc => exact hc
    · next hc =>
      rw [if_neg hc] at h
      split
      · next hs =>
        rw [hs] at h
        dsimp only [Plain.Reader.outcome] at h
        split at h <;> simp at h
      · rfl
      · rfl

/-- Behind the end nothing is found. -/
theorem outcomes_next_of_finished (h : r.next.1 = .finished) : r.next.2.outcomes = [] :=
  outcomes_of_closed (closed_next (Or.inl h))

/-- What is found first and what is found then. -/
theorem outcomes_of_ne_finished (h : r.next.1 ≠ .finished) :
    r.outcomes = r.next.1 :: r.next.2.outcomes := by
  rw [outcomes.eq_def]
  split
  · next hn => exact absurd hn h
  · next fault hn => rw [hn, outcomes_of_closed (closed_next (Or.inr ⟨fault, hn⟩))]
  · next hn => rw [hn]
  · next hn => rw [hn]

/-- Whatever is found next, if it is not the end, is the first outcome. -/
theorem outcomes_of_next {outcome : Outcome} {after : Reader} (h : r.next = (outcome, after))
    (hne : outcome ≠ .finished) : r.outcomes = outcome :: after.outcomes := by
  rw [outcomes_of_ne_finished (by rw [h]; exact hne), h]

end Reader

end TypedCsv.Framing
