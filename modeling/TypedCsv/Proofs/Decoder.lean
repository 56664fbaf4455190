import TypedCsv.Decoder
import TypedCsv.Proofs.Framing.Record
import TypedCsv.Proofs.Steps

/-! # The rows of an input

Every row that is decoded was read from one record (`Rows.exists_read_of_mem_items`). If all
outcomes of an input are converted to rows, these rows are what is decoded
(`Rows.items_of_forall₂`), under either policy; under the strict one rows alone come from nothing
else (`Rows.forall₂_of_items`). -/

namespace TypedCsv.Decoder

variable {d : Decoder}

/-- Only a record that is read makes a row. -/
theorem exists_read_of_convert {outcome : Framing.Outcome} {row : Row}
    (h : d.convert outcome = .row row) :
    ∃ line cells, outcome = .record line cells ∧ cells.length ≤ d.width ∧
      d.cells.read cells = .ok row := by
  cases outcome with
  | record line cells =>
    rw [convert] at h
    split at h
    · cases h
    · next hwidth =>
      split at h
      · next row' hread =>
        cases h
        exact ⟨line, cells, rfl, by omega, hread⟩
      · cases h
  | malformed line fault => cases h
  | failed fault => cases h
  | finished => cases h

/-- A record that is not too wide and whose cells can be read is converted to its row. -/
theorem convert_record {line : Nat} {cells : List String} {row : Row}
    (hwidth : cells.length ≤ d.width) (h : d.cells.read cells = .ok row) :
    d.convert (.record line cells) = .row row := by
  rw [convert, if_neg (by omega), h]

/-- Records that are not too wide are converted to the rows that are read from them. -/
theorem forall₂_convert_written_iff {frame : List String → List UInt8} {line : Nat}
    {records : List (List String)} {rows : List Row}
    (hwidth : ∀ cells ∈ records, cells.length ≤ d.width) :
    List.Forall₂ (fun outcome row => d.convert outcome = .row row)
        (Framing.written frame line records) rows ↔
      List.Forall₂ (fun cells row => d.cells.read cells = .ok row) records rows := by
  induction records generalizing line rows with
  | nil => simp
  | cons cells records ih =>
    rw [List.forall_mem_cons] at hwidth
    rw [Framing.written_cons]
    cases rows with
    | nil => simp
    | cons row rows =>
      rw [List.forall₂_cons, List.forall₂_cons, ih hwidth.2]
      apply and_congr_left
      intro _
      constructor
      · intro h
        obtain ⟨_, _, houtcome, -, hread⟩ := exists_read_of_convert h
        cases houtcome
        exact hread
      · exact convert_record hwidth.1

namespace Rows

variable {s : Rows}

/-- The rows that are still to come are decoded by the same decoder. -/
theorem decoder_next (s : Rows) : s.next.2.decoder = s.decoder := by
  fun_induction next s <;> simp_all

/-- A row that comes next was read from a record. -/
theorem exists_read_of_next {row : Row} (h : s.next.1 = some (.ok row)) :
    ∃ record, s.decoder.cells.read record = .ok row := by
  fun_induction next s with
  | case1 s hf => cases h
  | case2 s hf row' hc =>
    cases h
    obtain ⟨line, cells, -, -, hread⟩ := exists_read_of_convert hc
    exact ⟨cells, hread⟩
  | case3 s hf error hc hp ih =>
    -- a record is skipped, and the row comes from a later one
    exact ih h
  | case4 s hf => cases h
  | case5 s hf => cases h
  | case6 s hf => cases h

/-- Every row that is decoded was read from a record. -/
theorem exists_read_of_mem_items {row : Row} {skipped : Nat}
    (h : (.ok row, skipped) ∈ s.items.1) : ∃ record, s.decoder.cells.read record = .ok row := by
  fun_induction items s with
  | case1 s hn => cases h
  | case2 s item hn rest after hrest ih =>
    rw [hrest] at ih
    rcases List.mem_cons.1 h with h | h
    · cases h
      exact exists_read_of_next hn
    · rw [← decoder_next s]
      exact ih h

/-! ### One step -/

/-- A call that meets a row gives it and moves on to the next record. -/
theorem next_of_row (hf : s.finished = false) {row : Row}
    (h : s.decoder.convert s.records.next.1 = .row row) :
    s.next = (some (.ok row), { s with records := s.records.next.2 }) := by
  rw [next.eq_def, if_neg (by simp [hf])]
  split <;> simp_all

/-- A call at the end of the records finishes the rows. -/
theorem next_of_finished (hf : s.finished = false) (h : s.records.next.1 = .finished) :
    s.next = (none, { s with records := s.records.next.2, finished := true }) := by
  rw [next.eq_def, if_neg (by simp [hf])]
  split <;> simp_all [convert]

/-- Under the strict policy a row or the end comes from nothing else. -/
theorem convert_of_next (hf : s.finished = false) (hp : s.decoder.policy = .strict)
    (item : Option Row) (h : s.next.1 = item.map .ok) :
    s.decoder.convert s.records.next.1 = (item.map Conversion.row).getD .finished := by
  rw [next.eq_def, if_neg (by simp [hf])] at h
  split at h
  · next hc =>
    cases item with
    | none => cases h
    | some row =>
      cases h
      exact hc
  · next hc =>
    rw [if_neg (by simp [hp])] at h
    cases item <;> cases h
  · cases item <;> cases h
  · next hc =>
    cases item with
    | none => exact hc
    | some row => cases h

/-- Only the end of the records is converted to the end of the rows. -/
theorem eq_finished_of_convert {outcome : Framing.Outcome} (h : d.convert outcome = .finished) :
    outcome = .finished := by
  cases outcome with
  | record line cells =>
    rw [convert] at h
    split at h
    · cases h
    · split at h <;> cases h
  | malformed line fault => cases h
  | failed fault => cases h
  | finished => rfl

/-- There are no items where a call gives none. -/
theorem items_of_next_none (h : s.next.1 = none) : s.items = ([], s.next.2) := by
  rw [items.eq_def]
  split
  · rfl
  · next hsome => rw [h] at hsome; cases hsome

/-- The first item is the one that a call gives; the others are those behind the call. -/
theorem items_of_next_some {item : Except Error Row} (h : s.next.1 = some item) :
    s.items = ((item, s.next.2.skipped) :: s.next.2.items.1, s.next.2.items.2) := by
  rw [items.eq_def]
  split
  · next hnone => rw [h] at hnone; cases hnone
  · next hsome =>
    rw [h] at hsome
    cases hsome
    rfl

/-! ### Whole inputs -/

/-- Outcomes that are all converted to rows are decoded as these rows; nothing is skipped. -/
theorem items_of_forall₂ (hf : s.finished = false) {rows : List Row}
    (h : List.Forall₂ (fun outcome row => s.decoder.convert outcome = .row row)
      s.records.outcomes rows) :
    s.items.1 = rows.map (fun row => (.ok row, s.skipped)) ∧ s.items.2.skipped = s.skipped := by
  induction rows generalizing s with
  | nil =>
    have hnext := Framing.Reader.next_of_outcomes_eq_nil (List.forall₂_nil_right_iff.1 h)
    have hs := next_of_finished hf hnext
    rw [items_of_next_none (by rw [hs]), hs]
    exact ⟨rfl, rfl⟩
  | cons row rows ih =>
    obtain ⟨outcome, outcomes, hrow, hrows, houtcomes⟩ := List.forall₂_cons_right_iff.1 h
    obtain ⟨line, cells, rfl, -⟩ := exists_read_of_convert hrow
    obtain ⟨hrecord, hrest⟩ := Framing.Reader.next_of_outcomes_eq_record houtcomes
    have hs := next_of_row hf (hrecord ▸ hrow)
    have hsecond : s.next.2 = { s with records := s.records.next.2 } := by rw [hs]
    rw [items_of_next_some (by rw [hs]), hsecond]
    have := ih (s := { s with records := s.records.next.2 }) hf (hrest ▸ hrows)
    rw [this.1, this.2]
    exact ⟨rfl, rfl⟩

/-- Under the strict policy nothing but rows is decoded only if all outcomes are converted to
rows. -/
theorem forall₂_of_items (hf : s.finished = false) (hp : s.decoder.policy = .strict)
    {rows : List Row} {skipped : Nat}
    (h : s.items.1 = rows.map fun row => (.ok row, skipped)) :
    List.Forall₂ (fun outcome row => s.decoder.convert outcome = .row row)
      s.records.outcomes rows := by
  induction rows generalizing s with
  | nil =>
    cases hn : s.next.1 with
    | some item =>
      rw [items_of_next_some hn] at h
      cases h
    | none =>
      have hc := convert_of_next hf hp none hn
      rw [Framing.Reader.outcomes_of_finished (eq_finished_of_convert hc)]
      exact .nil
  | cons row rows ih =>
    cases hn : s.next.1 with
    | none =>
      rw [items_of_next_none hn] at h
      cases h
    | some item =>
      rw [items_of_next_some hn, List.map_cons, List.cons.injEq] at h
      obtain ⟨hitem, hrest⟩ := h
      obtain rfl : item = .ok row := congrArg Prod.fst hitem
      have hc := convert_of_next hf hp (some row) hn
      obtain ⟨line, cells, hrecord, -⟩ := exists_read_of_convert hc
      have hsecond : s.next.2 = { s with records := s.records.next.2 } := by
        rw [next_of_row hf hc]
      rw [hsecond] at hrest
      rw [Framing.Reader.outcomes_of_record hrecord]
      exact .cons (hrecord ▸ hc) (ih (s := { s with records := s.records.next.2 }) hf hp hrest)

end Rows

end TypedCsv.Decoder
