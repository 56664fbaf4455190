import Mathlib
import TypedCsv.Proofs.Decoding

/-! # The lenient policy refines the strict one

The lenient policy goes on where the strict one stops. A record that the strict policy reads is
read as the same row; of the others it saves those whose faults lie in columns that may be null
(`Decoder.salvage?`), and skips the rest (`Decoder.skips`). Both are said in terms of the strict
reader alone, cell by cell; `Decoder.lenient_refines_strict` compares the two policies on whole
inputs. -/

namespace TypedCsv

namespace CellReader

variable {r : CellReader} {column : Projection.Column} {record : List String}

/-- The same columns under another policy. -/
def withPolicy (r : CellReader) (policy : Policy) : CellReader :=
  { r with policy }

/-- The row of a record with null for each cell that cannot be read. -/
def patched (r : CellReader) (record : List String) : Row :=
  r.columns.map fun column => (r.readCell column record).toOption.join

/-- Whether a column cannot be read and may not be null either. -/
def lacks (r : CellReader) (record : List String) (column : Projection.Column) : Bool :=
  ! column.field.nullable && ! (r.readCell column record).isOk

/-- The strict policy reads a cell as its column does. -/
theorem readCell_strict (hp : r.policy = .strict) :
    r.readCell column record = readColumn r.dialect column record := by
  rw [readCell]
  cases readColumn r.dialect column record with
  | ok cell => rfl
  | error fault => exact if_neg (by simp [hp])

/-- The lenient policy reads a cell as the strict one does, or as null where it may be null. -/
theorem readCell_lenient_eq_ok_iff (hp : r.policy = .strict) (column : Projection.Column)
    (cell : Cell) :
    (r.withPolicy .lenient).readCell column record = .ok cell ↔
      r.lacks record column = false ∧ cell = (r.readCell column record).toOption.join := by
  rw [lacks, readCell_strict hp]
  cases hread : readColumn r.dialect column record with
  | ok found => simp [readCell, withPolicy, hread, eq_comm]
  | error fault =>
    -- only a column that may be null hides the fault
    cases hnull : column.field.nullable <;>
      simp [readCell, withPolicy, hread, hnull, eq_comm]

/-- The lenient policy reads a record exactly if no column that must have a value lacks it, and
then as the strict cells with null for the faults. -/
theorem read_lenient_eq_ok_iff (hp : r.policy = .strict) {row : Row} :
    (r.withPolicy .lenient).read record = .ok row ↔
      (∀ column ∈ r.columns, r.lacks record column = false) ∧ row = r.patched record :=
  Except.mapM_eq_ok_iff_map (readCell_lenient_eq_ok_iff hp)

/-- A record that the strict policy reads is read by the lenient one as the same row. -/
theorem read_lenient_of_read (hp : r.policy = .strict) {row : Row} (h : r.read record = .ok row) :
    (r.withPolicy .lenient).read record = .ok row := by
  rw [read, Except.mapM_eq_ok_iff] at h ⊢
  refine h.imp fun column cell hcell => ?_
  rw [readCell_lenient_eq_ok_iff hp, lacks, hcell]
  simp

end CellReader

namespace Decoder

variable {d : Decoder} {outcome : Framing.Outcome} {outcomes : List Framing.Outcome}
  {skipped : Nat}

/-- The same decoder under another policy. -/
def withPolicy (d : Decoder) (policy : Policy) : Decoder :=
  { d with cells := d.cells.withPolicy policy }

/-- Whether a record has to be skipped: it is malformed or too wide, or a column that may not be
null cannot be read. -/
def skips (d : Decoder) : Framing.Outcome → Bool
  | .record _ cells => d.width < cells.length || d.cells.columns.any (d.cells.lacks cells)
  | .malformed _ _ => true
  | _ => false

/-- The row of a record that need not be skipped. -/
def salvage? (d : Decoder) (outcome : Framing.Outcome) : Option Row :=
  match outcome with
  | .record _ cells => if d.skips outcome then none else some (d.cells.patched cells)
  | _ => none

/-- The policy decides neither whether a decoder can be made nor on what it reads. -/
theorem compile_withPolicy {rowType : RowType} {options : Options}
    {projection : Option Projection} {policy other : Policy}
    (h : compile rowType options projection policy = .ok d) :
    compile rowType options projection other = .ok (d.withPolicy other) := by
  simp only [compile, CellReader.ofProjection, Except.bind_eq_ok_iff,
    Except.mapError_eq_ok_iff] at h ⊢
  obtain ⟨dialect, hdialect, cells, ⟨columns, hcolumns, hcells⟩, hd⟩ := h
  cases hcells
  cases hd
  exact ⟨dialect, hdialect, _, ⟨columns, hcolumns, rfl⟩, rfl⟩

/-- A compiled decoder has the policy that it is compiled with. -/
theorem policy_of_compile {rowType : RowType} {options : Options}
    {projection : Option Projection} {policy : Policy}
    (h : compile rowType options projection policy = .ok d) : d.policy = policy := by
  simp only [compile, CellReader.ofProjection, Except.bind_eq_ok_iff,
    Except.mapError_eq_ok_iff] at h
  obtain ⟨dialect, -, cells, ⟨columns, -, hcells⟩, hd⟩ := h
  cases hcells
  cases hd
  rfl

/-! ## One record -/

/-- A record that the strict policy reads is read by the lenient one as the same row. -/
theorem convert_lenient_of_row (hp : d.policy = .strict) {row : Row}
    (h : d.convert outcome = .row row) : (d.withPolicy .lenient).convert outcome = .row row := by
  obtain ⟨line, cells, rfl, hwidth, hread⟩ := exists_read_of_convert h
  exact convert_record hwidth (CellReader.read_lenient_of_read hp hread)

/-- Nothing is salvaged of a record that has to be skipped. -/
theorem salvage?_of_skips (h : d.skips outcome = true) : d.salvage? outcome = none := by
  cases outcome with
  | record line cells => exact if_pos h
  | _ => rfl

/-- The lenient policy rejects the records that have to be skipped and reads the others. -/
theorem convert_lenient (hp : d.policy = .strict) (h : outcome.isRecord = true) :
    d.skips outcome = true ∧ (∃ error, (d.withPolicy .lenient).convert outcome = .rejected error) ∨
      d.skips outcome = false ∧ ∃ row, d.salvage? outcome = some row ∧
        (d.withPolicy .lenient).convert outcome = .row row := by
  cases outcome with
  | malformed line fault => exact Or.inl ⟨rfl, _, rfl⟩
  | failed fault => cases h
  | finished => cases h
  | record line cells =>
    have hread (row : Row) : (d.cells.withPolicy .lenient).read cells = .ok row ↔
        (∀ column ∈ d.cells.columns, d.cells.lacks cells column = false) ∧
          row = d.cells.patched cells := CellReader.read_lenient_eq_ok_iff hp
    by_cases hwide : d.width < cells.length
    · exact Or.inl ⟨by simp [skips, hwide], _, if_pos hwide⟩
    by_cases hlacks : d.cells.columns.any (d.cells.lacks cells) = true
    · -- no row is read, since some column would need a value
      refine Or.inl ⟨by simp [skips, hlacks], ?_⟩
      cases hc : (d.withPolicy .lenient).cells.read cells with
      | error fault => exact ⟨_, by rw [convert, if_neg (by exact hwide), hc]⟩
      | ok row =>
        obtain ⟨column, hmem, hcolumn⟩ := List.any_eq_true.1 hlacks
        rw [((hread row).1 hc).1 column hmem] at hcolumn
        cases hcolumn
    · have hskips : d.skips (.record line cells) = false := by simp [skips, hwide, hlacks]
      refine Or.inr ⟨hskips, d.cells.patched cells, if_neg (by simp [hskips]), ?_⟩
      exact convert_record (Nat.le_of_not_lt hwide) ((hread _).2 ⟨by simpa using hlacks, rfl⟩)

/-! ## Whole inputs -/

/-- The lenient policy finds at least the rows of the strict one, in the same places. -/
theorem isPrefix_rowsOf_decoded (hp : d.policy = .strict) (outcomes : List Framing.Outcome) :
    rowsOf (d.decoded skipped outcomes).1 <+:
      rowsOf ((d.withPolicy .lenient).decoded skipped outcomes).1 := by
  induction outcomes with
  | nil => exact List.prefix_rfl
  | cons outcome outcomes ih =>
    cases hc : d.convert outcome with
    | row row =>
      rw [decoded_of_row hc, decoded_of_row (convert_lenient_of_row hp hc)]
      exact List.cons_prefix_cons.2 ⟨rfl, ih⟩
    | rejected error =>
      -- the strict policy stops here
      rw [decoded_of_rejected hc, if_neg (by simp [hp])]
      exact List.nil_prefix
    | failed fault =>
      rw [decoded_of_failed hc]
      exact List.nil_prefix
    | finished =>
      rw [decoded_of_finished hc]
      exact List.nil_prefix

/-- Where the strict policy meets no record that it cannot read, the lenient one does the same. -/
theorem decoded_lenient_of_strict (hp : d.policy = .strict)
    (h : ∀ error n, (.error error, n) ∈ (d.decoded skipped outcomes).1 →
      ∃ fault, error = .io fault) :
    (d.withPolicy .lenient).decoded skipped outcomes = d.decoded skipped outcomes := by
  induction outcomes with
  | nil => rfl
  | cons outcome outcomes ih =>
    cases hc : d.convert outcome with
    | row row =>
      rw [decoded_of_row hc] at h
      rw [decoded_of_row hc, decoded_of_row (convert_lenient_of_row hp hc),
        ih fun error n hmem => h error n (List.mem_cons_of_mem _ hmem)]
    | rejected error =>
      -- the error of a record is none of the input
      rw [decoded_of_rejected hc, if_neg (by simp [hp])] at h
      obtain ⟨fault, rfl⟩ := h error skipped List.mem_cons_self
      exact absurd hc (convert_ne_rejected_io outcome fault)
    | failed fault =>
      obtain rfl := eq_failed_of_convert hc
      rfl
    | finished =>
      obtain rfl := Rows.eq_finished_of_convert hc
      rfl

/-- The lenient policy finds the rows that can be saved and counts the records that cannot. -/
theorem decoded_lenient (hp : d.policy = .strict) {records ending : List Framing.Outcome}
    (hrecords : ∀ outcome ∈ records, outcome.isRecord = true)
    (hending : ending = [] ∨ ∃ fault, ending = [.failed fault]) (skipped : Nat) :
    rowsOf ((d.withPolicy .lenient).decoded skipped (records ++ ending)).1 =
        (records ++ ending).filterMap d.salvage? ∧
      ((d.withPolicy .lenient).decoded skipped (records ++ ending)).2 =
        skipped + (records ++ ending).countP d.skips := by
  induction records generalizing skipped with
  | nil =>
    obtain rfl | ⟨fault, rfl⟩ := hending
    · exact ⟨rfl, rfl⟩
    · exact ⟨rfl, rfl⟩
  | cons outcome records ih =>
    obtain ⟨houtcome, hrecords⟩ := List.forall_mem_cons.1 hrecords
    rw [List.cons_append, List.filterMap_cons, List.countP_cons]
    obtain ⟨hskips, error, hc⟩ | ⟨hskips, row, hrow, hc⟩ := convert_lenient hp houtcome
    · -- the record is skipped
      have hpolicy : (d.withPolicy .lenient).policy = .lenient := rfl
      rw [decoded_of_rejected hc, if_pos hpolicy, salvage?_of_skips hskips, if_pos hskips]
      obtain ⟨hfound, htotal⟩ := ih hrecords (skipped + 1)
      exact ⟨hfound, by rw [htotal]; omega⟩
    · rw [decoded_of_row hc, hrow, if_neg (by simp [hskips]), rowsOf_cons_ok]
      obtain ⟨hfound, htotal⟩ := ih hrecords skipped
      exact ⟨by rw [hfound], htotal⟩

/-- A table with a column that may not be null and one that may. -/
def surveyType : RowType :=
  [⟨"id", .integer, false⟩, ⟨"height", .decimal, true⟩]

/-- Reads such a table under the strict policy. -/
def survey : Decoder :=
  let dialect : Dialect := ⟨Dialect.comma, some Dialect.doubleQuote, none, none, ";", none⟩
  ⟨dialect, 2, dialect,
    [⟨0, none, ⟨"id", .integer, false⟩⟩, ⟨1, none, ⟨"height", .decimal, true⟩⟩], .strict⟩

/-- Records without a fault, with faults in either column, with a third cell and with a byte that
is no text, in two pieces, before the input fails. -/
def surveySource : Source :=
  ⟨[Utf8.encode "7,\n8,tall\nno".toList, Utf8.encode "ne,1\n9,,9\n1,".toList ++ [0xFF, 0x0A]],
    .failure ⟨"gone"⟩⟩

section Compiled

variable {rowType : RowType} {options : Options} {projection : Option Projection}
  {strict lenient : Decoder}

/-- **The lenient policy refines the strict one.** The rows that the strict policy finds are the
first ones that the lenient policy finds. If the strict policy ends without an error, or because
the input fails, the lenient one gives the same rows and the same ending and skips nothing. In
general it finds the records that can be saved, as the strict reading of each of their cells with
null for the faults, and skips the malformed ones, those that are too wide and those without a
value in a column that may not be null. -/
theorem lenient_refines_strict
    (hs : compile rowType options projection .strict = .ok strict)
    (hl : compile rowType options projection .lenient = .ok lenient) (source : Source) :
    (strict.rows source).found <+: (lenient.rows source).found ∧
      ((∀ item ∈ (strict.rows source).items.1, item.1.isOk = true) →
        (lenient.rows source).items.1 =
            (strict.rows source).found.map (fun row => (.ok row, 0)) ∧
          (lenient.rows source).items.2.skipped = 0) ∧
      (∀ fault n, (.error (.io fault), n) ∈ (strict.rows source).items.1 →
        (lenient.rows source).items.1 =
            (strict.rows source).found.map (fun row => (.ok row, 0)) ++
              [(.error (.io fault), 0)] ∧
          (lenient.rows source).items.2.skipped = 0) ∧
      (lenient.rows source).found =
        (strict.outcomes source).filterMap strict.salvage? ∧
      (lenient.rows source).items.2.skipped =
        (strict.outcomes source).countP strict.skips := by
  have hp := policy_of_compile hs
  obtain rfl : lenient = strict.withPolicy .lenient :=
    Except.ok.inj (hl.symm.trans (compile_withPolicy hs))
  have hsame : (strict.withPolicy .lenient).outcomes source = strict.outcomes source := rfl
  rw [found_rows, found_rows, items_rows, items_rows, skipped_rows, hsame]
  have hnone := (decoded_strict hp 0 (strict.outcomes source)).1
  obtain ⟨records, last, houtcomes, hrecords, hlast⟩ :=
    Framing.Reader.exists_records (.ofSource strict.dialect source)
  refine ⟨isPrefix_rowsOf_decoded hp _, fun hok => ?_, fun fault n hmem => ?_, ?_⟩
  · rw [decoded_lenient_of_strict hp fun error n hmem => by cases hok _ hmem]
    refine ⟨?_, hnone⟩
    obtain ⟨-, ending, hitems, rfl | ⟨error, rfl⟩⟩ := decoded_strict hp 0 (strict.outcomes source)
    · rwa [List.append_nil] at hitems
    · cases hok (.error error, 0) (by rw [hitems]; exact List.mem_append_right _ List.mem_cons_self)
  · -- the failure of the input is the only error
    have hitems := decoded_strict_of_mem hp hmem
    rw [decoded_lenient_of_strict hp fun error m hother => ?_]
    · exact ⟨hitems, hnone⟩
    · have hlast := List.append_cancel_left (hitems.symm.trans (decoded_strict_of_mem hp hother))
      cases hlast
      exact ⟨fault, rfl⟩
  · have hsaved := decoded_lenient hp hrecords hlast 0
    rw [← houtcomes, Nat.zero_add] at hsaved
    exact hsaved

end Compiled

/-- Of five records before a failure the lenient policy saves two and skips three. -/
theorem lenient_refines_strict_survey :
    (survey.rows surveySource).found <+: ((survey.withPolicy .lenient).rows surveySource).found ∧
      ((survey.withPolicy .lenient).rows surveySource).found =
        [[some (.integer 7), none], [some (.integer 8), none]] ∧
      ((survey.withPolicy .lenient).rows surveySource).items.2.skipped = 3 := by
  have hs : compile surveyType Options.default none .strict = .ok survey := by rfl
  have hl : compile surveyType Options.default none .lenient =
      .ok (survey.withPolicy .lenient) := by rfl
  obtain ⟨hfirst, -, -, hfound, hskipped⟩ := lenient_refines_strict hs hl surveySource
  have houtcomes : survey.outcomes surveySource = [.record 1 ["7", ""], .record 2 ["8", "tall"],
      .record 3 ["none", "1"], .record 4 ["9", "", "9"],
      .malformed 5 (.quotedText ⟨22, 5, 4⟩ 1 0), .failed ⟨"gone"⟩] := by decide +kernel
  rw [houtcomes] at hfound hskipped
  refine ⟨hfirst, hfound.trans ?_, hskipped.trans ?_⟩
  · cbv
  · cbv

end Decoder

end TypedCsv
