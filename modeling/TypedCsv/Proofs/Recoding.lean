import Mathlib
import TypedCsv.Encoder
import TypedCsv.Proofs.Decoder
import TypedCsv.Proofs.Framing.PlainWriter
import TypedCsv.Proofs.Typing

/-! # Decoded rows can be encoded

The columns of a projection have no members of members if the columns of the table have none
(`Projection.checkFlat_of_resolve`), so every output takes them; and a row that fits them is
refused only for cells that would need an escape (`Encoder.Writer.append_of_admits`). -/

namespace TypedCsv

/-- A table is flat if each of its columns is. -/
theorem Dialect.checkFlat_eq_ok_iff {rowType : RowType} {u : Unit} :
    checkFlat rowType = .ok u ↔ ∀ field ∈ rowType, isFlat field.type = true := by
  unfold checkFlat
  split
  · next h => simpa using h
  · next field h =>
    have hfound := List.find?_some h
    constructor
    · intro hok
      cases hok
    · intro hall
      rw [hall field (List.mem_of_find?_eq_some h)] at hfound
      cases hfound

/-- A scalar column is flat. -/
theorem Dialect.isFlat_of_isComposite_eq_false {type : DataType}
    (h : type.isComposite = false) : isFlat type = true := by
  cases type <;> first | rfl | cases h

namespace Projection

variable {rowType : RowType}

/-- A selected column is a column of the table or a member of one. -/
theorem isFlat_of_resolvePath {path : List Nat} {column : Column}
    (hflat : ∀ field ∈ rowType, Dialect.isFlat field.type = true)
    (h : resolvePath rowType path = .ok column) : Dialect.isFlat column.field.type = true := by
  unfold resolvePath at h
  split at h
  · cases h
  split at h
  · cases h
  next top htop =>
  have hmem := hflat top (List.mem_of_getElem? htop)
  split at h
  · -- the column as a whole
    cases h
    exact hmem
  · -- a member of a nested row, which is a scalar
    split at h
    · next members htype =>
      split at h
      · cases h
      next inner hinner =>
      cases h
      rw [htype] at hmem
      have hscalar : inner.type.isComposite = false := by
        simpa using List.all_eq_true.1 hmem inner (List.mem_of_getElem? hinner)
      exact Dialect.isFlat_of_isComposite_eq_false hscalar
    · cases h
  · cases h

/-- The columns selected from a flat table make a flat table. -/
theorem checkFlat_of_resolve {projection : Projection} {columns : List Column}
    (hflat : Dialect.checkFlat rowType = .ok ()) (h : projection.resolve rowType = .ok columns) :
    Dialect.checkFlat (columns.map Column.field) = .ok () := by
  rw [Dialect.checkFlat_eq_ok_iff] at hflat ⊢
  rw [resolve, Except.mapM_eq_ok_iff] at h
  generalize projection.paths = paths at h
  induction h with
  | nil => simp
  | cons hpath _ ih =>
    rw [List.map_cons, List.forall_mem_cons]
    exact ⟨isFlat_of_resolvePath hflat hpath, ih⟩

end Projection

namespace Encoder

/-- An encoder is the dialect of its options with the columns of its table. -/
theorem compile_eq_ok_iff {rowType : RowType} {options : Options} {e : Encoder} :
    compile rowType options = .ok e ↔
      Dialect.compile rowType options = .ok e.dialect ∧ e.rowType = rowType := by
  rw [compile, Except.bind_eq_ok_iff]
  simp only [Except.mapError_eq_ok_iff]
  constructor
  · rintro ⟨d, hd, h⟩
    cases h
    exact ⟨hd, rfl⟩
  · rintro ⟨hd, rfl⟩
    exact ⟨e.dialect, hd, rfl⟩

/-- With a quote or an escape every record has a form. -/
theorem frame_isOk {d : Dialect} (h : d.quote.isSome ∨ d.escape.isSome) (cells : List String) :
    ∃ bytes, frame d cells = .ok bytes := by
  rw [frame]
  by_cases hquote : d.quote.isSome = true
  · exact ⟨_, if_pos hquote⟩
  · rw [if_neg hquote]
    have hok := Framing.Plain.write_isOk (h.resolve_left hquote) cells
    cases hwrite : Framing.Plain.write d cells with
    | error fault =>
      rw [hwrite] at hok
      cases hok
    | ok bytes => exact ⟨bytes, rfl⟩

/-- With a quote or an escape a row is written if it fits the columns. -/
theorem Writer.append_of_admits {w : Writer} {row : Row}
    (hframe : w.encoder.dialect.quote.isSome ∨ w.encoder.dialect.escape.isSome)
    (h : w.encoder.rowType.Admits row) : ∃ after, w.append row = .ok after := by
  obtain ⟨cells, hcells⟩ := (CellWriter.write_isOk_iff (d := w.encoder.dialect)).2 h
  obtain ⟨bytes, hbytes⟩ := frame_isOk hframe cells
  have hrow : w.encoder.encodeRow row = .ok bytes := by
    rw [encodeRow, hcells]
    exact hbytes
  exact ⟨_, by rw [append, hrow]; rfl⟩

end Encoder

namespace Decoder

variable {rowType : RowType} {options : Options} {projection : Option Projection}
  {policy : Policy} {d : Decoder}

/-- The parts of a decoder that was made. -/
theorem of_compile (h : compile rowType options projection policy = .ok d) :
    Dialect.compile rowType options = .ok d.dialect ∧ d.width = rowType.length ∧
      CellReader.ofProjection d.dialect rowType projection policy = .ok d.cells := by
  simp only [compile, Except.bind_eq_ok_iff, Except.mapError_eq_ok_iff] at h
  obtain ⟨dialect, hdialect, cells, hcells, hd⟩ := h
  cases hd
  exact ⟨hdialect, rfl, hcells⟩

/-- Decoded rows have columns that every output takes. -/
theorem checkFlat_rowType (h : compile rowType options projection policy = .ok d) :
    Dialect.checkFlat d.rowType = .ok () := by
  obtain ⟨hdialect, -, hcells⟩ := of_compile h
  obtain ⟨columns, hcolumns, hd⟩ := Except.bind_eq_ok_iff.1 hcells
  have hfields : d.rowType = columns.map Projection.Column.field := by
    rw [Decoder.rowType, ← Except.ok.inj hd]
    rfl
  rw [hfields]
  exact Projection.checkFlat_of_resolve (Dialect.compile_eq_ok_iff.1 hdialect).1 hcolumns

/-- A table with a nested row. -/
def placesType : RowType :=
  [⟨"id", .integer, false⟩,
    ⟨"place", .row [⟨"name", .string, false⟩, ⟨"height", .decimal, false⟩], true⟩]

/-- Reads the heights and the identifiers of such a table, heights that are no numbers as null. -/
def heights : Decoder :=
  let dialect : Dialect := ⟨Dialect.comma, some Dialect.doubleQuote, none, none, ";", none⟩
  ⟨dialect, 2, dialect,
    [⟨1, some ⟨1, 2⟩, ⟨"place_height", .decimal, true⟩⟩, ⟨0, none, ⟨"id", .integer, false⟩⟩],
    .lenient⟩

/-- **Decoded rows fit their columns and can be encoded.** A row that is read from a record fits
the selected columns. So every output whose options are sound takes these columns, and takes every
row that is decoded, unless its dialect has neither quotes nor an escape. -/
theorem decoded_rows_fit_and_encode (h : compile rowType options projection policy = .ok d) :
    (∀ record row, d.cells.read record = .ok row → d.rowType.Admits row) ∧
      ∀ (own : RowType) (output : Options) (dialect : Dialect),
        Dialect.compile own output = .ok dialect →
        Encoder.compile d.rowType output = .ok ⟨dialect, d.rowType⟩ ∧
        (dialect.quote.isSome ∨ dialect.escape.isSome →
          ∀ (source : Source) (row : Row) (skipped : Nat),
            (.ok row, skipped) ∈ (d.rows source).items.1 →
            ∀ w : Encoder.Writer, w.encoder = ⟨dialect, d.rowType⟩ →
              ∃ after, w.append row = .ok after) := by
  constructor
  · intro record row hread
    exact CellReader.admits_of_read hread
  · intro own output dialect hown
    have hempty := (Dialect.compile_eq_ok_iff.1 hown).2
    constructor
    · rw [Encoder.compile_eq_ok_iff]
      exact ⟨Dialect.compile_eq_ok_iff.2 ⟨checkFlat_rowType h, hempty⟩, rfl⟩
    · intro hframe source row skipped hmem w hw
      obtain ⟨record, hread⟩ := Rows.exists_read_of_mem_items hmem
      apply Encoder.Writer.append_of_admits
      · rw [hw]
        exact hframe
      · rw [hw]
        exact CellReader.admits_of_read hread

/-- A member that is no number is null in the column of its own, and the columns can be written
without quotes. -/
theorem decoded_rows_fit_and_encode_heights :
    heights.rowType.Admits [none, some (.integer 7)] ∧
      Encoder.compile heights.rowType { Options.default with quotingDisabled := true } =
        .ok ⟨⟨Dialect.comma, none, none, none, ";", none⟩, heights.rowType⟩ := by
  have hcompile : compile placesType Options.default (some ⟨[[1, 1], [0]]⟩) .lenient =
      .ok heights := by rfl
  obtain ⟨hfit, hencode⟩ := decoded_rows_fit_and_encode hcompile
  have hread : heights.cells.read ["7", "Oslo;high"] = .ok [none, some (.integer 7)] := by cbv
  exact ⟨hfit _ _ hread, (hencode [] _ _ rfl).1⟩

end Decoder

end TypedCsv
