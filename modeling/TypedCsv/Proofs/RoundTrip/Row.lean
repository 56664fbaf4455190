import TypedCsv.Proofs.RoundTrip.Cell

/-! # Rows are read back

Without a projection every column is read where it was written
(`CellReader.ofProjection_none`), so a row that is written is read back as an equal row exactly if
none of its cells collapses or holds a stray leap second (`CellReader.exists_read_write_iff`). -/

namespace TypedCsv

/-! ## All columns -/

namespace Projection

/-- The columns of a table, each in its own place. -/
def wholeColumns (rowType : RowType) : List Column :=
  rowType.mapIdx fun position field => ⟨position, none, field⟩

/-- The projection of all columns selects each of them in its place. -/
theorem resolve_all (rowType : RowType) :
    (all rowType).resolve rowType = .ok (wholeColumns rowType) := by
  rw [resolve, Except.mapM_eq_ok_iff, List.forall₂_iff_get]
  constructor
  · simp [all, columns, wholeColumns]
  · intro i hpath hcolumn
    have hi : i < rowType.length := by simpa [wholeColumns] using hcolumn
    simp [all, columns, wholeColumns, resolvePath, hi]

end Projection

namespace CellReader

variable {d : Dialect} {rowType : RowType}

/-- The reader of all columns of a table that stops at the first fault. -/
def whole (d : Dialect) (rowType : RowType) : CellReader :=
  ⟨d, Projection.wholeColumns rowType, .strict⟩

/-- Without a projection all columns are read. -/
theorem ofProjection_none (d : Dialect) (rowType : RowType) :
    ofProjection d rowType none .strict = .ok (whole d rowType) := by
  have hresolve := Projection.resolve_all rowType
  rw [ofProjection, Except.bind_eq_ok_iff]
  exact ⟨_, hresolve, rfl⟩

/-- A column takes the text in its place, and the strict policy changes nothing. -/
theorem readCell_whole (d : Dialect) (rowType : RowType) (i : Nat) (field : Field)
    (texts : List String) :
    (whole d rowType).readCell ⟨i, none, field⟩ texts = readToken d field texts[i]? := by
  have hread : readColumn (whole d rowType).dialect ⟨i, none, field⟩ texts =
      readToken d field texts[i]? := rfl
  rw [readCell, hread]
  cases readToken d field texts[i]? with
  | ok cell => rfl
  | error fault => exact if_neg (by simp [whole])

/-- The columns are read one after the other. -/
theorem forall₂_columns_iff {related : Projection.Column → Cell → Prop} {row : Row} :
    List.Forall₂ related (whole d rowType).columns row ↔
      row.length = rowType.length ∧
        ∀ (i : Nat) (hf : i < rowType.length) (hr : i < row.length),
          related ⟨i, none, rowType[i]⟩ row[i] := by
  have hcolumns : (whole d rowType).columns = Projection.wholeColumns rowType := rfl
  rw [List.forall₂_iff_get, hcolumns, Projection.wholeColumns]
  simp only [List.length_mapIdx, List.get_eq_getElem, List.getElem_mapIdx, eq_comm]

/-- A row is read cell by cell, each from the text in its place if there is one. -/
theorem read_whole_eq_ok_iff {texts : List String} {row : Row} :
    (whole d rowType).read texts = .ok row ↔
      row.length = rowType.length ∧
        ∀ (i : Nat) (hf : i < rowType.length) (hr : i < row.length),
          readToken d rowType[i] texts[i]? = .ok row[i] := by
  rw [read, Except.mapM_eq_ok_iff, forall₂_columns_iff]
  simp only [readCell_whole]

/-- A row is read back if each of its cells is. -/
theorem exists_read_whole_iff {texts : List String} {row : Row}
    (htexts : texts.length = rowType.length) (hrow : row.length = rowType.length) :
    (∃ found, (whole d rowType).read texts = .ok found ∧ List.Forall₂ Cell.Same found row) ↔
      ∀ (i : Nat) (hf : i < rowType.length) (ht : i < texts.length) (hr : i < row.length),
        IsReadBack d rowType[i] texts[i] row[i] := by
  rw [read, Except.exists_mapM_eq_ok_forall₂_iff, forall₂_columns_iff]
  simp only [readCell_whole]
  constructor
  · rintro ⟨-, h⟩ i hf ht hr
    have := h i hf hr
    rwa [List.getElem?_eq_getElem ht] at this
  · intro h
    refine ⟨hrow, fun i hf hr => ?_⟩
    rw [List.getElem?_eq_getElem (by omega)]
    exact h i hf (by omega) hr

end CellReader

/-- The texts of a row stand in the places of its cells. -/
theorem CellWriter.write_eq_ok_iff {d : Dialect} {rowType : RowType} {row : Row}
    {texts : List String} :
    write d rowType row = .ok texts ↔
      row.length = rowType.length ∧ texts.length = rowType.length ∧
        ∀ (i : Nat) (hf : i < rowType.length) (ht : i < texts.length) (hr : i < row.length),
          writeCell d rowType[i] row[i] = .ok texts[i] := by
  rw [write]
  by_cases hlength : row.length = rowType.length
  · rw [if_pos hlength, Except.mapM_eq_ok_iff, List.forall₂_iff_get]
    simp only [List.length_zip, hlength, Nat.min_self, List.get_eq_getElem, List.getElem_zip,
      true_and]
    constructor
    · rintro ⟨htexts, h⟩
      exact ⟨htexts.symm, fun i hf ht hr => h i hf ht⟩
    · rintro ⟨htexts, h⟩
      exact ⟨htexts.symm, fun i hf ht => h i hf ht hf⟩
  · rw [if_neg hlength]
    constructor
    · intro h
      cases h
    · intro h
      exact absurd h.1 hlength

namespace CellReader

variable {d : Dialect} {rowType : RowType}

/-- No cell of a row collapses or holds a stray leap second. -/
def Survives (d : Dialect) (rowType : RowType) (row : Row) : Prop :=
  List.Forall₂ (fun cell field => ¬ Collapses d field cell ∧ ¬ cell.HoldsStrayLeap) row rowType

/-- **A row that is written is read back exactly if none of its cells collapses or holds a stray
leap second.** -/
theorem exists_read_write_iff (hwf : d.WellFormed) (ht : d.packing.PlainToken)
    (htypes : ∀ field ∈ rowType, field.type.IsRecoverable) {row : Row} {texts : List String}
    (h : CellWriter.write d rowType row = .ok texts) :
    (∃ found, (whole d rowType).read texts = .ok found ∧ List.Forall₂ Cell.Same found row) ↔
      Survives d rowType row := by
  obtain ⟨hrow, htexts, hcells⟩ := CellWriter.write_eq_ok_iff.1 h
  rw [exists_read_whole_iff htexts hrow, Survives, List.forall₂_iff_get]
  have hcell (i : Nat) (hf : i < rowType.length) (hi : i < texts.length) (hr : i < row.length) :=
    isReadBack_writeCell_iff hwf ht (htypes rowType[i] (List.getElem_mem hf)) (hcells i hf hi hr)
  constructor
  · intro hread
    exact ⟨hrow, fun i hr hf => (hcell i hf (by omega) hr).1 (hread i hf (by omega) hr)⟩
  · rintro ⟨-, hsurvives⟩ i hf hi hr
    exact (hcell i hf hi hr).2 (hsurvives i hr hf)

end CellReader

end TypedCsv
