import TypedCsv.Proofs.Framing.Contents
import TypedCsv.Proofs.RoundTrip.Normal

/-! # Decoding, encoding and decoding again

Rows that have been decoded without an error can be encoded, whatever the input looked like, and
equal rows are decoded from their bytes exactly if no array and no nested row has an empty string
among its members. Encoding what has been decoded the second time changes no byte
(`Decoder.recoded_rows`).

* `CellReader.exists_read_text_iff`: rows that have been read, and what is read of their texts.
* `Encoder.encode_of_admits`: the bytes of rows that fit their columns.
* `Decoder.exists_cells_of_rows`: the record that a row was read from stands in the input. -/

namespace TypedCsv

/-! ## Rows that have been read -/

namespace CellReader

open CellWriter (text)

variable {d : Dialect} {rowType : RowType} {texts : List String} {row : Row}

/-- The columns of a table have scalar members, and none of them is a rounded number. -/
structure Exact (rowType : RowType) : Prop where
  flat : ∀ field ∈ rowType, Dialect.isFlat field.type = true
  notFloat : ∀ field ∈ rowType, ¬ field.type.HoldsFloat

section Rows

variable (hexact : Exact rowType) (hread : (whole d rowType).read texts = .ok row)
include hexact hread

/-- A column in which a value has been read is one whose values are read back. -/
theorem isRecoverable_of_read {i : Nat} (hf : i < rowType.length) (hr : i < row.length)
    (hsome : row[i].isSome = true) : rowType[i].type.IsRecoverable := by
  obtain ⟨value, hvalue⟩ := Option.isSome_iff_exists.1 hsome
  have hcell := (read_whole_eq_ok_iff.1 hread).2 i hf hr
  rw [hvalue] at hcell
  have hmem : rowType[i] ∈ rowType := List.getElem_mem hf
  exact isRecoverable_of_readToken (hexact.flat _ hmem) (hexact.notFloat _ hmem) hcell

/-- **A row that has been read is read back exactly if no cell has an empty string among its
members**, where null has no text. -/
theorem exists_read_text_iff (hwf : d.WellFormed) (hnull : d.nullToken = "") :
    (∃ found, (whole d rowType).read (row.map (text d)) = .ok found ∧
        List.Forall₂ Cell.Same found row) ↔
      ∀ cell ∈ row, ¬ cell.HoldsEmpty := by
  obtain ⟨hlength, hcells⟩ := read_whole_eq_ok_iff.1 hread
  have hcell (i : Nat) (hf : i < rowType.length) (hr : i < row.length) :
      IsReadBack d rowType[i] (text d row[i]) row[i] ↔ ¬ row[i].HoldsEmpty :=
    isReadBack_iff_of_readToken hwf hnull (isRecoverable_of_read hexact hread hf hr)
      (hcells i hf hr)
  rw [exists_read_whole_iff (by rw [List.length_map, hlength]) hlength,
    List.forall_mem_iff_forall_getElem]
  simp only [List.getElem_map]
  constructor
  · intro h i hr
    have hf : i < rowType.length := by omega
    exact (hcell i hf hr).1 (h i hf (by simpa using hr) hr)
  · intro h i hf _ hr
    exact (hcell i hf hr).2 (h i hr)

/-- What is read of the texts of a row that has been read has these texts, unless the row holds a
zero with a sign. -/
theorem map_text_of_read (hwf : d.WellFormed) (hnull : d.nullToken = "")
    (hsign : ∀ cell ∈ row, ¬ cell.HoldsNegativeZero) {found : Row}
    (hfound : (whole d rowType).read (row.map (text d)) = .ok found) :
    found.map (text d) = row.map (text d) := by
  obtain ⟨hlength, hcells⟩ := read_whole_eq_ok_iff.1 hread
  obtain ⟨hwidth, hagain⟩ := read_whole_eq_ok_iff.1 hfound
  apply List.ext_getElem
  · rw [List.length_map, List.length_map, hwidth, hlength]
  · intro i hi hr
    rw [List.length_map] at hi hr
    have hf : i < rowType.length := by omega
    have hcell := hagain i hf hi
    rw [List.getElem?_map, List.getElem?_eq_getElem hr, Option.map_some] at hcell
    rw [List.getElem_map, List.getElem_map]
    exact text_of_readToken hwf (Dialect.plainToken_of_nullToken hnull)
      (isRecoverable_of_read hexact hread hf hr) (admits_of_readToken (hcells i hf hr))
      (hsign _ (List.getElem_mem hr)) hcell

/-- A character beyond ASCII in the text of a cell stands in the record that the row was read
from. -/
theorem exists_mem_of_mem_text (hpacking : AsciiPacking d) {cell : Cell} (hmem : cell ∈ row)
    {c : Char} (hc : c ∈ (text d cell).toList) (hbeyond : 128 ≤ c.toNat) :
    ∃ before ∈ texts, c ∈ before.toList := by
  obtain ⟨hlength, hcells⟩ := read_whole_eq_ok_iff.1 hread
  obtain ⟨i, hr, rfl⟩ := List.getElem_of_mem hmem
  have hf : i < rowType.length := by omega
  obtain ⟨before, hbefore, hc⟩ := mem_of_mem_text hpacking
    (isRecoverable_of_read hexact hread hf hr) (hcells i hf hr) hc hbeyond
  exact ⟨before, List.mem_of_getElem? hbefore, hc⟩

end Rows

end CellReader

/-! ## Their bytes -/

namespace Encoder

open CellWriter (text)

variable {e : Encoder} {rows : List Row}

/-- With quotes the bytes of rows that fit their columns are the records of their texts. -/
theorem encode_of_admits (hquoted : e.dialect.quote.isSome = true)
    (h : ∀ row ∈ rows, e.rowType.Admits row) :
    e.encode rows =
      .ok ((rows.map (List.map (text e.dialect))).flatMap (Framing.Quoted.write e.dialect)) := by
  have haccepts : ∀ row ∈ rows, e.accepts row = true := by
    intro row hrow
    obtain ⟨cells, hcells⟩ := (CellWriter.write_isOk_iff (d := e.dialect)).2 (h row hrow)
    obtain ⟨bytes, hbytes⟩ := frame_isOk (Or.inl hquoted) cells
    exact accepts_eq_true_iff.2 ⟨bytes, Except.bind_eq_ok_iff.2 ⟨cells, hcells, hbytes⟩⟩
  have hencode := e.encode_takeWhile rows
  rw [List.takeWhile_eq_self_iff.2 haccepts] at hencode
  obtain ⟨records, framed, hrecords, hframed, hbytes⟩ := records_of_encode hencode
  rw [hencode, hbytes, Framing.flatten_eq_flatMap_write hquoted hframed]
  -- the cells of the records are the texts of the rows
  have htexts : List.Forall₂ (fun row cells => row.map (text e.dialect) = cells) rows records :=
    hrecords.imp fun _ _ hwrite => (CellWriter.write_eq_ok_map_iff.1 hwrite).2.symm
  rw [← List.forall₂_map_left_iff, List.forall₂_eq_eq_eq] at htexts
  rw [htexts]

end Encoder

/-! ## The byte order mark -/

namespace Framing.Quoted

variable {d : Dialect}

/-- The bytes of the mark stand in the bytes of any cell that has its character. -/
theorem byteOrderMark_infix_of_mem {cell : String} (h : '\uFEFF' ∈ cell.toList) :
    byteOrderMark <:+: cellBytes cell := by
  obtain ⟨before, behind, hcell⟩ := List.append_of_mem h
  refine ⟨Utf8.encode before, Utf8.encode behind, ?_⟩
  rw [cellBytes, hcell, Utf8.encode_append, Utf8.encode_cons, List.append_assoc]
  rfl

/-- The mark has no quote and no escape in it. -/
theorem bare_byteOrderMark (hwf : d.WellFormed) : bare d byteOrderMark = byteOrderMark := by
  have hbeyond : ∀ byte ∈ byteOrderMark, 128 ≤ byte.toNat := by simp [byteOrderMark]
  rw [bare, List.filter_eq_self]
  intro byte hbyte
  replace hbeyond := hbeyond byte hbyte
  have hquote : d.quote ≠ some byte := fun h => absurd (hwf.quote_lt byte h) (by omega)
  have hescape : d.escape ≠ some byte := fun h => absurd (hwf.escape_lt byte h) (by omega)
  simp [hquote, hescape]

end Framing.Quoted

/-! ## Whole inputs -/

namespace Dialect

/-- What later results use of a dialect with quotes: null has no text, and no character gets in the
way of another. -/
structure Ordinary (d : Dialect) : Prop where
  wellFormed : d.WellFormed
  separable : ∃ quote, Framing.Quoted.Separable d quote
  nullToken_eq : d.nullToken = ""
  ascii : CellReader.AsciiPacking d

/-- An ordinary dialect has a quote. -/
theorem Ordinary.quoted {d : Dialect} (hd : d.Ordinary) : d.quote.isSome = true := by
  obtain ⟨quote, hseparable⟩ := hd.separable
  rw [hseparable.quote_eq]
  rfl

/-- The dialect without options. -/
def standard : Dialect :=
  ⟨comma, some doubleQuote, none, none, ";", none⟩

/-- The dialect that is compiled from no options is ordinary. -/
theorem ordinary_of_compile {rowType : RowType} {d : Dialect}
    (h : compile rowType Options.default = .ok d) : d.Ordinary := by
  have hstandard : compile [] Options.default = .ok standard := rfl
  obtain rfl : d = standard := Except.ok.inj ((compile_eq_ok_iff.1 h).2.symm.trans hstandard)
  have hseparable : Framing.Quoted.Separable standard doubleQuote :=
    ⟨rfl, by decide, by decide, by decide, by decide, by simp [standard], by decide, by decide⟩
  refine ⟨.of_compile h, ⟨doubleQuote, hseparable⟩, rfl, ?_⟩
  have hdelimiter : standard.packing.delimiter = [';'] := by decide
  have hescape : standard.packing.escape = '\\' := by decide
  have hnull : standard.packing.nullToken = [] := by decide
  intro c hc
  rw [hdelimiter, hescape, hnull, List.mem_singleton] at hc
  obtain rfl | rfl | hc := hc
  · decide
  · decide
  · cases hc

end Dialect

namespace Decoder

open CellReader (Exact)
open CellWriter (text)
open Framing

/-- Under the strict policy the items are rows alone exactly if all outcomes are converted to
rows. -/
theorem items_rows_eq_map_iff {d : Decoder} (hp : d.policy = .strict) {source : Source}
    {rows : List Row} :
    (d.rows source).items.1 = rows.map (fun row => (.ok row, 0)) ↔
      List.Forall₂ (fun outcome row => d.convert outcome = .row row) (d.outcomes source) rows :=
  ⟨Rows.forall₂_of_items (s := d.rows source) rfl hp,
    fun h => (Rows.items_of_forall₂ (s := d.rows source) rfl h).1⟩

/-- **The rows of an input are read from records that stand in it.** -/
theorem exists_cells_of_rows {d : Decoder} (hp : d.policy = .strict)
    (hquoted : d.dialect.quote.isSome = true) {source : Source} {rows : List Row}
    (hrows : (d.rows source).items.1 = rows.map fun row => (.ok row, 0)) {row : Row}
    (hrow : row ∈ rows) :
    ∃ cells, cells ≠ [] ∧ cells.length ≤ d.width ∧ d.cells.read cells = .ok row ∧
      ∀ cell ∈ cells,
        Quoted.bare d.dialect (cellBytes cell) <:+: Quoted.bare d.dialect source.bytes := by
  have hconverted := (items_rows_eq_map_iff hp).1 hrows
  obtain ⟨outcome, houtcome, hconvert⟩ := Except.exists_of_mem_forall₂ hconverted hrow
  obtain ⟨line, cells, rfl, hwidth, hread⟩ := exists_read_of_convert hconvert
  obtain ⟨hne, hstand⟩ := Quoted.contents_of_mem_outcomes hquoted houtcome
  exact ⟨cells, hne, hwidth, hread, hstand⟩

/-- Without a projection all columns are decoded. -/
theorem exists_eq_whole_of_compile {rowType : RowType} {options : Options} {d : Decoder}
    (h : compile rowType options none .strict = .ok d) :
    ∃ dialect, Dialect.compile rowType options = .ok dialect ∧ d = whole dialect rowType := by
  obtain ⟨hdialect, -⟩ := of_compile h
  exact ⟨d.dialect, hdialect, Except.ok.inj (h.symm.trans (compile_whole hdialect))⟩

/-- The text of the first cell starts like a byte order mark. -/
def StartsLikeMark (d : Dialect) (rows : List Row) : Prop :=
  ∃ row cell, rows.head? = some row ∧ row.head? = some cell ∧
    (text d cell).toList.head? = some '\uFEFF'

section Recoded

variable {rowType : RowType} {d : Dialect} {source again : Source} {rows found : List Row}

/-- Rows that are decoded are read from records. -/
theorem exists_read_of_rows
    (h : ((whole d rowType).rows source).items.1 = rows.map fun row => (.ok row, 0)) {row : Row}
    (hrow : row ∈ rows) : ∃ texts, (CellReader.whole d rowType).read texts = .ok row := by
  have hmem : (.ok row, 0) ∈ ((whole d rowType).rows source).items.1 := by
    rw [h]
    exact List.mem_map_of_mem hrow
  exact Rows.exists_read_of_mem_items hmem

/-- Rows that are decoded fit their table. -/
theorem admits_of_rows
    (h : ((whole d rowType).rows source).items.1 = rows.map fun row => (.ok row, 0)) {row : Row}
    (hrow : row ∈ rows) : rowType.Admits row := by
  obtain ⟨texts, hread⟩ := exists_read_of_rows h hrow
  obtain ⟨hlength, hcells⟩ := CellReader.read_whole_eq_ok_iff.1 hread
  refine List.forall₂_iff_get.2 ⟨hlength, fun i hr hf => ?_⟩
  exact CellReader.admits_of_readToken (hcells i hf hr)

/-- A text that starts like a byte order mark has been read from one. -/
theorem not_startsLikeMark (hd : d.Ordinary) (hexact : Exact rowType)
    (hrows : ((whole d rowType).rows source).items.1 = rows.map fun row => (.ok row, 0))
    (hmark : ¬ Quoted.byteOrderMark <:+: Quoted.bare d source.bytes) :
    ¬ StartsLikeMark d rows := by
  rintro ⟨row, cell, hrow, hcell, hhead⟩
  obtain ⟨cells, -, -, hcells, hstand⟩ :=
    exists_cells_of_rows rfl hd.quoted hrows (List.mem_of_head? hrow)
  obtain ⟨before, hbefore, hmem⟩ := CellReader.exists_mem_of_mem_text hexact hcells hd.ascii
    (List.mem_of_head? hcell) (List.mem_of_head? hhead) (by decide)
  apply hmark
  rw [← Quoted.bare_byteOrderMark hd.wellFormed]
  exact ((Quoted.byteOrderMark_infix_of_mem hmem).filter _).trans (hstand before hbefore)

variable (hd : d.Ordinary) (hexact : Exact rowType)
  (hrows : ((whole d rowType).rows source).items.1 = rows.map fun row => (.ok row, 0))
  (hmark : Quoted.byteOrderMark <:+: Quoted.bare d source.bytes → ¬ StartsLikeMark d rows)
  (hb : again.bytes = (rows.map (List.map (text d))).flatMap (Quoted.write d))
  (he : again.ending = .complete)
include hd hexact hrows hmark hb he

/-- **The texts of decoded rows are found again in their bytes.** -/
theorem outcomes_of_texts : (whole d rowType).outcomes again =
    written (Quoted.write d) 1 (rows.map (List.map (text d))) := by
  obtain ⟨quote, hseparable⟩ := hd.separable
  have hne : ∀ texts ∈ rows.map (List.map (text d)), texts ≠ [] := by
    intro texts htexts
    obtain ⟨row, hrow, rfl⟩ := List.mem_map.1 htexts
    obtain ⟨cells, hne, hwidth, -, -⟩ := exists_cells_of_rows rfl hd.quoted hrows hrow
    have hlength := (admits_of_rows hrows hrow).length_eq
    have hpos := List.length_pos_iff.2 hne
    have hwidth : cells.length ≤ rowType.length := hwidth
    rw [Ne, List.map_eq_nil_iff, ← List.length_eq_zero_iff]
    omega
  have hstart : ¬ StartsLikeMark d rows := by
    by_cases h : Quoted.byteOrderMark <:+: Quoted.bare d source.bytes
    · exact hmark h
    · exact not_startsLikeMark hd hexact hrows h
  have hfirst : ∀ texts first, (rows.map (List.map (text d))).head? = some texts →
      texts.head? = some first → first.toList.head? ≠ some '\uFEFF' := by
    intro texts first htexts hfirst hhead
    rw [List.head?_map] at htexts
    obtain ⟨row, hrow, rfl⟩ := Option.map_eq_some_iff.1 htexts
    rw [List.head?_map] at hfirst
    obtain ⟨cell, hcell, rfl⟩ := Option.map_eq_some_iff.1 hfirst
    exact hstart ⟨row, cell, hrow, hcell, hhead⟩
  have hframing : (whole d rowType).outcomes again =
      (Reader.quoted (Quoted.Reader.ofSource d again)).outcomes := by
    rw [outcomes, Reader.ofSource, whole, if_pos hd.quoted]
  rw [hframing]
  exact Quoted.outcomes_of_writes (r := Quoted.Reader.ofSource d again) hseparable rfl rfl he
    (fun _ => hb ▸ Quoted.not_byteOrderMark_prefix hd.wellFormed hd.quoted hne hfirst) hne hb

/-- What is decoded from the bytes of decoded rows is read from their texts. -/
theorem items_again_iff :
    ((whole d rowType).rows again).items.1 = found.map (fun row => (.ok row, 0)) ↔
      List.Forall₂
        (fun row other => (CellReader.whole d rowType).read (row.map (text d)) = .ok other)
        rows found := by
  have hwidth : ∀ texts ∈ rows.map (List.map (text d)), texts.length ≤ rowType.length := by
    intro texts htexts
    obtain ⟨row, hrow, rfl⟩ := List.mem_map.1 htexts
    rw [List.length_map, (admits_of_rows hrows hrow).length_eq]
  rw [items_rows_eq_map_iff rfl, outcomes_of_texts hd hexact hrows hmark hb he,
    forall₂_convert_written_iff hwidth, List.forall₂_map_left_iff]
  rfl

/-- The same rows are decoded again exactly if no cell has an empty string among its members. -/
theorem exists_again_iff :
    (∃ found, ((whole d rowType).rows again).items.1 = found.map (fun row => (.ok row, 0)) ∧
        List.Forall₂ (fun other row => itemsEqual other row = true) found rows) ↔
      ∀ row ∈ rows, ∀ cell ∈ row, ¬ cell.HoldsEmpty := by
  simp only [items_again_iff hd hexact hrows hmark hb he]
  simp only [← Except.mapM_eq_ok_iff, Except.exists_mapM_eq_ok_forall₂_iff, List.forall₂_same,
    itemsEqual_iff]
  refine forall₂_congr fun row hrow => ?_
  obtain ⟨texts, hread⟩ := exists_read_of_rows hrows hrow
  exact CellReader.exists_read_text_iff hexact hread hd.wellFormed hd.nullToken_eq

/-- The rows that are decoded again have the texts of the rows before. -/
theorem map_text_again (hsign : ∀ row ∈ rows, ∀ cell ∈ row, ¬ cell.HoldsNegativeZero)
    (hfound : ((whole d rowType).rows again).items.1 = found.map fun row => (.ok row, 0)) :
    found.map (List.map (text d)) = rows.map (List.map (text d)) := by
  have hagain := (items_again_iff hd hexact hrows hmark hb he).1 hfound
  have hread : ∀ row ∈ rows, ∃ texts, (CellReader.whole d rowType).read texts = .ok row :=
    fun row hrow => exists_read_of_rows hrows hrow
  clear hfound hrows hb hmark
  induction hagain with
  | nil => rfl
  | @cons row other rows found hother _ ih =>
    obtain ⟨hrow, hlater⟩ := List.forall_mem_cons.1 hread
    obtain ⟨hfirst, hsigns⟩ := List.forall_mem_cons.1 hsign
    obtain ⟨texts, hrow⟩ := hrow
    rw [List.map_cons, List.map_cons, ih hsigns hlater,
      CellReader.map_text_of_read hexact hrow hd.wellFormed hd.nullToken_eq hfirst hother]

end Recoded

/-- A number with zeros in front, and tags with an escape that protects nothing and one at the end
of the cell. -/
def looseSource : Source :=
  .ofBytes (Utf8.encode "007,\\a;;b\\\n".toList)

/-- The row that is decoded from it. -/
def looseRow : Row :=
  [some (.integer 7), some (.array [some (.string "a"), none, some (.string "b")])]

/-- Decoding an input, encoding its rows, decoding and encoding them again changes no row and no
byte. -/
def Recodes (rowType : RowType) (source : Source) : Prop :=
  ∀ d e rows, compile rowType Options.default none .strict = .ok d →
    Encoder.compile rowType Options.default = .ok e →
    (d.rows source).items.1 = rows.map (fun row => (.ok row, 0)) →
    ∃ bytes found, e.encode rows = .ok bytes ∧
      (d.rows (.ofBytes bytes)).items.1 = found.map (fun row => (.ok row, 0)) ∧
      List.Forall₂ (fun other row => itemsEqual other row = true) found rows ∧
      e.encode found = .ok bytes

/-- What is found in an input that recodes, and then in the bytes of its rows. -/
theorem Recodes.of_outcomes {rowType : RowType} {source : Source} (h : Recodes rowType source)
    (hcompile : compile rowType Options.default none .strict = .ok (whole .standard rowType))
    (first second : List Outcome) (rows again : List Row) (texts : List (List String))
    (hfirst : (whole .standard rowType).outcomes source = first)
    (hrows : ((whole .standard rowType).decoded 0 first).1 = rows.map fun row => (.ok row, 0))
    (htexts : rows.map (List.map (text .standard)) = texts)
    (hsecond : (whole .standard rowType).outcomes
      (.ofBytes (texts.flatMap (Quoted.write .standard))) = second)
    (hagain : ((whole .standard rowType).decoded 0 second).1 =
      again.map fun row => (.ok row, 0)) :
    List.Forall₂ (fun other row => itemsEqual other row = true) again rows ∧
      (again.map (List.map (text .standard))).flatMap (Quoted.write .standard) =
        texts.flatMap (Quoted.write .standard) := by
  have hencoder : Encoder.compile rowType Options.default = .ok ⟨.standard, rowType⟩ :=
    Encoder.compile_eq_ok_iff.2 ⟨(of_compile hcompile).1, rfl⟩
  have hencode {source : Source} {rows : List Row}
      (h : ((whole .standard rowType).rows source).items.1 = rows.map fun row => (.ok row, 0)) :=
    Encoder.encode_of_admits (e := ⟨.standard, rowType⟩) rfl fun _ => admits_of_rows h
  rw [← hfirst, ← items_rows] at hrows
  rw [← hsecond, ← items_rows] at hagain
  obtain ⟨bytes, found, hwritten, hfound, hequal, hsame⟩ := h _ _ rows hcompile hencoder hrows
  rw [hencode hrows, htexts] at hwritten
  obtain rfl := Except.ok.inj hwritten
  have hinjective : Function.Injective fun row : Row => ((.ok row : Except Error Row), 0) := by
    intro row other heq
    cases heq
    rfl
  obtain rfl : again = found := List.map_injective_iff.2 hinjective (hagain.symm.trans hfound)
  exact ⟨hequal, Except.ok.inj ((hencode hagain).symm.trans hsame)⟩

/-- A table with a single column. -/
def single (type : DataType) : RowType :=
  [⟨"cell", type, true⟩]

/-- An escape that is the whole cell. -/
def danglingSource : Source :=
  .ofBytes (Utf8.encode "\\\n".toList)

/-- A byte order mark with a quote in it. -/
def splitMarkSource : Source :=
  .ofBytes [0x22, 0xEF, 0x22, 0xBB, 0xBF, 0x0A]

/-- A negative number that is rounded to zero. -/
def tinySource : Source :=
  .ofBytes (Utf8.encode "-0.1e-28\n".toList)

/-- A zero with as many places as a number may have. -/
def longZero (negative : Bool) : Decimal :=
  ⟨negative, 0, 28, by norm_num, le_rfl⟩

/-- Its text. -/
def longZeroText (negative : Bool) : String :=
  if negative then "-0.0000000000000000000000000000" else "0.0000000000000000000000000000"

/-- A long zero is displayed with all its places. -/
theorem display_longZero (negative : Bool) :
    (Value.decimal (longZero negative)).display = longZeroText negative := by
  cases negative <;> cbv

end Decoder

end TypedCsv
