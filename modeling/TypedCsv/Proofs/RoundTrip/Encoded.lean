import Mathlib
import TypedCsv.Proofs.Appending
import TypedCsv.Proofs.Decoding
import TypedCsv.Proofs.Framing.Quoted
import TypedCsv.Proofs.RoundTrip.Row

/-! # Decoding undoes encoding

What is decoded from encoded rows are equal rows in the same order, exactly if none of their cells
collapses or holds a stray leap second (`Decoder.decode_encode_iff`). Three layers of protection are
taken off one by one: the framing gives back the cells of each record, the packing the members of
each composite, and the texts of scalars their values. -/

namespace TypedCsv

/-! ## What has been encoded -/

namespace Encoder

/-- Rows that are all written add a record each. -/
theorem Writer.records_of_appendAll {w after : Writer} {rows : List Row}
    (h : w.appendAll rows = (after, none)) :
    ∃ framed, List.Forall₂ (fun row bytes => w.encoder.encodeRow row = .ok bytes) rows framed ∧
      after.records = framed.reverse ++ w.records := by
  induction rows generalizing w with
  | nil =>
    cases h
    exact ⟨[], .nil, rfl⟩
  | cons row rows ih =>
    rw [appendAll] at h
    split at h
    · next next hnext =>
      obtain ⟨record, hrecord, heq⟩ := Except.bind_eq_ok_iff.1 hnext
      cases heq
      obtain ⟨framed, hframed, hrecords⟩ := ih h
      refine ⟨record :: framed, .cons hrecord hframed, ?_⟩
      rw [hrecords, List.reverse_cons, List.append_assoc, List.singleton_append]
    · cases h

/-- The bytes of encoded rows are the framed texts of the rows, one record after the other. -/
theorem records_of_encode {e : Encoder} {rows : List Row} {bytes : List UInt8}
    (h : e.encode rows = .ok bytes) :
    ∃ records framed,
      List.Forall₂ (fun row cells => CellWriter.write e.dialect e.rowType row = .ok cells)
        rows records ∧
      List.Forall₂ (fun cells record => frame e.dialect cells = .ok record) records framed ∧
      bytes = framed.flatten := by
  rw [encode] at h
  split at h
  · next after hall =>
    cases h
    obtain ⟨framed, hframed, hrecords⟩ := Writer.records_of_appendAll hall
    have hencoder : e.writer.encoder = e := rfl
    rw [hencoder] at hframed
    have hbytes : after.bytes = framed.flatten := by
      rw [Writer.bytes, hrecords, writer, List.append_nil, List.reverse_reverse]
    rw [hbytes]
    clear hall hrecords hbytes
    induction hframed with
    | nil => exact ⟨[], [], .nil, .nil, rfl⟩
    | cons hrow _ ih =>
      obtain ⟨cells, hcells, hrecord⟩ := Except.bind_eq_ok_iff.1 hrow
      obtain ⟨records, framed', hrecords, hframed', heq⟩ := ih
      exact ⟨cells :: records, _ :: framed', .cons hcells hrecords, .cons hrecord hframed', by
        rw [List.flatten_cons, List.flatten_cons, heq]⟩
  · cases h

end Encoder

/-! ## What the framing gives back -/

/-- A byte has a meaning of its own in a dialect. -/
def Dialect.Uses (d : Dialect) (byte : UInt8) : Prop :=
  byte = d.delimiter ∨ d.quote = some byte ∨ d.escape = some byte

namespace Framing

variable {rowType : RowType} {options : Options} {d : Dialect}

/-- Records that are framed one by one are framed all together. -/
theorem flatten_eq_flatMap {records : List (List String)} {framed : List (List UInt8)}
    {frame : List String → List UInt8} {write : List String → Except Encoding.Fault (List UInt8)}
    (h : List.Forall₂ (fun cells record => write cells = .ok record) records framed)
    (hframe : ∀ cells record, write cells = .ok record → record = frame cells) :
    framed.flatten = records.flatMap frame := by
  induction h with
  | nil => rfl
  | cons hrecord _ ih => rw [List.flatten_cons, List.flatMap_cons, ih, hframe _ _ hrecord]

/-- A quoted dialect whose characters are no ends of lines and no comment marker. -/
theorem exists_separable (hc : Dialect.compile rowType options = .ok d)
    (hclear : ∀ byte, d.Uses byte → byte ≠ Source.lineFeed ∧ byte ≠ Source.carriageReturn ∧
      (options.allowComments = true → byte ≠ Dialect.hash))
    (hquoted : d.quote.isSome = true) : ∃ quote, Quoted.Separable d quote := by
  obtain ⟨quote, hq⟩ := Option.isSome_iff_exists.1 hquoted
  have hdelimiter := hclear d.delimiter (Or.inl rfl)
  have hquote := hclear quote (Or.inr (Or.inl hq))
  have hquoting : options.quotingDisabled = false := by
    simpa [hquoted] using (Dialect.of_compile hc).2.1
  exact Quoted.separable_of_compile hc hquoting ⟨hdelimiter.1, hdelimiter.2.1⟩
    (by simpa [hq] using ⟨hquote.1, hquote.2.1⟩)
    (fun h => by simpa [hq] using ⟨hdelimiter.2.2 h, hquote.2.2 h⟩)

/-- In a quoted dialect every record is written. -/
theorem flatten_eq_flatMap_write (hquoted : d.quote.isSome = true) {records : List (List String)}
    {framed : List (List UInt8)}
    (hframed : List.Forall₂ (fun cells record => Encoder.frame d cells = .ok record)
      records framed) : framed.flatten = records.flatMap (Quoted.write d) := by
  apply flatten_eq_flatMap hframed
  intro cells record h
  rw [Encoder.frame, if_pos hquoted] at h
  exact (Except.ok.inj h).symm

/-- In both framings the records that were written are found again. -/
theorem outcomes_of_framed (hc : Dialect.compile rowType options = .ok d)
    (hclear : ∀ byte, d.Uses byte → byte ≠ Source.lineFeed ∧ byte ≠ Source.carriageReturn ∧
      (options.allowComments = true → byte ≠ Dialect.hash))
    {records : List (List String)} {framed : List (List UInt8)}
    (hne : ∀ cells ∈ records, cells ≠ [])
    (hframed : List.Forall₂ (fun cells record => Encoder.frame d cells = .ok record)
      records framed)
    {source : Source} (hb : source.bytes = framed.flatten) (he : source.ending = .complete)
    (hmark : d.quote.isSome → ¬ Quoted.byteOrderMark <+: source.bytes) :
    ∃ frame, (Reader.ofSource d source).outcomes = written frame 1 records := by
  cases hq : d.quote with
  | some quote =>
    have hquoted : d.quote.isSome = true := by rw [hq]; rfl
    obtain ⟨quote', hd⟩ := exists_separable hc hclear hquoted
    refine ⟨Quoted.write d, ?_⟩
    rw [Reader.ofSource, if_pos hquoted]
    exact Quoted.outcomes_of_writes (r := Quoted.Reader.ofSource d source) hd rfl rfl he
      (fun _ => hmark hquoted) hne (hb.trans (flatten_eq_flatMap_write hquoted hframed))
  | none =>
    -- records may be refused in this framing, but these have been written
    have hdelimiter := hclear d.delimiter (Or.inl rfl)
    have hd : Plain.Separable d := by
      refine Plain.separable_of_compile hc ⟨hdelimiter.1, hdelimiter.2.1⟩ ?_ fun h => ?_
      · constructor
        · exact fun h => (hclear _ (Or.inr (Or.inr h))).1 rfl
        · exact fun h => (hclear _ (Or.inr (Or.inr h))).2.1 rfl
      · exact ⟨hdelimiter.2.2 h, fun he => (hclear _ (Or.inr (Or.inr he))).2.2 h rfl⟩
    have hwrite {cells : List String} {record : List UInt8}
        (h : Encoder.frame d cells = .ok record) : Plain.write d cells = .ok record := by
      rw [Encoder.frame, hq, if_neg (by simp)] at h
      exact Except.mapError_eq_ok_iff.1 h
    have hbytes : framed.flatten = records.flatMap (Plain.frame d) := by
      apply flatten_eq_flatMap hframed
      intro cells record h
      rw [Plain.frame, hwrite h]
    have hok : ∀ cells ∈ records, (Plain.write d cells).isOk := by
      clear hb hbytes hne
      induction hframed with
      | nil => simp
      | cons hrecord _ ih =>
        rw [List.forall_mem_cons]
        exact ⟨by rw [hwrite hrecord]; rfl, ih⟩
    refine ⟨Plain.frame d, ?_⟩
    rw [Reader.ofSource, hq, if_neg (by simp)]
    exact Plain.outcomes_of_frames (r := Plain.Reader.ofSource d source) hd rfl rfl he hne hok
      (hb.trans hbytes)

end Framing

/-! ## What is decoded -/

/-- A column or one of its members is a rounded number. -/
def DataType.HoldsFloat : DataType → Prop
  | .float => True
  | .array element => element = .float
  | .row fields => ∃ field ∈ fields, field.type = .float
  | _ => False

/-- A type without members is exact unless it is that of rounded numbers. -/
theorem DataType.isExact_of_isComposite_eq_false {type : DataType}
    (h : type.isComposite = false) (hfloat : type ≠ .float) : type.IsExact := by
  cases type <;> trivial

/-- The columns that a table may have are read back if no rounded numbers and no empty rows are
among them. -/
theorem DataType.isRecoverable_of_isFlat {type : DataType} (hflat : Dialect.isFlat type = true)
    (hfloat : ¬ type.HoldsFloat) (hrow : type ≠ .row []) : type.IsRecoverable := by
  cases type with
  | array element =>
    exact isExact_of_isComposite_eq_false (by simpa [Dialect.isFlat] using hflat) hfloat
  | row fields =>
    refine ⟨fun hnil => hrow (by rw [hnil]), fun field hfield => ?_⟩
    rw [Dialect.isFlat, List.all_eq_true] at hflat
    refine isExact_of_isComposite_eq_false (by simpa using hflat field hfield) fun htype => ?_
    exact hfloat ⟨field, hfield, htype⟩
  | float => exact absurd trivial hfloat
  | _ => trivial

namespace Decoder

open CellReader (Survives)

variable {rowType : RowType} {options : Options} {e : Encoder}

/-- The decoder of all columns of a table that stops at the first error. -/
def whole (d : Dialect) (rowType : RowType) : Decoder :=
  ⟨d, rowType.length, CellReader.whole d rowType⟩

/-- Without a projection all columns are decoded. -/
theorem compile_whole {d : Dialect} (hc : Dialect.compile rowType options = .ok d) :
    compile rowType options none .strict = .ok (whole d rowType) := by
  simp only [compile, Except.bind_eq_ok_iff, Except.mapError_eq_ok_iff]
  exact ⟨d, hc, CellReader.whole d rowType, CellReader.ofProjection_none d rowType, rfl⟩

/-- Rows whose texts are read as records are read back exactly if none of their cells collapses or
holds a stray leap second. -/
theorem exists_read_records_iff {d : Dialect} (hwf : d.WellFormed) (ht : d.packing.PlainToken)
    (htypes : ∀ field ∈ rowType, field.type.IsRecoverable) {rows : List Row}
    {records : List (List String)}
    (h : List.Forall₂ (fun row cells => CellWriter.write d rowType row = .ok cells)
      rows records) :
    (∃ found,
        List.Forall₂ (fun cells row => (CellReader.whole d rowType).read cells = .ok row)
          records found ∧
        List.Forall₂ (fun found row => itemsEqual found row = true) found rows) ↔
      ∀ row ∈ rows, Survives d rowType row := by
  simp only [← Except.mapM_eq_ok_iff, Except.exists_mapM_eq_ok_forall₂_iff]
  induction h with
  | nil => simp
  | cons hrow _ ih =>
    rw [List.forall₂_cons, List.forall_mem_cons, ih]
    simp only [itemsEqual_iff, CellReader.exists_read_write_iff hwf ht htypes hrow]

/-- A table with a list in each row. -/
def tagsType : RowType :=
  [⟨"id", .integer, false⟩, ⟨"tags", .array .string, true⟩]

/-- Options in which one character escapes cells and members, and starts the text of null. -/
def tagsOptions : Options :=
  { Options.default with escapeCharacter := some "\\", nullLiteral := some "\\N" }

/-- The encoder of such a table. -/
def tagsEncoder : Encoder :=
  ⟨⟨Dialect.comma, some Dialect.doubleQuote, some Dialect.backslash, none, ";", some "\\N"⟩,
    tagsType⟩

/-- Rows with a delimiter, a null and the text of null among the tags. -/
def taggedRows : List Row :=
  [[some (.integer 7), some (.array [some (.string "a;b"), none, some (.string "\\N")])],
    [some (.integer (-3)), none]]

/-- The text of these rows. -/
def taggedText : String :=
  "7,\"a\\\\;b;\\\\N;\\\\\\\\N\"\n-3,\"\\\\N\"\n"

/-- **Decoding undoes encoding.** For columns without rounded numbers and empty rows, a dialect
whose characters are no ends of lines and no comment marker, and a plain text of null or none: what
is decoded from the bytes of some rows are equal rows in the same order, without an error and
without a record skipped, exactly if no cell of the rows collapses or holds a stray leap second. An
input with quotes must not start like a byte order mark, which would be passed over. -/
theorem decode_encode_iff (hc : Encoder.compile rowType options = .ok e)
    (hcolumns : rowType ≠ []) (hfloat : ∀ field ∈ rowType, ¬ field.type.HoldsFloat)
    (hrow : ∀ field ∈ rowType, field.type ≠ .row [])
    (hclear : ∀ byte, e.dialect.Uses byte → byte ≠ Source.lineFeed ∧
      byte ≠ Source.carriageReturn ∧ (options.allowComments = true → byte ≠ Dialect.hash))
    (hliteral : e.dialect.packing.PlainToken) {rows : List Row} {bytes : List UInt8}
    (hencode : e.encode rows = .ok bytes)
    (hmark : e.dialect.quote.isSome → ¬ Framing.Quoted.byteOrderMark <+: bytes)
    {source : Source} (hb : source.bytes = bytes) (he : source.ending = .complete) :
    ∃ d, compile rowType options none .strict = .ok d ∧
      ((∃ found, (d.rows source).items.1 = found.map (fun row => (.ok row, 0)) ∧
          (d.rows source).items.2.skipped = 0 ∧
          List.Forall₂ (fun found row => itemsEqual found row = true) found rows) ↔
        ∀ row ∈ rows, Survives e.dialect rowType row) := by
  obtain ⟨hdialect, rfl⟩ := Encoder.compile_eq_ok_iff.1 hc
  have hwf := Dialect.WellFormed.of_compile hdialect
  have hflat := Dialect.checkFlat_eq_ok_iff.1 (Dialect.compile_eq_ok_iff.1 hdialect).1
  have htypes : ∀ field ∈ e.rowType, field.type.IsRecoverable := fun field hfield =>
    DataType.isRecoverable_of_isFlat (hflat field hfield) (hfloat field hfield) (hrow field hfield)
  obtain ⟨records, framed, hrecords, hframed, rfl⟩ := Encoder.records_of_encode hencode
  -- every record is as wide as the table
  have hwidth : ∀ cells ∈ records, cells.length = e.rowType.length := by
    clear hframed hb hmark hencode
    induction hrecords with
    | nil => simp
    | cons hwrite _ ih =>
      rw [List.forall_mem_cons]
      exact ⟨(CellWriter.write_eq_ok_iff.1 hwrite).2.1, ih⟩
  have hne : ∀ cells ∈ records, cells ≠ [] := by
    rintro cells hcells rfl
    exact hcolumns (List.length_eq_zero_iff.1 (hwidth [] hcells).symm)
  obtain ⟨frame, houtcomes⟩ := Framing.outcomes_of_framed hdialect hclear hne hframed hb he
    (fun hq => hb ▸ hmark hq)
  refine ⟨whole e.dialect e.rowType, compile_whole hdialect, ?_⟩
  rw [← exists_read_records_iff hwf hliteral htypes hrecords]
  -- the outcomes of the input are the records, so the rows are read from them
  have hitems (found : List Row) :
      List.Forall₂ (fun outcome row => (whole e.dialect e.rowType).convert outcome = .row row)
          ((whole e.dialect e.rowType).rows source).records.outcomes found ↔
        List.Forall₂ (fun cells row => (CellReader.whole e.dialect e.rowType).read cells = .ok row)
          records found := by
    have hrows : ((whole e.dialect e.rowType).rows source).records.outcomes =
        Framing.written frame 1 records := houtcomes
    rw [hrows]
    exact forall₂_convert_written_iff fun cells hcells => (hwidth cells hcells).le
  constructor
  · rintro ⟨found, hfound, -, hequal⟩
    exact ⟨found, (hitems found).1 (Rows.forall₂_of_items rfl rfl hfound), hequal⟩
  · rintro ⟨found, hread, hequal⟩
    obtain ⟨hfound, hskipped⟩ :=
      Rows.items_of_forall₂ (s := (whole e.dialect e.rowType).rows source) rfl
        ((hitems found).2 hread)
    exact ⟨found, hfound, hskipped, hequal⟩

/-- Tags that look like null or hold a delimiter are decoded as they were. -/
theorem decode_encode_iff_tagged :
    ∃ d, compile tagsType tagsOptions none .strict = .ok d ∧
      ∃ found, (d.rows (Source.ofBytes (Utf8.encode taggedText.toList))).items.1 =
          found.map (fun row => (.ok row, 0)) ∧
        (d.rows (Source.ofBytes (Utf8.encode taggedText.toList))).items.2.skipped = 0 ∧
        List.Forall₂ (fun found row => itemsEqual found row = true) found taggedRows := by
  have hc : Encoder.compile tagsType tagsOptions = .ok tagsEncoder := rfl
  have hencode : tagsEncoder.encode taggedRows = .ok (Utf8.encode taggedText.toList) := by cbv
  have hclear : ∀ byte, tagsEncoder.dialect.Uses byte → byte ≠ Source.lineFeed ∧
      byte ≠ Source.carriageReturn ∧ (tagsOptions.allowComments = true → byte ≠ Dialect.hash) := by
    rintro byte (h | h | h)
    · rw [h]
      decide
    · rw [← Option.some.inj h]
      decide
    · rw [← Option.some.inj h]
      decide
  have hseven : (Value.integer 7).display = "7" := by cbv
  have hthree : (Value.integer (-3)).display = "-3" := by cbv
  have hsurvive : ∀ row ∈ taggedRows, Survives tagsEncoder.dialect tagsType row := by
    simp [taggedRows, Survives, CellReader.Collapses, Cell.HoldsStrayLeap, Value.HasStrayLeap,
      tagsEncoder, tagsType, Dialect.nullToken, hseven, hthree]
  have hliteral : tagsEncoder.dialect.packing.PlainToken := by
    refine ⟨?_, by decide, by decide⟩
    simp [tagsEncoder, Dialect.packing, Dialect.nullToken]
  have hbytes : (Source.ofBytes (Utf8.encode taggedText.toList)).bytes =
      Utf8.encode taggedText.toList := Source.bytes_ofBytes _
  obtain ⟨d, hd, hiff⟩ := decode_encode_iff hc (by simp [tagsType])
    (by simp [tagsType, DataType.HoldsFloat]) (by simp [tagsType]) hclear
    hliteral hencode (fun _ => by decide) hbytes rfl
  exact ⟨d, hd, hiff.2 hsurvive⟩

/-- A table with a time of day in each row. -/
def timesType : RowType :=
  [⟨"at", .time, true⟩]

/-- The encoder of such a table without options. -/
def timesEncoder : Encoder :=
  ⟨⟨Dialect.comma, some Dialect.doubleQuote, none, none, ";", none⟩, timesType⟩

/-- A row with a stray leap second. -/
def strayRow : Row :=
  [some (.time Value.strayLeap)]

/-- Its text. -/
def strayText : String :=
  "23:56:05.333333333\n"

/-- A row with a stray leap second is encoded, and its cell does not collapse, but another row is
decoded from its bytes. -/
theorem stray_leap_not_decoded :
    Encoder.compile timesType Options.default = .ok timesEncoder ∧
      timesEncoder.encode [strayRow] = .ok (Utf8.encode strayText.toList) ∧
      List.Forall₂ (fun cell field => ¬ CellReader.Collapses timesEncoder.dialect field cell)
        strayRow timesType ∧
      ∃ d, compile timesType Options.default none .strict = .ok d ∧
        (d.rows (.ofBytes (Utf8.encode strayText.toList))).items.1 =
          [(.ok [some (.time Value.strayLeapShown)], 0)] ∧
        ¬ ∃ found, (d.rows (.ofBytes (Utf8.encode strayText.toList))).items.1 =
            found.map (fun row => (.ok row, 0)) ∧
          List.Forall₂ (fun found row => itemsEqual found row = true) found [strayRow] := by
  have hdisplay : (Value.time Value.strayLeap).display = "23:56:05.333333333" := by decide +kernel
  have hdecoder : compile timesType Options.default none .strict =
      .ok (whole timesEncoder.dialect timesType) := compile_whole rfl
  have hitems : ((whole timesEncoder.dialect timesType).rows
      (.ofBytes (Utf8.encode strayText.toList))).items.1 =
        [(.ok [some (.time Value.strayLeapShown)], 0)] := by
    have houtcomes : (whole timesEncoder.dialect timesType).outcomes
        (.ofBytes (Utf8.encode strayText.toList)) = [.record 1 ["23:56:05.333333333"]] := by
      decide +kernel
    rw [items_rows, houtcomes]
    rfl
  refine ⟨rfl, ?_, ?_, _, hdecoder, hitems, ?_⟩
  · have hcells : CellWriter.write timesEncoder.dialect timesType strayRow =
        .ok ["23:56:05.333333333"] := by
      rw [CellWriter.write_eq_ok_map_iff]
      simp [strayRow, timesType, RowType.Admits, Field.admits, Value.matches, CellWriter.text,
        CellWriter.render, hdisplay]
    have hwrite : Framing.Quoted.write timesEncoder.dialect ["23:56:05.333333333"] =
        Utf8.encode strayText.toList := by decide +kernel
    rw [Encoder.encode_singleton, Encoder.encodeRow, Except.bind_eq_ok_iff]
    exact ⟨_, hcells, congrArg Except.ok hwrite⟩
  · simp [strayRow, timesType, CellReader.Collapses, timesEncoder, Dialect.nullToken, hdisplay]
  · rintro ⟨found, hfound, hequal⟩
    rw [hitems] at hfound
    obtain ⟨row, rfl, hrow⟩ := List.map_eq_singleton_iff.1 hfound.symm
    cases hrow
    cases hequal with
    | cons hrow _ => cases hrow

end Decoder

end TypedCsv
