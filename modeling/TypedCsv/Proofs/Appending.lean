import TypedCsv.Proofs.Recoding

/-! # Rows are written one by one

What a writer puts out is the concatenation of what each accepted row comes to on its own, however
many calls were refused in between (`Encoder.run_atomic_compositional`).

* `CellWriter.text`: the text of a cell, which a row that fits always has.
* `Encoder.encodeRow_isOk_iff`: the rows that are accepted.
* `Encoder.Writer.Gains`: what one call, and then a run of calls, adds to the output. -/

namespace TypedCsv

/-! ## Accepted rows -/

namespace CellWriter

variable {d : Dialect} {rowType : RowType} {row : Row}

/-- The text of a cell, whether or not it fits its column. -/
def text (d : Dialect) : Cell → String
  | none => d.nullToken
  | some value => render d value

/-- A cell is written if its field admits it, and then as its text. -/
theorem writeCell_eq_ok_iff {field : Field} {cell : Cell} {found : String} :
    writeCell d field cell = .ok found ↔ field.admits cell = true ∧ found = text d cell := by
  cases cell with
  | none => cases h : field.nullable <;> simp [writeCell, Field.admits, text, h, eq_comm]
  | some value =>
    cases h : value.matches field.type <;> simp [writeCell, Field.admits, text, h, eq_comm]

/-- A row that fits has the texts of its cells. -/
theorem write_eq_ok_map_iff {texts : List String} :
    write d rowType row = .ok texts ↔ rowType.Admits row ∧ texts = row.map (text d) := by
  have hmap (texts : List String) (h : write d rowType row = .ok texts) :
      texts = row.map (text d) := by
    rw [write] at h
    split at h
    · next hlength =>
      rw [Except.mapM_eq_ok_iff_map (g := fun pair : Cell × Field => text d pair.1)
        fun _ _ => writeCell_eq_ok_iff] at h
      rw [h.2, ← Function.comp_def (text d) Prod.fst, ← List.map_map,
        List.map_fst_zip (by omega)]
    · cases h
  rw [← write_isOk_iff (d := d)]
  constructor
  · exact fun h => ⟨⟨texts, h⟩, hmap texts h⟩
  · rintro ⟨⟨found, h⟩, rfl⟩
    rwa [hmap found h] at h

end CellWriter

namespace Encoder

variable {rowType : RowType} {options : Options} {d : Dialect} {e : Encoder} {row : Row}

/-- A record is refused only without quotes and an escape, for the cells that disturb it. -/
theorem frame_isOk_iff (hc : Dialect.compile rowType options = .ok d) (cells : List String) :
    (∃ bytes, frame d cells = .ok bytes) ↔
      (options.quotingDisabled = true → options.escapeCharacter = none →
        ¬ Framing.Plain.Disturbs d true cells) := by
  obtain ⟨-, hquote, hescape, -⟩ := Dialect.of_compile hc
  by_cases hplain : options.quotingDisabled = true ∧ options.escapeCharacter = none
  · -- nothing protects the cells
    obtain ⟨hdisabled, hnone⟩ := hplain
    have hquote : ¬ d.quote.isSome = true := by simp [hquote, hdisabled]
    have hescape : d.escape = none := by simpa [hnone] using hescape
    rw [frame, if_neg hquote, ← Framing.Plain.write_eq_error_iff hescape]
    cases Framing.Plain.write d cells <;> simp [hdisabled, hnone, Except.mapError]
  · -- a quote or an escape does, so that every record has a form
    have hframe : d.quote.isSome = true ∨ d.escape.isSome = true := by
      rw [hquote, hescape]
      cases h : options.quotingDisabled <;> simp_all [Option.isSome_iff_ne_none]
    constructor
    · exact fun _ hdisabled hnone => absurd ⟨hdisabled, hnone⟩ hplain
    · exact fun _ => frame_isOk hframe cells

/-- **The rows that are accepted** are those that fit their columns and, without quotes and an
escape, have no text that breaks a cell or a line or starts a comment. -/
theorem encodeRow_isOk_iff (hc : compile rowType options = .ok e) (row : Row) :
    (∃ bytes, e.encodeRow row = .ok bytes) ↔
      rowType.Admits row ∧
        (options.quotingDisabled = true → options.escapeCharacter = none →
          ¬ ((∃ cell ∈ row,
              Dialect.charOfByte e.dialect.delimiter ∈ (CellWriter.text e.dialect cell).toList ∨
                '\n' ∈ (CellWriter.text e.dialect cell).toList ∨
                '\r' ∈ (CellWriter.text e.dialect cell).toList) ∨
            options.allowComments = true ∧ ∃ cell, row.head? = some cell ∧
              (CellWriter.text e.dialect cell).toList.head? = some '#')) := by
  obtain ⟨hd, rfl⟩ := compile_eq_ok_iff.1 hc
  have hbytes : (∃ bytes, e.encodeRow row = .ok bytes) ↔ e.rowType.Admits row ∧
      ∃ bytes, frame e.dialect (row.map (CellWriter.text e.dialect)) = .ok bytes := by
    simp only [encodeRow, Except.bind_eq_ok_iff, CellWriter.write_eq_ok_map_iff]
    constructor
    · rintro ⟨bytes, texts, ⟨hfit, rfl⟩, hframe⟩
      exact ⟨hfit, bytes, hframe⟩
    · rintro ⟨hfit, bytes, hframe⟩
      exact ⟨bytes, _, ⟨hfit, rfl⟩, hframe⟩
  rw [hbytes, frame_isOk_iff hd, Framing.Plain.disturbs_iff hd]
  simp only [List.mem_map, List.head?_map, Option.map_eq_some_iff, exists_exists_and_eq_and]

/-! ## Calls of a writer -/

/-- Encoding a single row is writing its record. -/
theorem encode_singleton (e : Encoder) (row : Row) : e.encode [row] = e.encodeRow row := by
  have hencoder : e.writer.encoder = e := rfl
  rw [encode, Writer.appendAll, Writer.append, hencoder]
  cases e.encodeRow row with
  | error fault => rfl
  | ok record => exact congrArg Except.ok (List.append_nil record)

/-- Whether a row can be encoded on its own. -/
def accepts (e : Encoder) (row : Row) : Bool :=
  (e.encode [row]).isOk

/-- A row is accepted if it has a record. -/
theorem accepts_eq_true_iff : e.accepts row = true ↔ ∃ record, e.encodeRow row = .ok record := by
  rw [accepts, encode_singleton]
  cases e.encodeRow row <;> simp

/-- A call of a writer. -/
inductive Call where
  | append (row : Row)
  | appendAll (rows : List Row)

/-- The rows that a call wants to be written. -/
def Call.rows : Call → List Row
  | append row => [row]
  | appendAll rows => rows

/-- The rows that a call writes: those before the first that is not accepted. -/
def kept (e : Encoder) (call : Call) : List Row :=
  call.rows.takeWhile e.accepts

namespace Writer

variable {w after last : Writer} {rows others : List Row}

/-- The writer after a call, and the fault if there was one. -/
def call (w : Writer) (call : Call) : Writer × Option Encoding.Fault :=
  w.appendAll call.rows

/-- The writer after some calls; those that fail do not stop it. -/
def run (w : Writer) : List Call → Writer
  | [] => w
  | call :: calls => (w.call call).1.run calls

/-- A call for a single row. -/
theorem call_append_of_ok (h : w.append row = .ok after) :
    w.call (.append row) = (after, none) := by
  rw [call, Call.rows, appendAll, h]
  rfl

/-- A row that is refused leaves no trace, and neither do those after it; behind a row that is
accepted writing goes on. -/
theorem appendAll_cons_cases (w : Writer) (row : Row) (rows : List Row) :
    (w.encoder.accepts row = false ∧ ∃ fault, w.appendAll (row :: rows) = (w, some fault)) ∨
      w.encoder.accepts row = true ∧ ∃ after, w.append row = .ok after ∧
        after.encoder = w.encoder ∧ w.appendAll (row :: rows) = after.appendAll rows := by
  cases h : w.encoder.encodeRow row with
  | error fault =>
    have hrow : w.append row = .error fault := by
      rw [append, h]
      rfl
    refine Or.inl ⟨?_, fault, by rw [appendAll, hrow]⟩
    rw [Bool.eq_false_iff, Ne, accepts_eq_true_iff, h]
    simp
  | ok record =>
    have hrow : w.append row =
        .ok { w with records := record :: w.records, written := w.written + 1 } := by
      rw [append, h]
      rfl
    exact Or.inr ⟨accepts_eq_true_iff.2 ⟨record, h⟩, _, hrow, rfl, by rw [appendAll, hrow]⟩

/-! ### What a call adds -/

/-- The second writer has put out what the first one has, and then the records of some rows. -/
structure Gains (w after : Writer) (rows : List Row) : Prop where
  encoder : after.encoder = w.encoder
  written : after.written = w.written + rows.length
  records : ∃ records, List.Forall₂ (fun row record => w.encoder.encodeRow row = .ok record)
    rows records ∧ after.records = records.reverse ++ w.records

namespace Gains

/-- Without a call nothing is added. -/
theorem refl (w : Writer) : Gains w w [] :=
  ⟨rfl, rfl, [], .nil, rfl⟩

/-- What two calls add stands one behind the other. -/
theorem trans (h : Gains w after rows) (h' : Gains after last others) :
    Gains w last (rows ++ others) := by
  obtain ⟨records, hrecords, hafter⟩ := h.records
  obtain ⟨more, hmore, hlast⟩ := h'.records
  rw [h.encoder] at hmore
  refine ⟨h'.encoder.trans h.encoder, ?_, records ++ more, List.rel_append hrecords hmore, ?_⟩
  · rw [h'.written, h.written, List.length_append, Nat.add_assoc]
  · rw [hlast, hafter, List.reverse_append, List.append_assoc]

/-- A call of `append` that succeeds adds its row. -/
theorem of_append (h : w.append row = .ok after) : Gains w after [row] := by
  obtain ⟨record, hrecord, hafter⟩ := Except.bind_eq_ok_iff.1 h
  cases hafter
  exact ⟨rfl, rfl, [record], .cons hrecord .nil, rfl⟩

end Gains

/-- A call adds the rows before the first one that is refused. -/
theorem gains_appendAll (w : Writer) (rows : List Row) :
    Gains w (w.appendAll rows).1 (rows.takeWhile w.encoder.accepts) := by
  induction rows generalizing w with
  | nil => exact .refl w
  | cons row rows ih =>
    obtain ⟨h, fault, hcall⟩ | ⟨h, after, hafter, hencoder, hcall⟩ := appendAll_cons_cases w row rows
    · rw [hcall, List.takeWhile_cons_of_neg (by simp [h])]
      exact .refl w
    · rw [hcall, List.takeWhile_cons_of_pos h, ← hencoder]
      exact (Gains.of_append hafter).trans (ih after)

/-- A call fails exactly if one of its rows is refused. -/
theorem appendAll_eq_none_iff (w : Writer) (rows : List Row) :
    (w.appendAll rows).2 = none ↔ ∀ row ∈ rows, w.encoder.accepts row = true := by
  induction rows generalizing w with
  | nil => simp [appendAll]
  | cons row rows ih =>
    rw [List.forall_mem_cons]
    obtain ⟨h, fault, hcall⟩ | ⟨h, after, -, hencoder, hcall⟩ := appendAll_cons_cases w row rows
    · simp [hcall, h]
    · rw [hcall, ih after, hencoder]
      exact (and_iff_right h).symm

/-- The rows in front of the first that is refused can all be written. -/
theorem appendAll_takeWhile (w : Writer) (rows : List Row) :
    w.appendAll (rows.takeWhile w.encoder.accepts) = ((w.appendAll rows).1, none) := by
  induction rows generalizing w with
  | nil => rfl
  | cons row rows ih =>
    obtain ⟨h, fault, hcall⟩ | ⟨h, after, hafter, hencoder, hcall⟩ := appendAll_cons_cases w row rows
    · rw [hcall, List.takeWhile_cons_of_neg (by simp [h])]
      rfl
    · rw [hcall, List.takeWhile_cons_of_pos h, appendAll, hafter, ← hencoder]
      exact ih after

/-- Writing rows together is writing those before the first that is refused one by one. -/
theorem appendAll_eq_run (w : Writer) (rows : List Row) :
    (w.appendAll rows).1 = w.run ((rows.takeWhile w.encoder.accepts).map .append) := by
  induction rows generalizing w with
  | nil => rfl
  | cons row rows ih =>
    obtain ⟨h, fault, hcall⟩ | ⟨h, after, hafter, hencoder, hcall⟩ := appendAll_cons_cases w row rows
    · rw [hcall, List.takeWhile_cons_of_neg (by simp [h])]
      rfl
    · rw [hcall, List.takeWhile_cons_of_pos h, List.map_cons, run, call_append_of_ok hafter,
        ← hencoder]
      exact ih after

/-- A run adds the rows that its calls write. -/
theorem gains_run (w : Writer) (calls : List Call) :
    Gains w (w.run calls) (calls.flatMap w.encoder.kept) := by
  induction calls generalizing w with
  | nil => exact .refl w
  | cons call calls ih =>
    have hcall : Gains w (w.call call).1 (w.encoder.kept call) := gains_appendAll w call.rows
    have hrest := ih (w.call call).1
    rw [hcall.encoder] at hrest
    exact hcall.trans hrest

end Writer

/-- What a call of `appendAll` puts out is the encoding of the rows in front of the first one that
is not accepted. -/
theorem encode_takeWhile (e : Encoder) (rows : List Row) :
    e.encode (rows.takeWhile e.accepts) = .ok (e.writer.appendAll rows).1.bytes := by
  have hencoder : e.writer.encoder = e := rfl
  have hrows := Writer.appendAll_takeWhile e.writer rows
  rw [hencoder] at hrows
  rw [encode, hrows]

/-- Writes numbered notes without quotes and without an escape. -/
def notes : Encoder :=
  ⟨⟨Dialect.comma, none, none, some Dialect.hash, ";", none⟩,
    [⟨"id", .integer, false⟩, ⟨"note", .string, true⟩]⟩

/-- Calls that write notes, of which some hold delimiters or line breaks and one has no number. -/
def noteCalls : List Call :=
  [.append [some (.integer 7), some (.string "a,b")],
    .append [some (.integer 7), none],
    .append [none, some (.string "x")],
    .appendAll [[some (.integer 8), some (.string "y")], [some (.integer 9), some (.string "\n")],
      [some (.integer 10), some (.string "z")]],
    .append [some (.integer 11), some (.string "#")]]

/-- **Writing is atomic for each row, and compositional.** A row is accepted, by a writer in any
state, exactly if it fits its columns and, without quotes and an escape, has no text that breaks a
cell or a line or starts a comment; a call that refuses its row leaves the writer as it was. Rows
that are written together are kept up to the first that is refused. After any calls the output is
the concatenation of the accepted rows, each encoded on its own, and their number is counted. -/
theorem run_atomic_compositional (hc : compile rowType options = .ok e) :
    (∀ (w : Writer) (row : Row), w.encoder = e →
      ((w.call (.append row)).2 = none ↔ e.accepts row = true) ∧
      ((w.call (.append row)).2 ≠ none → (w.call (.append row)).1 = w) ∧
      (e.accepts row = true ↔ rowType.Admits row ∧
        (options.quotingDisabled = true → options.escapeCharacter = none →
          ¬ ((∃ cell ∈ row,
              Dialect.charOfByte e.dialect.delimiter ∈ (CellWriter.text e.dialect cell).toList ∨
                '\n' ∈ (CellWriter.text e.dialect cell).toList ∨
                '\r' ∈ (CellWriter.text e.dialect cell).toList) ∨
            options.allowComments = true ∧ ∃ cell, row.head? = some cell ∧
              (CellWriter.text e.dialect cell).toList.head? = some '#')))) ∧
    (∀ (w : Writer) (rows : List Row), w.encoder = e →
      ((w.call (.appendAll rows)).2 = none ↔ ∀ row ∈ rows, e.accepts row = true) ∧
      (w.call (.appendAll rows)).1 = w.run ((rows.takeWhile e.accepts).map .append)) ∧
    ∀ calls : List Call, (e.writer.run calls).encoder = e ∧
      ∃ records,
        List.Forall₂ (fun row record => e.encode [row] = .ok record) (calls.flatMap e.kept)
          records ∧
        (e.writer.run calls).finish .unbounded = .ok records.flatten ∧
        (e.writer.run calls).written = records.length := by
  refine ⟨?_, ?_, fun calls => ?_⟩
  · rintro w row rfl
    have hnone : (w.call (.append row)).2 = none ↔ w.encoder.accepts row = true := by
      rw [Writer.call, Writer.appendAll_eq_none_iff, Call.rows, List.forall_mem_singleton]
    refine ⟨hnone, fun hfault => ?_, ?_⟩
    · obtain ⟨-, fault, hcall⟩ | ⟨haccepts, -⟩ := Writer.appendAll_cons_cases w row []
      · rw [Writer.call, Call.rows, hcall]
      · exact absurd (hnone.2 haccepts) hfault
    · rw [accepts_eq_true_iff, encodeRow_isOk_iff hc]
  · rintro w rows rfl
    exact ⟨Writer.appendAll_eq_none_iff w rows, Writer.appendAll_eq_run w rows⟩
  · obtain ⟨hencoder, hwritten, records, hrecords, hafter⟩ := Writer.gains_run e.writer calls
    refine ⟨hencoder, records, ?_, ?_, ?_⟩
    · exact hrecords.imp fun row record h => (encode_singleton e row).trans h
    · have hbytes : (e.writer.run calls).bytes = records.flatten := by
        rw [Writer.bytes, hafter, writer, List.append_nil, List.reverse_reverse]
      rw [Writer.finish, Sink.unbounded, hbytes]
    · rw [hwritten, hrecords.length_eq, writer, Nat.zero_add]

/-- Of seven notes three are written, and a note with a delimiter in it leaves no trace. -/
theorem run_atomic_compositional_notes :
    (notes.writer.call (.append [some (.integer 7), some (.string "a,b")])).1 = notes.writer ∧
      (notes.writer.run noteCalls).finish .unbounded =
        .ok (Utf8.encode "7,\n8,y\n11,#\n".toList) ∧
      (notes.writer.run noteCalls).written = 3 := by
  have hc : compile notes.rowType
      { Options.default with quotingDisabled := true, allowComments := true } = .ok notes := by rfl
  obtain ⟨hsingle, -, hrun⟩ := run_atomic_compositional hc
  obtain ⟨-, records, hrecords, hfinish, hwritten⟩ := hrun noteCalls
  obtain ⟨hnone, hrefused, -⟩ :=
    hsingle notes.writer [some (.integer 7), some (.string "a,b")] rfl
  have hkept : noteCalls.flatMap notes.kept = [[some (.integer 7), none],
      [some (.integer 8), some (.string "y")], [some (.integer 11), some (.string "#")]] := by cbv
  have hown : List.Forall₂ (fun row record => notes.encode [row] = .ok record)
      (noteCalls.flatMap notes.kept) [Utf8.encode "7,\n".toList, Utf8.encode "8,y\n".toList,
        Utf8.encode "11,#\n".toList] := by
    rw [hkept]
    exact .cons (by cbv) (.cons (by cbv) (.cons (by cbv) .nil))
  -- a row has one encoding
  obtain rfl := Relator.RightUnique.forall₂
    (fun _ _ _ h h' => Except.ok.inj (h.symm.trans h')) hrecords hown
  refine ⟨hrefused fun h => ?_, hfinish, hwritten⟩
  have haccepts : notes.accepts [some (.integer 7), some (.string "a,b")] = false := by cbv
  rw [haccepts] at hnone
  exact Bool.false_ne_true (hnone.1 h)

end Encoder

end TypedCsv
