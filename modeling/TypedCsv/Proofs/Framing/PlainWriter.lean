import TypedCsv.Proofs.Framing.Plain

/-! # Writing in the plain framing

Without an escape a record is refused exactly if one of its cells would change the structure
(`Plain.write_eq_error_iff`); with one nothing is refused. `Plain.Writer` is a run of calls, and
what it has put out is read back as the records that were accepted
(`Plain.Writer.outcomes_writeAll`). -/

namespace TypedCsv.Framing.Plain

variable {d : Dialect}

/-! ## Refused records -/

/-- With an escape every cell has a form. -/
theorem frameBytes_isSome (he : d.escape.isSome) (first : Bool) (cell : List UInt8) :
    (frameBytes d first cell).isSome := by
  induction cell generalizing first with
  | nil => rfl
  | cons byte cell ih =>
    obtain ⟨framed, hframed⟩ := Option.isSome_iff_exists.1 (ih false)
    rw [frameBytes, hframed]
    dsimp only
    split
    · simpa using he
    · rfl

/-- With an escape every record is written. -/
theorem write_isOk (he : d.escape.isSome) (cells : List String) : (write d cells).isOk := by
  have hframe (first : Bool) : ∃ framed, frameCells d first cells = .ok framed := by
    induction cells generalizing first with
    | nil => exact ⟨[], rfl⟩
    | cons cell cells ih =>
      obtain ⟨framed, hframed⟩ := Option.isSome_iff_exists.1
        (frameBytes_isSome he first (cellBytes cell))
      obtain ⟨others, hothers⟩ := ih false
      exact ⟨framed :: others, by rw [frameCells, hframed, hothers]; rfl⟩
  obtain ⟨framed, hframed⟩ := hframe true
  rw [write, hframed]
  rfl

/-- Whether a byte ends a cell or a line. -/
def IsBreak (d : Dialect) (byte : UInt8) : Prop :=
  byte = d.delimiter ∨ byte = Source.lineFeed ∨ byte = Source.carriageReturn

/-- Without an escape a cell has no form exactly if it holds a break or starts a comment. -/
theorem frameBytes_eq_none_iff (he : d.escape = none) (first : Bool) (cell : List UInt8) :
    frameBytes d first cell = none ↔
      (∃ byte ∈ cell, IsBreak d byte) ∨
        first = true ∧ ∃ byte, cell.head? = some byte ∧ d.comment = some byte := by
  induction cell generalizing first with
  | nil => simp [frameBytes]
  | cons byte cell ih =>
    have ih := ih false
    cases hrest : frameBytes d false cell with
    | none =>
      -- a later byte is a break
      obtain ⟨b, hb, hbreak⟩ := (ih.1 hrest).resolve_right (by simp)
      simp only [frameBytes, hrest, true_iff]
      exact Or.inl ⟨b, List.mem_cons_of_mem _ hb, hbreak⟩
    | some framed =>
      -- the first byte alone decides
      have hcell : ¬ ∃ b ∈ cell, IsBreak d b := by
        intro hb
        rw [ih.2 (Or.inl hb)] at hrest
        cases hrest
      have hspecial : isSpecial d first byte = true ↔
          IsBreak d byte ∨ first = true ∧ d.comment = some byte := by
        simp [isSpecial, IsBreak, he, or_assoc]
      have hnone : frameBytes d first (byte :: cell) = none ↔ isSpecial d first byte = true := by
        rw [frameBytes, hrest]
        simp [he]
      rw [hnone, hspecial]
      constructor
      · rintro (hb | ⟨hfirst, hmarker⟩)
        · exact Or.inl ⟨byte, List.mem_cons_self, hb⟩
        · exact Or.inr ⟨hfirst, byte, rfl, hmarker⟩
      · rintro (⟨b, hb, hbreak⟩ | ⟨hfirst, b, hb, hmarker⟩)
        · rcases List.mem_cons.1 hb with rfl | hb
          · exact Or.inl hbreak
          · exact absurd ⟨b, hb, hbreak⟩ hcell
        · cases hb
          exact Or.inr ⟨hfirst, hmarker⟩

/-- Whether some cell would end a cell or a line, or the first one start a comment. -/
def Disturbs (d : Dialect) (first : Bool) (cells : List String) : Prop :=
  (∃ cell ∈ cells, ∃ byte ∈ cellBytes cell, IsBreak d byte) ∨
    first = true ∧ ∃ cell byte, cells.head? = some cell ∧ (cellBytes cell).head? = some byte ∧
      d.comment = some byte

/-- Without an escape cells are refused exactly if one of them disturbs the record. -/
theorem frameCells_eq_error_iff (he : d.escape = none) (first : Bool) (cells : List String) :
    (∃ fault, frameCells d first cells = .error fault) ↔ Disturbs d first cells := by
  induction cells generalizing first with
  | nil => simp [frameCells, Disturbs]
  | cons cell cells ih =>
    have hcell := frameBytes_eq_none_iff he first (cellBytes cell)
    have ih := ih false
    cases hframe : frameBytes d first (cellBytes cell) with
    | none =>
      -- this cell is the one that is refused
      simp only [frameCells, hframe, Except.error.injEq, exists_eq', true_iff]
      rcases hcell.1 hframe with hb | ⟨hfirst, byte, hb, hmarker⟩
      · exact Or.inl ⟨cell, List.mem_cons_self, hb⟩
      · exact Or.inr ⟨hfirst, cell, byte, rfl, hb, hmarker⟩
    | some framed =>
      -- the cells after this one decide
      have hquiet := (not_congr hcell).1 (by simp [hframe])
      have hcells : (∃ fault, frameCells d first (cell :: cells) = .error fault) ↔
          ∃ fault, frameCells d false cells = .error fault := by
        rw [frameCells, hframe]
        cases frameCells d false cells <;> simp [Except.map]
      rw [hcells, ih]
      constructor
      · rintro (⟨c, hc, hb⟩ | ⟨hfirst, -⟩)
        · exact Or.inl ⟨c, List.mem_cons_of_mem _ hc, hb⟩
        · cases hfirst
      · rintro (⟨c, hc, hb⟩ | ⟨hfirst, c, byte, hc, hb, hmarker⟩)
        · rcases List.mem_cons.1 hc with rfl | hc
          · exact absurd (Or.inl hb) hquiet
          · exact Or.inl ⟨c, hc, hb⟩
        · cases hc
          exact absurd (Or.inr ⟨hfirst, byte, hb, hmarker⟩) hquiet

/-- Without an escape a record is refused exactly if one of its cells disturbs it. -/
theorem write_eq_error_iff (he : d.escape = none) (cells : List String) :
    (∃ fault, write d cells = .error fault) ↔ Disturbs d true cells := by
  rw [← frameCells_eq_error_iff he, write]
  cases frameCells d true cells <;> simp [Except.map]

/-! ## A run of calls -/

/-- A writer of records: a call adds a record to the output, or leaves it as it is. -/
structure Writer where
  dialect : Dialect
  output : List UInt8

namespace Writer

/-- Writes a record; also tells whether it has been accepted. -/
def write (w : Writer) (cells : List String) : Except String Unit × Writer :=
  match Plain.write w.dialect cells with
  | .ok bytes => (.ok (), { w with output := w.output ++ bytes })
  | .error cell => (.error cell, w)

/-- Writes records one after the other, going on after those that are refused. -/
def writeAll (w : Writer) : List (List String) → List (Except String Unit) × Writer
  | [] => ([], w)
  | cells :: records =>
    let (results, after) := (w.write cells).2.writeAll records
    ((w.write cells).1 :: results, after)

/-- The records whose calls have been accepted. -/
def accepted (w : Writer) (records : List (List String)) : List (List String) :=
  ((records.zip (w.writeAll records).1).filter fun call => call.2.isOk).map Prod.fst

/-- No call changes the dialect. -/
@[simp] theorem dialect_write (w : Writer) (cells : List String) :
    (w.write cells).2.dialect = w.dialect := by
  rw [write]
  split <;> rfl

/-- A call succeeds if the record can be written. -/
theorem isOk_write (w : Writer) (cells : List String) :
    (w.write cells).1.isOk = (Plain.write w.dialect cells).isOk := by
  rw [write]
  split
  · next h => rw [h]; rfl
  · next h => rw [h]; rfl

/-- A call puts out the frame of its record. -/
theorem output_write (w : Writer) (cells : List String) :
    (w.write cells).2.output = w.output ++ frame w.dialect cells := by
  cases h : Plain.write w.dialect cells <;> simp [write, frame, h]

/-- A refused record leaves no trace. -/
theorem write_of_error {w : Writer} {cells : List String} {fault : String}
    (h : (w.write cells).1 = .error fault) : (w.write cells).2 = w := by
  rw [write] at h ⊢
  split at h
  · cases h
  · rfl

/-- What a call accepts does not depend on the calls before it. -/
theorem accepted_eq_filter (w : Writer) (records : List (List String)) :
    w.accepted records = records.filter fun cells => (Plain.write w.dialect cells).isOk := by
  induction records generalizing w with
  | nil => rfl
  | cons cells records ih =>
    have ih := ih (w.write cells).2
    rw [dialect_write] at ih
    rw [List.filter_cons, ← ih, ← isOk_write, accepted, writeAll, List.zip_cons_cons,
      List.filter_cons]
    cases hok : (w.write cells).1.isOk <;> simp [accepted]

/-- The output of a run is made of the accepted records. -/
theorem output_writeAll (w : Writer) (records : List (List String)) :
    (w.writeAll records).2.output = w.output ++ (w.accepted records).flatMap (frame w.dialect) := by
  induction records generalizing w with
  | nil => simp [writeAll, accepted]
  | cons cells records ih =>
    rw [writeAll]
    dsimp only
    rw [ih, output_write, dialect_write, accepted_eq_filter, accepted_eq_filter, dialect_write,
      List.filter_cons, List.append_assoc]
    congr 1
    split
    · rfl
    · next h =>
      -- a refused record adds no bytes
      cases hw : Plain.write w.dialect cells with
      | ok bytes => simp [hw, Except.isOk, Except.toBool] at h
      | error fault => simp [frame, hw]

/-- What a run has put out is read as the accepted records. -/
theorem outcomes_writeAll {w : Writer} (hd : Separable w.dialect) (hw : w.output = [])
    {records : List (List String)} (hne : ∀ cells ∈ records, cells ≠ []) {source : Source}
    (hb : source.bytes = (w.writeAll records).2.output) (he : source.ending = .complete) :
    (Framing.Reader.plain (Reader.ofSource w.dialect source)).outcomes =
      written (frame w.dialect) 1 (w.accepted records) := by
  have hsub : ∀ cells ∈ w.accepted records,
      cells ∈ records ∧ (Plain.write w.dialect cells).isOk := by
    intro cells hcells
    rw [accepted_eq_filter] at hcells
    exact List.mem_filter.1 hcells
  refine outcomes_of_frames (r := Reader.ofSource w.dialect source) hd rfl rfl he
    (fun cells hcells => hne cells (hsub cells hcells).1)
    (fun cells hcells => (hsub cells hcells).2) ?_
  rw [Reader.ofSource, hb, output_writeAll, hw, List.nil_append]

end Writer

/-! ## Dialects that come from options -/

/-- Options with quoting disabled, an escape and comments. -/
def escapingOptions : Options :=
  { Options.default with
    quotingDisabled := true, escapeCharacter := some "\\", allowComments := true }

/-- The dialect of `escapingOptions`. -/
def escapingDialect : Dialect :=
  ⟨Dialect.comma, none, some Dialect.backslash, some Dialect.hash, ";", none⟩

/-- Records with cells that start like a comment, hold delimiters, escapes and line breaks, or are
empty. -/
def escapingRecords : List (List String) :=
  [["#", ""], ["a,\\", "\r\n"], [""]]

section Compiled

variable {rowType : RowType} {options : Options}

/-- The conditions on the characters of a dialect that its options do not check. -/
theorem separable_of_compile (hc : Dialect.compile rowType options = .ok d)
    (hdelimiter : d.delimiter ≠ Source.lineFeed ∧ d.delimiter ≠ Source.carriageReturn)
    (hescape : d.escape ≠ some Source.lineFeed ∧ d.escape ≠ some Source.carriageReturn)
    (hcomment : options.allowComments = true →
      d.delimiter ≠ Dialect.hash ∧ d.escape ≠ some Dialect.hash) : Separable d := by
  have hwf := Dialect.WellFormed.of_compile hc
  refine ⟨hdelimiter.1, hdelimiter.2, hescape.1, hescape.2, hwf.escape_ne_delimiter, ?_, ?_, ?_⟩
  · exact Dialect.comment_ne_of_compile hc fun hallow => (hcomment hallow).1
  · intro hsome heq
    obtain ⟨byte, hbyte⟩ := Option.isSome_iff_exists.1 hsome
    refine Dialect.comment_ne_of_compile hc (fun hallow => ?_) hbyte
    rintro rfl
    exact (hcomment hallow).2 (heq ▸ hbyte)
  · exact Dialect.comment_ne_of_compile hc fun _ => by decide

/-- The cells that disturb a record, in terms of characters. -/
theorem disturbs_iff (hc : Dialect.compile rowType options = .ok d) (cells : List String) :
    Disturbs d true cells ↔
      (∃ cell ∈ cells, Dialect.charOfByte d.delimiter ∈ cell.toList ∨ '\n' ∈ cell.toList ∨
          '\r' ∈ cell.toList) ∨
        options.allowComments = true ∧ ∃ cell, cells.head? = some cell ∧
          cell.toList.head? = some '#' := by
  obtain ⟨hwf, -, -, hmarker, -⟩ := Dialect.of_compile hc
  have hbreak (cell : String) : (∃ byte ∈ cellBytes cell, IsBreak d byte) ↔
      Dialect.charOfByte d.delimiter ∈ cell.toList ∨ '\n' ∈ cell.toList ∨ '\r' ∈ cell.toList := by
    have hlf : Source.lineFeed ∈ cellBytes cell ↔ '\n' ∈ cell.toList :=
      mem_cellBytes_iff (by decide)
    have hcr : Source.carriageReturn ∈ cellBytes cell ↔ '\r' ∈ cell.toList :=
      mem_cellBytes_iff (by decide)
    rw [← mem_cellBytes_iff hwf.delimiter_lt, ← hlf, ← hcr]
    simp [IsBreak, and_or_left, exists_or]
  have hstart (cell : String) : (∃ byte, (cellBytes cell).head? = some byte ∧
      d.comment = some byte) ↔ options.allowComments = true ∧ cell.toList.head? = some '#' := by
    rw [hmarker, show '#' = Dialect.charOfByte Dialect.hash from rfl,
      ← head?_cellBytes_iff (by decide)]
    cases options.allowComments <;> simp [and_comm]
  simp only [Disturbs, hbreak, true_and, exists_and_left, hstart]
  refine or_congr_right ?_
  constructor
  · rintro ⟨cell, hcell, ha, hhash⟩
    exact ⟨ha, cell, hcell, hhash⟩
  · rintro ⟨ha, cell, hcell, hhash⟩
    exact ⟨cell, hcell, ha, hhash⟩

/-- **With quoting disabled a run of calls loses nothing.** With an escape every call is accepted;
without one a call is refused exactly if some cell holds the delimiter or a line break, or the
first one starts a comment. A refused call leaves the output as it was, and the final output is
read as the accepted records. -/
theorem plain_run_lossless (hc : Dialect.compile rowType options = .ok d)
    (hquoting : options.quotingDisabled = true)
    (hdelimiter : d.delimiter ≠ Source.lineFeed ∧ d.delimiter ≠ Source.carriageReturn)
    (hescape : d.escape ≠ some Source.lineFeed ∧ d.escape ≠ some Source.carriageReturn)
    (hcomment : options.allowComments = true →
      d.delimiter ≠ Dialect.hash ∧ d.escape ≠ some Dialect.hash) :
    (∀ (w : Writer) (cells : List String), w.dialect = d →
      (d.escape.isSome → (w.write cells).1 = .ok ()) ∧
      (d.escape = none → ((∃ fault, (w.write cells).1 = .error fault) ↔
        (∃ cell ∈ cells, Dialect.charOfByte d.delimiter ∈ cell.toList ∨ '\n' ∈ cell.toList ∨
            '\r' ∈ cell.toList) ∨
          options.allowComments = true ∧ ∃ cell, cells.head? = some cell ∧
            cell.toList.head? = some '#')) ∧
      ((∃ fault, (w.write cells).1 = .error fault) → (w.write cells).2 = w)) ∧
    ∀ (records : List (List String)) (source : Source), (∀ cells ∈ records, cells ≠ []) →
      source.bytes = ((Writer.mk d []).writeAll records).2.output → source.ending = .complete →
      (Framing.Reader.ofSource d source).outcomes =
        written (frame d) 1 ((Writer.mk d []).accepted records) := by
  constructor
  · rintro w cells rfl
    have hresult : ∀ fault, (w.write cells).1 = .error fault ↔
        Plain.write w.dialect cells = .error fault := by
      intro fault
      cases h : Plain.write w.dialect cells <;> simp [Writer.write, h]
    refine ⟨fun he => ?_, fun he => ?_, fun ⟨fault, h⟩ => Writer.write_of_error h⟩
    · cases h : (w.write cells).1 with
      | ok u => rfl
      | error fault =>
        have hok := write_isOk he cells
        rw [(hresult fault).1 h] at hok
        cases hok
    · simp only [hresult]
      rw [write_eq_error_iff he, disturbs_iff hc]
  · intro records source hne hb he
    have hquote : d.quote.isSome = false := by
      rw [(Dialect.of_compile hc).2.1, hquoting]
      rfl
    have hd : Separable (Writer.mk d []).dialect :=
      separable_of_compile hc hdelimiter hescape hcomment
    rw [Framing.Reader.ofSource, hquote, if_neg Bool.false_ne_true]
    exact Writer.outcomes_writeAll hd rfl hne hb he

end Compiled

/-- The records of `escapingRecords` are read back, each with the line on which it starts. -/
theorem plain_run_lossless_escaping :
    (Framing.Reader.ofSource escapingDialect (Source.ofBytes
      ((Writer.mk escapingDialect []).writeAll escapingRecords).2.output)).outcomes =
      [.record 1 ["#", ""], .record 2 ["a,\\", "\r\n"], .record 4 [""]] := by
  have hcompile : Dialect.compile [] escapingOptions = .ok escapingDialect := by rfl
  obtain ⟨-, hrun⟩ :=
    plain_run_lossless hcompile rfl (by decide) (by decide) (fun _ => by decide)
  have houtcomes := hrun escapingRecords _ (by decide) (Source.bytes_ofBytes _) rfl
  rw [houtcomes]
  decide

end TypedCsv.Framing.Plain
