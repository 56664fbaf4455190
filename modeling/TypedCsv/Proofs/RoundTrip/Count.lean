import TypedCsv.Proofs.Leniency
import TypedCsv.Proofs.RoundTrip.Encoded

/-! # Every row is accounted for

Where the characters of a dialect can be told from line breaks and from comments, the lenient
policy finds or counts as many records as rows have been written, whatever the rows hold. The one
exception comes from the byte order mark that a quoted input may start with: a first row that is
the mark and nothing else becomes a blank line (`Decoder.rows_accounted_iff`). An escape that is the
comment marker loses whole rows (`Decoder.rows_lost_as_comments`).

* `Framing.Counts`: as many records as there should be, and nothing else.
* `Quoted.counts_of_opening`: records behind a mark and blank lines.
* `Quoted.mark_prefix_cases`: what has been written if the output starts with the mark. -/

namespace TypedCsv

namespace Framing

/-- There are so many outcomes, and each stands for a record. -/
def Counts (outcomes : List Outcome) (n : Nat) : Prop :=
  outcomes.length = n ∧ ∀ outcome ∈ outcomes, outcome.isRecord = true

/-- Without outcomes nothing is counted. -/
theorem Counts.nil : Counts [] 0 :=
  ⟨rfl, by simp⟩

/-- A record in front counts as one more. -/
theorem Counts.cons {outcomes : List Outcome} {n : Nat} (h : Counts outcomes n) (line : Nat)
    (cells : List String) : Counts (.record line cells :: outcomes) (n + 1) :=
  ⟨congrArg (· + 1) h.1, List.forall_mem_cons.2 ⟨rfl, h.2⟩⟩

/-- Written records are found in their number. -/
theorem counts_written (frame : List String → List UInt8) (line : Nat)
    (records : List (List String)) : Counts (written frame line records) records.length := by
  induction records generalizing line with
  | nil => exact .nil
  | cons cells records ih => exact (ih _).cons line cells

namespace Quoted

variable {d : Dialect} {quote : UInt8}

/-! ## Reading behind a mark -/

/-- Blank lines before a record change nothing. -/
theorem feed_blank {blank : List UInt8} (h : ∀ byte ∈ blank, isTerminator byte = true) :
    Machine.start.feed d blank = some Machine.start := by
  induction blank with
  | nil => rfl
  | cons byte blank ih =>
    obtain ⟨hbyte, hblank⟩ := List.forall_mem_cons.1 h
    have hstep : step d Machine.start byte = .more Machine.start := if_pos hbyte
    rw [Machine.feed_cons hstep, ih hblank]

/-- Bytes that end no record are read up to the end of the input. -/
theorem scan_of_feed_all {m n : Machine} (position : Position) {source : Source}
    {body : List UInt8} (hbody : m.feed d body = some n) (h : source.bytes = body) :
    scan d m position source = .ended n := by
  induction body generalizing m position source with
  | nil =>
    cases hbody
    exact scan_of_next?_eq_none ((Source.next?_eq_none_iff _).2 h)
  | cons byte body ih =>
    obtain ⟨rest, hnext, hrest, -⟩ := Source.next?_of_bytes h
    rw [Machine.feed] at hbody
    split at hbody
    · next k hk => rw [scan_of_next? hnext, hk]; exact ih _ hbody hrest
    · cases hbody

/-- A record behind blank lines is read, wherever the reader starts. -/
theorem next_of_opening (hd : Separable d quote) {r : Reader} (hr : r.dialect = d)
    (hopen : r.closed = false) {blank : List UInt8}
    (hblank : ∀ byte ∈ blank, isTerminator byte = true) {cells : List String} (hne : cells ≠ [])
    {tail : List UInt8} (hb : r.opening.1.bytes = blank ++ (write d cells ++ tail)) :
    r.next.1 = .record r.position.line cells ∧ r.next.2.dialect = d ∧ r.next.2.closed = false ∧
      r.next.2.source.bytes = tail ∧ r.next.2.source.ending = r.opening.1.ending ∧
      0 < r.next.2.position.byte := by
  obtain ⟨bytes, m, hwrite, hfeed, hstep⟩ := feed_write hd hne
  subst hr
  have hbody : Machine.start.feed r.dialect (blank ++ bytes) = some m := by
    rw [Machine.feed_append (feed_blank hblank), hfeed]
  obtain ⟨rest, hscan, hbytes, hending⟩ :=
    scan_of_feed r.opening.2 hbody hstep
      (show r.opening.1.bytes = blank ++ bytes ++ Source.lineFeed :: tail by
        rw [hb, hwrite]; simp)
  have hcells : decodeCells 0 (cells.map cellBytes) = .ok cells := decodeCells_map_cellBytes 0 cells
  simp only [Reader.next, hopen, hscan, Reader.outcome, hcells, hbytes, hending,
    Position.nextRecord, byte_foldl_advance, Bool.false_eq_true, if_false, true_and,
    List.length_append, List.length_singleton]
  exact Nat.succ_pos _

/-- Behind blank lines every record is found. -/
theorem counts_of_opening (hd : Separable d quote) {r : Reader} (hr : r.dialect = d)
    (hopen : r.closed = false) (he : r.opening.1.ending = .complete) {blank : List UInt8}
    (hblank : ∀ byte ∈ blank, isTerminator byte = true) {records : List (List String)}
    (hne : ∀ cells ∈ records, cells ≠ [])
    (hb : r.opening.1.bytes = blank ++ records.flatMap (write d)) :
    Counts (Framing.Reader.quoted r).outcomes records.length := by
  cases records with
  | nil =>
    have hscan : scan r.dialect Machine.start r.opening.2 r.opening.1 = .ended Machine.start :=
      scan_of_feed_all _ (feed_blank hblank) (by simpa using hb)
    have hfinished : r.next.1 = .finished := by
      have hend : Machine.start.atEnd = none := rfl
      simp [Reader.next, hopen, hscan, he, hend]
    rw [Framing.Reader.outcomes_of_finished (r := .quoted r) hfinished]
    exact .nil
  | cons cells records =>
    obtain ⟨hne, hnes⟩ := List.forall_mem_cons.1 hne
    rw [List.flatMap_cons] at hb
    obtain ⟨hout, hdialect, hclosed, hbytes, hending, hbyte⟩ :=
      next_of_opening hd hr hopen hblank hne hb
    rw [Framing.Reader.outcomes_of_record (r := .quoted r) hout]
    -- no mark is passed over behind the first record
    have hrest : (Framing.Reader.quoted r.next.2).outcomes =
        written (write d) r.next.2.position.line records :=
      outcomes_of_writes hd hdialect hclosed (hending.trans he) (fun h => by omega) hnes hbytes
    rw [Framing.Reader.next, hrest]
    exact (counts_written _ _ records).cons _ _

/-- Behind a mark and blank lines every record is found as well. -/
theorem counts_behind_mark (hd : Separable d quote) (blank : List UInt8)
    (hblank : ∀ byte ∈ blank, isTerminator byte = true) (records : List (List String))
    (hne : ∀ cells ∈ records, cells ≠ []) (h : blank ++ records.flatMap (write d) ≠ []) :
    Counts (Framing.Reader.quoted (Reader.ofSource d (Source.ofBytes
      (byteOrderMark ++ (blank ++ records.flatMap (write d)))))).outcomes records.length := by
  obtain ⟨byte, bytes, hbytes⟩ := List.exists_cons_of_ne_nil h
  -- a mark with bytes behind it is passed over
  have hopening : (Reader.ofSource d (Source.ofBytes (byteOrderMark ++ byte :: bytes))).opening.1 =
      Source.ofBytes (byte :: bytes) := rfl
  rw [hbytes]
  exact counts_of_opening hd rfl rfl (by rw [hopening]; rfl) hblank hne
    (by rw [hopening, Source.bytes_ofBytes, hbytes])

/-! ## Writing a mark -/

/-- The bytes of a record behind its first cell do not depend on that cell. -/
theorem exists_body_cons (d : Dialect) (cells : List String) :
    ∃ rest, (∀ byte, rest.head? = some byte → byte = d.delimiter) ∧
      ∀ cell, body d (cell :: cells) = frameCell d (doubled d (cellBytes cell)) ++ rest := by
  cases cells with
  | nil => exact ⟨[], by simp, fun cell => by simp [body]⟩
  | cons next cells =>
    exact ⟨d.delimiter :: body d (next :: cells), by simp [eq_comm], fun cell => by simp [body]⟩

/-- A cell without special bytes stands as it is. -/
theorem frameCell_doubled_eq_self {cell : List UInt8}
    (h : ∀ byte ∈ doubled d cell, isSpecial d byte = false) :
    frameCell d (doubled d cell) = cell := by
  rw [frameCell, if_neg (by simpa using h), doubled_eq_self h]

/-- A record whose first cell stands as it is does not start with a line feed. -/
theorem head?_body_ne_lineFeed (hd : Separable d quote) {cell : String}
    (hplain : ∀ byte ∈ doubled d (cellBytes cell), isSpecial d byte = false)
    (cells : List String) : (body d (cell :: cells)).head? ≠ some Source.lineFeed := by
  obtain ⟨rest, hrest, hbody⟩ := exists_body_cons d cells
  rw [hbody, frameCell_doubled_eq_self hplain]
  rw [doubled_eq_self hplain] at hplain
  intro hhead
  cases hcell : cellBytes cell with
  | nil =>
    rw [hcell, List.nil_append] at hhead
    exact absurd hd.delimiter_notTerminator (by simp [← hrest _ hhead, isTerminator])
  | cons byte bytes =>
    rw [hcell] at hhead
    have hspecial := hplain byte (by rw [hcell]; exact List.mem_cons_self)
    cases hhead
    simp [isSpecial, isTerminator] at hspecial

/-- An output that starts with the mark starts with its character, in a cell that stands as it
is. -/
theorem exists_cons_of_mark_prefix (hd : Separable d quote) (hwf : d.WellFormed) {cell : String}
    {cells : List String} {tail : List UInt8}
    (h : byteOrderMark <+: write d (cell :: cells) ++ tail) :
    (∀ byte ∈ doubled d (cellBytes cell), isSpecial d byte = false) ∧
      ∃ text, cell.toList = '\uFEFF' :: text := by
  obtain ⟨rest, hrest, hbody⟩ := exists_body_cons d cells
  have hquote := quoteByte_eq hd.quote_eq
  -- neither a quote nor a delimiter starts the mark
  have hhead {byte : UInt8} (hlt : byte.toNat < 128) (others : List UInt8) :
      ¬ byteOrderMark <+: byte :: others := by
    intro hmark
    obtain ⟨hbyte, -⟩ := List.cons_prefix_cons.1 hmark
    rw [← hbyte] at hlt
    exact absurd hlt (by decide)
  have hnoQuote := hhead (hwf.quote_lt quote hd.quote_eq)
  rw [write_eq hd.escape_lt, hquote, hbody] at h
  by_cases hany : (doubled d (cellBytes cell)).any (isSpecial d) = true
  · -- the first cell stands in quotes
    rw [frameCell, if_pos hany, hquote] at h
    exact absurd h (hnoQuote _)
  have hplain : ∀ byte ∈ doubled d (cellBytes cell), isSpecial d byte = false := by
    simpa using hany
  rw [frameCell_doubled_eq_self hplain] at h
  refine ⟨hplain, ?_⟩
  cases hcell : cell.toList with
  | nil =>
    -- the output starts with the delimiter, or with two quotes
    rw [cellBytes, hcell, Utf8.encode_nil, List.nil_append] at h
    cases rest with
    | nil => exact absurd h (hnoQuote _)
    | cons byte rest =>
      rw [hrest byte rfl] at h
      exact absurd h (hhead hwf.delimiter_lt _)
  | cons c text =>
    have hmark : byteOrderMark = String.utf8EncodeChar '\uFEFF' := by decide
    rw [if_neg (by simp [cellBytes, hcell, String.utf8EncodeChar_ne_nil]), cellBytes, hcell,
      Utf8.encode_cons, hmark] at h
    obtain ⟨last, hlast⟩ := h
    simp only [List.append_assoc] at hlast
    -- a character is determined by the bytes that start with its form
    obtain rfl : '\uFEFF' = c := Utf8.eq_of_utf8EncodeChar_append_eq hlast
    exact ⟨text, rfl⟩

/-- If the output starts with the mark, it goes on with a blank line or with another record, which
is no blank line. -/
theorem mark_prefix_cases (hd : Separable d quote) (hwf : d.WellFormed) {cell : String}
    {cells : List String} {tail : List UInt8}
    (h : byteOrderMark <+: write d (cell :: cells) ++ tail) :
    write d (cell :: cells) = byteOrderMark ++ [Source.lineFeed] ∨
      ∃ stripped, stripped ≠ [] ∧ write d (cell :: cells) = byteOrderMark ++ write d stripped ∧
        (write d stripped).head? ≠ some Source.lineFeed := by
  obtain ⟨hplain, text, hcell⟩ := exists_cons_of_mark_prefix hd hwf h
  obtain ⟨rest, -, hbody⟩ := exists_body_cons d cells
  have hbytes : cellBytes cell = byteOrderMark ++ cellBytes (String.ofList text) := by
    rw [cellBytes, hcell, Utf8.encode_cons, cellBytes, String.toList_ofList]
    rfl
  -- the rest of the cell stands as it is too
  have hplainText : ∀ byte ∈ doubled d (cellBytes (String.ofList text)),
      isSpecial d byte = false := by
    intro byte hbyte
    refine hplain byte ?_
    rw [hbytes, doubled, List.flatMap_append]
    exact List.mem_append_right _ hbyte
  have hstripped : body d (String.ofList text :: cells) =
      cellBytes (String.ofList text) ++ rest := by
    rw [hbody, frameCell_doubled_eq_self hplainText]
  have hwhole : body d (cell :: cells) = byteOrderMark ++ body d (String.ofList text :: cells) := by
    rw [hstripped, hbody, frameCell_doubled_eq_self hplain, hbytes, List.append_assoc]
  have hne : body d (cell :: cells) ≠ [] := by simp [hwhole, byteOrderMark]
  rw [write_eq hd.escape_lt, if_neg hne, hwhole, List.append_assoc]
  by_cases hblank : body d (String.ofList text :: cells) = []
  · exact Or.inl (by rw [hblank, List.nil_append])
  · refine Or.inr ⟨String.ofList text :: cells, by simp, ?_⟩
    rw [write_eq hd.escape_lt, if_neg hblank, List.head?_append_of_ne_nil _ hblank]
    exact ⟨rfl, head?_body_ne_lineFeed hd hplainText cells⟩

/-- What is found in the records that have been written: all of them, but not a first one that is
taken for a mark and a blank line. -/
theorem counts_of_writes (hd : Separable d quote) (hwf : d.WellFormed)
    {records : List (List String)} (hne : ∀ cells ∈ records, cells ≠ []) :
    ∃ found, Counts (Framing.Reader.quoted (Reader.ofSource d
        (Source.ofBytes (records.flatMap (write d))))).outcomes found ∧
      (byteOrderMark ++ [Source.lineFeed] <+: records.flatMap (write d) ∧
          records.length = found + 1 ∨
        ¬ byteOrderMark ++ [Source.lineFeed] <+: records.flatMap (write d) ∧
          records.length = found) := by
  by_cases hmark : byteOrderMark <+: records.flatMap (write d)
  · cases records with
    | nil => exact absurd hmark (by simp [byteOrderMark])
    | cons first records =>
      obtain ⟨hfirst, hnes⟩ := List.forall_mem_cons.1 hne
      obtain ⟨cell, cells, rfl⟩ := List.exists_cons_of_ne_nil hfirst
      rw [List.flatMap_cons] at hmark ⊢
      obtain hwrite | ⟨stripped, hstripped, hwrite, hhead⟩ := mark_prefix_cases hd hwf hmark
      · -- the first record is passed over
        rw [hwrite, List.append_assoc]
        refine ⟨records.length, ?_, Or.inl ⟨by simp, rfl⟩⟩
        exact counts_behind_mark hd [Source.lineFeed] (by simp [isTerminator]) records hnes
          (by simp)
      · -- the first record has lost its first character
        obtain ⟨byte, bytes, hbytes⟩ := List.exists_cons_of_ne_nil
          (l := write d stripped) (by rw [write_eq hd.escape_lt]; simp)
        rw [hwrite, List.append_assoc]
        refine ⟨(stripped :: records).length, ?_, Or.inr ⟨?_, rfl⟩⟩
        · exact counts_behind_mark hd [] (by simp) (stripped :: records)
            (List.forall_mem_cons.2 ⟨hstripped, hnes⟩) (by simp [hbytes])
        · rw [List.prefix_append_right_inj]
          rw [hbytes] at hhead ⊢
          exact fun hblank => hhead (congrArg some (List.cons_prefix_cons.1 hblank).1.symm)
  · refine ⟨records.length, ?_, Or.inr ⟨fun h => hmark ((List.prefix_append _ _).trans h), rfl⟩⟩
    rw [outcomes_of_writes hd rfl rfl rfl (fun _ => by rwa [Reader.ofSource, Source.bytes_ofBytes])
      hne (Source.bytes_ofBytes _)]
    exact counts_written _ _ _

end Quoted

/-! ## Counting records -/

variable {rowType : RowType} {options : Options} {d : Dialect}

/-- A quoted output starts with a record that is read as a byte order mark and a blank line. -/
def StartsBlank (d : Dialect) (bytes : List UInt8) : Prop :=
  d.quote.isSome = true ∧ Quoted.byteOrderMark ++ [Source.lineFeed] <+: bytes

/-- In both framings all records that were written are found again, but not one that makes the
output start blank. -/
theorem counts_of_framed (hc : Dialect.compile rowType options = .ok d)
    (hclear : ∀ byte, d.Uses byte → byte ≠ Source.lineFeed ∧ byte ≠ Source.carriageReturn ∧
      (options.allowComments = true → byte ≠ Dialect.hash))
    {records : List (List String)} {framed : List (List UInt8)}
    (hne : ∀ cells ∈ records, cells ≠ [])
    (hframed : List.Forall₂ (fun cells record => Encoder.frame d cells = .ok record)
      records framed) :
    ∃ found, Counts (Reader.ofSource d (Source.ofBytes framed.flatten)).outcomes found ∧
      (StartsBlank d framed.flatten ∧ records.length = found + 1 ∨
        ¬ StartsBlank d framed.flatten ∧ records.length = found) := by
  cases hq : d.quote with
  | none =>
    obtain ⟨frame, houtcomes⟩ := outcomes_of_framed hc hclear hne hframed
      (Source.bytes_ofBytes framed.flatten) rfl (by simp [hq])
    exact ⟨records.length, houtcomes ▸ counts_written frame 1 records,
      Or.inr ⟨by simp [StartsBlank, hq], rfl⟩⟩
  | some quote =>
    have hquoted : d.quote.isSome = true := by rw [hq]; rfl
    obtain ⟨quote', hd⟩ := exists_separable hc hclear hquoted
    obtain ⟨found, hcounts, hmark⟩ := Quoted.counts_of_writes hd (.of_compile hc) hne
    rw [Reader.ofSource, if_pos hquoted, StartsBlank, flatten_eq_flatMap_write hquoted hframed]
    exact ⟨found, hcounts, by simpa [hquoted] using hmark⟩

end Framing

/-! ## Counting rows -/

namespace Decoder

variable {rowType : RowType} {options : Options} {e : Encoder} {d : Decoder}

/-- The lenient policy finds or skips each record. -/
theorem length_decoded_lenient (hp : d.policy = .lenient) {outcomes : List Framing.Outcome}
    (h : ∀ outcome ∈ outcomes, outcome.isRecord = true) (skipped : Nat) :
    (rowsOf (d.decoded skipped outcomes).1).length + (d.decoded skipped outcomes).2 =
      skipped + outcomes.length := by
  induction outcomes generalizing skipped with
  | nil => rw [decoded_nil]; simp
  | cons outcome outcomes ih =>
    obtain ⟨houtcome, houtcomes⟩ := List.forall_mem_cons.1 h
    cases hc : d.convert outcome with
    | row row =>
      rw [decoded_of_row hc, rowsOf_cons_ok, List.length_cons, List.length_cons]
      have := ih houtcomes skipped
      omega
    | rejected error =>
      rw [decoded_of_rejected hc, if_pos hp, ih houtcomes, List.length_cons]
      omega
    | failed fault =>
      rw [eq_failed_of_convert hc] at houtcome
      cases houtcome
    | finished =>
      rw [Rows.eq_finished_of_convert hc] at houtcome
      cases houtcome

/-- **Every row that is written is accounted for.** In a dialect whose characters are no ends of
lines and no comment marker the lenient policy finds or skips exactly one record for each row that
has been written, unless the first row is taken for a byte order mark and a blank line. -/
theorem rows_accounted_iff (hc : Encoder.compile rowType options = .ok e)
    (hcolumns : rowType ≠ [])
    (hclear : ∀ byte, e.dialect.Uses byte → byte ≠ Source.lineFeed ∧
      byte ≠ Source.carriageReturn ∧ (options.allowComments = true → byte ≠ Dialect.hash))
    {rows : List Row} {bytes : List UInt8} (hencode : e.encode rows = .ok bytes) :
    ∃ d, compile rowType options none .lenient = .ok d ∧
      ((d.rows (Source.ofBytes bytes)).found.length +
          (d.rows (Source.ofBytes bytes)).items.2.skipped = rows.length ↔
        ¬ Framing.StartsBlank e.dialect bytes) := by
  obtain ⟨hdialect, rfl⟩ := Encoder.compile_eq_ok_iff.1 hc
  obtain ⟨records, framed, hrecords, hframed, rfl⟩ := Encoder.records_of_encode hencode
  have hne : ∀ cells ∈ records, cells ≠ [] := by
    clear hframed hencode
    induction hrecords with
    | nil => simp
    | cons hwrite _ ih =>
      refine List.forall_mem_cons.2 ⟨?_, ih⟩
      rintro rfl
      exact hcolumns (List.length_eq_zero_iff.1 (CellWriter.write_eq_ok_iff.1 hwrite).2.1.symm)
  obtain ⟨found, ⟨hlength, hrecord⟩, hfound⟩ :=
    Framing.counts_of_framed hdialect hclear hne hframed
  refine ⟨(whole e.dialect e.rowType).withPolicy .lenient,
    compile_withPolicy (compile_whole hdialect), ?_⟩
  have hcount := length_decoded_lenient
    (d := (whole e.dialect e.rowType).withPolicy .lenient) rfl hrecord 0
  have hrows : rows.length = records.length := hrecords.length_eq
  have houtcomes : ((whole e.dialect e.rowType).withPolicy .lenient).outcomes
      (Source.ofBytes framed.flatten) =
        (Framing.Reader.ofSource e.dialect (Source.ofBytes framed.flatten)).outcomes := rfl
  rw [found_rows, skipped_rows, houtcomes, hcount, hlength, hrows]
  rcases hfound with ⟨hblank, hrecords⟩ | ⟨hblank, hrecords⟩
  · simp [hblank, hrecords]
  · simp [hblank, hrecords]

/-- A table of texts. -/
def textType : RowType :=
  [⟨"text", .string, true⟩]

/-- The encoder of single texts with comments. -/
def textEncoder : Encoder :=
  ⟨⟨Dialect.comma, some Dialect.doubleQuote, none, some Dialect.hash, ";", none⟩, textType⟩

/-- A text that starts like a comment and a null are both accounted for, but not a first text that
is nothing but a byte order mark. -/
theorem rows_accounted_iff_texts :
    ∃ d, compile textType { Options.default with allowComments := true } none .lenient =
        .ok d ∧
      (d.rows (Source.ofBytes (Utf8.encode "\"#\"\n\"\"\n".toList))).found.length +
        (d.rows (Source.ofBytes (Utf8.encode "\"#\"\n\"\"\n".toList))).items.2.skipped = 2 ∧
      (d.rows (Source.ofBytes (Utf8.encode "\uFEFF\nb\n".toList))).found.length +
        (d.rows (Source.ofBytes (Utf8.encode "\uFEFF\nb\n".toList))).items.2.skipped ≠ 2 := by
  have hc : Encoder.compile textType { Options.default with allowComments := true } =
      .ok textEncoder := by rfl
  have hclear : ∀ byte, textEncoder.dialect.Uses byte → byte ≠ Source.lineFeed ∧
      byte ≠ Source.carriageReturn ∧ (true = true → byte ≠ Dialect.hash) := by
    rintro byte (h | h | h)
    · rw [h]
      decide
    · rw [← Option.some.inj h]
      decide
    · cases h
  have hquoted : textEncoder.encode [[some (.string "#")], [none]] =
      .ok (Utf8.encode "\"#\"\n\"\"\n".toList) := by cbv
  have hmarked : textEncoder.encode [[some (.string "\uFEFF")], [some (.string "b")]] =
      .ok (Utf8.encode "\uFEFF\nb\n".toList) := by rfl
  obtain ⟨d, hd, hfirst⟩ := rows_accounted_iff hc (by simp [textType]) hclear hquoted
  obtain ⟨d', hd', hsecond⟩ := rows_accounted_iff hc (by simp [textType]) hclear hmarked
  obtain rfl : d = d' := Except.ok.inj (hd.symm.trans hd')
  refine ⟨d, hd, hfirst.2 ?_, fun h => hsecond.1 h ?_⟩
  · rw [Framing.StartsBlank]
    decide
  · rw [Framing.StartsBlank]
    decide

/-- Options without quotes whose escape is the comment marker. -/
def hashOptions : Options :=
  { Options.default with
    quotingDisabled := true, escapeCharacter := some "#", allowComments := true }

/-- The encoder of single texts with these options. -/
def hashEncoder : Encoder :=
  ⟨⟨Dialect.comma, none, some Dialect.hash, some Dialect.hash, ";", none⟩, textType⟩

/-- An escape that is the comment marker is not refused. It does not protect a marker at the start
of a record: the whole record is taken for a comment. -/
theorem rows_lost_as_comments :
    ¬ ∀ (rowType : RowType) (options : Options) (e : Encoder) (d : Decoder) (rows : List Row)
      (bytes : List UInt8), rowType ≠ [] → Encoder.compile rowType options = .ok e →
      compile rowType options none .lenient = .ok d → e.encode rows = .ok bytes →
      (d.rows (Source.ofBytes bytes)).found.length +
        (d.rows (Source.ofBytes bytes)).items.2.skipped = rows.length := by
  intro h
  have he : Encoder.compile textType hashOptions = .ok hashEncoder := by rfl
  have hd : compile textType hashOptions none .lenient =
      .ok ((whole hashEncoder.dialect textType).withPolicy .lenient) :=
    compile_withPolicy (compile_whole (Encoder.compile_eq_ok_iff.1 he).1)
  have hencode : hashEncoder.encode [[some (.string "#")]] =
      .ok [Dialect.hash, Dialect.hash, Source.lineFeed] := by cbv
  have hcount := h _ _ _ _ _ _ (by simp [textType]) he hd hencode
  have houtcomes : ((whole hashEncoder.dialect textType).withPolicy .lenient).outcomes
      (Source.ofBytes [Dialect.hash, Dialect.hash, Source.lineFeed]) = [] := by decide +kernel
  rw [found_rows, skipped_rows, houtcomes] at hcount
  cases hcount

end Decoder

end TypedCsv
