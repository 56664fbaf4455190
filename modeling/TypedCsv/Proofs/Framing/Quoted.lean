import TypedCsv.Proofs.Dialect
import TypedCsv.Proofs.Source
import TypedCsv.Proofs.Framing.Record

/-! # The quoted framing is invertible

Records that are written are read back cell for cell (`Quoted.outcomes_of_writes`). The escape is
undone inside quotes only, so this rests on the quotes around every cell that holds an escape:
inside them each byte of a cell has the form `Quoted.inner`, which the machine reads as the byte.

* `Machine.feed`: the machine after bytes that end no record.
* `Machine.feed_frameCell`: a framed cell is read as the cell, and the machine stands outside
  quotes after it. -/

namespace TypedCsv.Framing.Quoted

variable {d : Dialect}

/-- The characters of a dialect can be told from the ends of lines and from comments. -/
structure Separable (d : Dialect) (quote : UInt8) : Prop where
  quote_eq : d.quote = some quote
  delimiter_notTerminator : isTerminator d.delimiter = false
  quote_notTerminator : isTerminator quote = false
  quote_ne_delimiter : quote ≠ d.delimiter
  escape_ne_quote : d.escape ≠ some quote
  escape_lt : ∀ escape, d.escape = some escape → escape.toNat < 128
  comment_ne_delimiter : d.comment ≠ some d.delimiter
  comment_ne_quote : d.comment ≠ some quote

/-! ## Runs of the machine -/

namespace Machine

/-- The machine after bytes that end no record. -/
def feed (d : Dialect) (m : Machine) : List UInt8 → Option Machine
  | [] => some m
  | byte :: rest =>
    match step d m byte with
    | .more m => m.feed d rest
    | .record _ => none

/-- Without bytes the machine stays as it is. -/
@[simp] theorem feed_nil (m : Machine) : m.feed d [] = some m := rfl

/-- The machine is fed one byte after the other. -/
theorem feed_cons {m n : Machine} {byte : UInt8} (h : step d m byte = .more n)
    (rest : List UInt8) : m.feed d (byte :: rest) = n.feed d rest := by
  rw [feed, h]

/-- The machine is fed bytes behind those that it has been fed. -/
theorem feed_append {m n : Machine} {xs : List UInt8} (h : m.feed d xs = some n)
    (ys : List UInt8) : m.feed d (xs ++ ys) = n.feed d ys := by
  induction xs generalizing m with
  | nil =>
    cases h
    rfl
  | cons byte xs ih =>
    rw [feed] at h
    rw [List.cons_append, feed]
    split at h
    · exact ih h
    · cases h

end Machine

/-- The place after some more bytes. -/
theorem line_foldl_advance (position : Position) (bytes : List UInt8) :
    (bytes.foldl Position.advance position).line =
      position.line + bytes.count Source.lineFeed := by
  induction bytes generalizing position with
  | nil => rfl
  | cons byte bytes ih =>
    rw [List.foldl_cons, ih, List.count_cons, Position.advance]
    by_cases h : byte = Source.lineFeed
    · simp [h]
      omega
    · simp [h]

/-- Each byte moves the place on by one. -/
theorem byte_foldl_advance (position : Position) (bytes : List UInt8) :
    (bytes.foldl Position.advance position).byte = position.byte + bytes.length := by
  induction bytes generalizing position with
  | nil => rfl
  | cons byte bytes ih =>
    rw [List.foldl_cons, ih, List.length_cons, Position.advance]
    dsimp only
    omega

section Scan

variable {m n : Machine} {position : Position} {source rest : Source} {byte : UInt8}

/-- A scan ends with its input. -/
theorem scan_of_next?_eq_none (h : source.next? = none) : scan d m position source = .ended m := by
  rw [scan.eq_def]
  split
  · rfl
  · next hn => rw [h] at hn; cases hn

/-- A scan goes on byte by byte up to the end of a record. -/
theorem scan_of_next? (h : source.next? = some (byte, rest)) :
    scan d m position source =
      match step d m byte with
      | .more n => scan d n (position.advance byte) rest
      | .record cells => .record cells (position.advance byte) rest := by
  rw [scan.eq_def]
  split
  · next hn => rw [h] at hn; cases hn
  · next hn =>
    rw [h] at hn
    cases hn
    rfl

/-- Bytes that end no record and then one that does make a record. -/
theorem scan_of_feed (position : Position) {body tail : List UInt8} {cells : List (List UInt8)}
    (hbody : m.feed d body = some n) (hbyte : step d n byte = .record cells)
    (h : source.bytes = body ++ byte :: tail) :
    ∃ rest, scan d m position source =
        .record cells ((body ++ [byte]).foldl Position.advance position) rest ∧
      rest.bytes = tail ∧ rest.ending = source.ending := by
  induction body generalizing m position source with
  | nil =>
    cases hbody
    obtain ⟨rest, hn, hb, he⟩ := Source.next?_of_bytes (by simpa using h)
    exact ⟨rest, by rw [scan_of_next? hn, hbyte]; rfl, hb, he⟩
  | cons b body ih =>
    obtain ⟨rest, hn, hb, he⟩ := Source.next?_of_bytes (by simpa using h)
    rw [Machine.feed] at hbody
    split at hbody
    · next k hk =>
      obtain ⟨last, hscan, hlast, hending⟩ := ih (position.advance b) hbody hb
      exact ⟨last, by rw [scan_of_next? hn, hk]; exact hscan, hlast, hending.trans he⟩
    · cases hbody

end Scan

/-! ## Bytes of a cell -/

/-- The byte that quotes cells is the quote of the dialect. -/
theorem quoteByte_eq {quote : UInt8} (h : d.quote = some quote) : quoteByte d = quote := by
  rw [quoteByte, h, Option.getD_some]

/-- The bytes of a cell with every escape doubled. -/
def doubled (d : Dialect) (cell : List UInt8) : List UInt8 :=
  cell.flatMap fun byte => if d.escape = some byte then [byte, byte] else [byte]

/-- Doubling the escape in a text doubles it in the bytes. -/
theorem cellBytes_doubleEscape (h : ∀ escape, d.escape = some escape → escape.toNat < 128)
    (cell : String) : cellBytes (doubleEscape d cell) = doubled d (cellBytes cell) := by
  unfold doubleEscape doubled
  cases he : d.escape with
  | none => simp
  | some escape =>
    simp only [cellBytes, String.toList_ofList, Utf8.encode_flatMap_double (h escape he),
      Option.some.injEq, eq_comm]

/-- A cell without a byte that needs quotes has no escape either. -/
theorem doubled_eq_self {cell : List UInt8}
    (h : ∀ byte ∈ doubled d cell, isSpecial d byte = false) : doubled d cell = cell := by
  have hescape : ∀ byte ∈ cell, d.escape ≠ some byte := by
    intro byte hb he
    have hmem : byte ∈ doubled d cell :=
      List.mem_flatMap.2 ⟨byte, hb, by rw [if_pos he]; exact List.mem_cons_self⟩
    simpa [isSpecial, he] using h byte hmem
  rw [doubled, List.flatMap_congr (g := fun byte => [byte]) fun byte hb => if_neg (hescape byte hb)]
  exact List.flatMap_singleton' cell

/-- The form of a byte of a cell inside quotes, its own doubling included. -/
def inner (d : Dialect) (byte : UInt8) : List UInt8 :=
  if d.escape = some byte then [byte, byte] else quotedByte d byte

/-- Quoting a cell with doubled escapes gives each byte its inner form. -/
theorem flatMap_quotedByte_doubled {quote : UInt8} (hd : Separable d quote) (cell : List UInt8) :
    (doubled d cell).flatMap (quotedByte d) = cell.flatMap (inner d) := by
  rw [doubled, List.flatMap_assoc]
  refine List.flatMap_congr fun byte _ => ?_
  by_cases he : d.escape = some byte
  · have hne : byte ≠ quoteByte d := by
      intro hb
      rw [quoteByte_eq hd.quote_eq] at hb
      exact hd.escape_ne_quote (hb ▸ he)
    simp [inner, he, quotedByte, hne]
  · simp [inner, he]

/-- Inside quotes the form of a byte is read as the byte. -/
theorem feed_inner {quote : UInt8} (hd : Separable d quote) (cells : List (List UInt8))
    (current : List UInt8) (byte : UInt8) :
    Machine.feed d ⟨.inQuotes, cells, current⟩ (inner d byte) =
      some ⟨.inQuotes, cells, byte :: current⟩ := by
  have hq := hd.quote_eq
  have heq := hd.escape_ne_quote
  unfold inner quotedByte quoteByte
  rw [hq]
  by_cases he : d.escape = some byte
  · -- the first of two escapes protects the second
    have hne : ¬ quote = byte := fun hb => heq (hb ▸ he)
    simp [he, Machine.feed, step, hq, hne, Machine.keep]
  · by_cases hb : byte = quote
    · -- a quote has an escape before it, or is doubled where there is none
      cases hescape : d.escape with
      | none => simp [hb, Machine.feed, step, hq, Machine.keep]
      | some escape =>
        have hne : ¬ quote = escape := fun h => heq (h ▸ hescape)
        have hne' : ¬ escape = quote := fun h => hne h.symm
        simp [hb, Machine.feed, step, hq, hescape, hne, hne', Machine.keep]
    · have hb' : ¬ quote = byte := fun h => hb h.symm
      simp [he, hb, hb', Machine.feed, step, hq, Machine.keep]

/-- Inside quotes the form of a cell is read as the cell. -/
theorem feed_flatMap_inner {quote : UInt8} (hd : Separable d quote) (cells : List (List UInt8))
    (current cell : List UInt8) :
    Machine.feed d ⟨.inQuotes, cells, current⟩ (cell.flatMap (inner d)) =
      some ⟨.inQuotes, cells, cell.reverse ++ current⟩ := by
  induction cell generalizing current with
  | nil => rfl
  | cons byte cell ih =>
    rw [List.flatMap_cons, Machine.feed_append (feed_inner hd cells current byte), ih]
    simp

/-! ## Cells and records -/

/-- Whether the machine stands outside quotes, where a delimiter ends a cell. -/
def Mode.IsOutside (mode : Mode) : Prop :=
  mode = .recordStart ∨ mode = .cellStart ∨ mode = .inCell ∨ mode = .afterQuote

/-- Where a cell may start a quote opens it. -/
theorem step_openingQuote {quote : UInt8} (hd : Separable d quote) {mode : Mode}
    (h : mode = .recordStart ∨ mode = .cellStart) (cells : List (List UInt8)) :
    step d ⟨mode, cells, []⟩ quote = .more ⟨.inQuotes, cells, []⟩ := by
  have hq := hd.quote_eq
  rcases h with rfl | rfl
  · simp [step, hd.quote_notTerminator, hd.comment_ne_quote, stepCellStart, hq]
  · simp [step, stepCellStart, hq]

/-- Inside quotes a quote closes the cell, or is the first of two. -/
theorem step_closingQuote {quote : UInt8} (hd : Separable d quote) (cells : List (List UInt8))
    (current : List UInt8) :
    step d ⟨.inQuotes, cells, current⟩ quote = .more ⟨.afterQuote, cells, current⟩ := by
  simp [step, hd.quote_eq]

/-- Outside quotes a delimiter ends a cell. -/
theorem step_delimiter {quote : UInt8} (hd : Separable d quote) {m : Machine}
    (h : m.mode.IsOutside) : step d m d.delimiter = .more m.endCell := by
  have hq := hd.quote_eq
  have hqd : ¬ quote = d.delimiter := hd.quote_ne_delimiter
  have hc := hd.comment_ne_delimiter
  have ht := hd.delimiter_notTerminator
  rcases h with h | h | h | h <;>
    simp [step, h, stepCellStart, stepOutside, hq, hqd, hc, ht]

/-- Outside quotes a line feed ends a record that has started. -/
theorem step_lineFeed {quote : UInt8} (hd : Separable d quote) {m : Machine}
    (h : m.mode.IsOutside) (hstart : m.mode ≠ .recordStart) :
    step d m Source.lineFeed = .record m.finished := by
  have hq := hd.quote_eq
  have hlf : isTerminator Source.lineFeed = true := rfl
  have hql : ¬ quote = Source.lineFeed := by
    rintro rfl
    exact absurd hd.quote_notTerminator (by simp [hlf])
  have hdl : ¬ Source.lineFeed = d.delimiter := by
    intro he
    exact absurd hd.delimiter_notTerminator (by simp [← he, hlf])
  rcases h with h | h | h | h
  · exact absurd h hstart
  all_goals simp [step, h, stepCellStart, stepOutside, hq, hql, hdl, hlf]

/-- Bytes without a special one are read as they stand inside a cell. -/
theorem feed_inCell (cells : List (List UInt8))
    (current : List UInt8) {cell : List UInt8} (h : ∀ byte ∈ cell, isSpecial d byte = false) :
    Machine.feed d ⟨.inCell, cells, current⟩ cell =
      some ⟨.inCell, cells, cell.reverse ++ current⟩ := by
  induction cell generalizing current with
  | nil => rfl
  | cons byte cell ih =>
    obtain ⟨hbyte, hcell⟩ := List.forall_mem_cons.1 h
    simp only [isSpecial, Bool.or_eq_false_iff, beq_eq_false_iff_ne] at hbyte
    obtain ⟨⟨⟨⟨hdelimiter, -⟩, hterminator⟩, -⟩, -⟩ := hbyte
    have hstep : step d ⟨.inCell, cells, current⟩ byte =
        .more ⟨.inCell, cells, byte :: current⟩ := by
      simp [step, stepOutside, hdelimiter, hterminator, Machine.keep]
    rw [Machine.feed_cons hstep, ih _ hcell]
    simp

/-- Where a cell may start its framed form is read as the cell. The machine still stands at the
start of the record only if the form is empty. -/
theorem feed_frameCell {quote : UInt8} (hd : Separable d quote) {m : Machine}
    (hm : m.mode = .recordStart ∨ m.mode = .cellStart) (hcurrent : m.current = [])
    (cell : List UInt8) :
    ∃ n, m.feed d (frameCell d (doubled d cell)) = some n ∧ n.mode.IsOutside ∧
      n.cells = m.cells ∧ n.current = cell.reverse ∧
      (n.mode = .recordStart → m.mode = .recordStart ∧ frameCell d (doubled d cell) = []) := by
  obtain ⟨mode, cells, current⟩ := m
  obtain rfl : current = [] := hcurrent
  have hquote := quoteByte_eq hd.quote_eq
  by_cases hany : (doubled d cell).any (isSpecial d) = true
  · -- the cell stands in quotes, where each byte has its form
    have hopen := step_openingQuote hd hm cells
    have hclose := step_closingQuote hd cells (cell.reverse ++ [])
    refine ⟨⟨.afterQuote, cells, cell.reverse⟩, ?_, by simp [Mode.IsOutside], rfl, rfl, by simp⟩
    rw [frameCell, if_pos hany, hquote, flatMap_quotedByte_doubled hd, List.cons_append,
      Machine.feed_cons hopen, Machine.feed_append (feed_flatMap_inner hd cells [] cell),
      Machine.feed_cons hclose, Machine.feed_nil, List.append_nil]
  · -- the cell stands as it is, so the machine must not see a quote or a comment at its start
    have hplain : ∀ byte ∈ doubled d cell, isSpecial d byte = false := by simpa using hany
    have hself := doubled_eq_self hplain
    rw [frameCell, if_neg hany]
    rw [hself] at hplain ⊢
    cases cell with
    | nil =>
      exact ⟨⟨mode, cells, []⟩, rfl, by
        rcases hm with rfl | rfl <;> simp [Mode.IsOutside], rfl, rfl, fun h => ⟨h, rfl⟩⟩
    | cons byte cell =>
      obtain ⟨hbyte, hcell⟩ := List.forall_mem_cons.1 hplain
      simp only [isSpecial, hquote, Bool.or_eq_false_iff, beq_eq_false_iff_ne] at hbyte
      obtain ⟨⟨⟨⟨hdelimiter, hbq⟩, hterminator⟩, -⟩, hcomment⟩ := hbyte
      have hbq' : ¬ quote = byte := Ne.symm hbq
      have hstep : step d ⟨mode, cells, []⟩ byte = .more ⟨.inCell, cells, [byte]⟩ := by
        rcases hm with rfl | rfl
        · simp [step, stepCellStart, stepOutside, hd.quote_eq, hbq', hdelimiter, hterminator,
            hcomment, Machine.keep]
        · simp [step, stepCellStart, stepOutside, hd.quote_eq, hbq', hdelimiter, hterminator,
            Machine.keep]
      refine ⟨⟨.inCell, cells, cell.reverse ++ [byte]⟩, ?_, by simp [Mode.IsOutside], rfl,
        by simp, by simp⟩
      rw [Machine.feed_cons hstep, feed_inCell cells [byte] hcell]

/-- The bytes of a record before the end of its line, a record without bytes apart. -/
def body (d : Dialect) (cells : List String) : List UInt8 :=
  [d.delimiter].intercalate (cells.map fun cell => frameCell d (doubled d (cellBytes cell)))

/-- The body of a record is read as its cells. The machine still stands at the start of the record
only if there are no bytes. -/
theorem feed_body {quote : UInt8} (hd : Separable d quote) {cells : List String} (hne : cells ≠ [])
    {m : Machine} (hm : m.mode = .recordStart ∨ m.mode = .cellStart) (hcurrent : m.current = []) :
    ∃ n, m.feed d (body d cells) = some n ∧ n.mode.IsOutside ∧
      n.finished = m.cells.reverse ++ cells.map cellBytes ∧
      (n.mode = .recordStart → m.mode = .recordStart ∧ body d cells = []) := by
  induction cells generalizing m with
  | nil => exact absurd rfl hne
  | cons cell cells ih =>
    obtain ⟨n, hn, houtside, hcells, hcell, hstart⟩ :=
      feed_frameCell hd hm hcurrent (cellBytes cell)
    by_cases hlast : cells = []
    · -- the last cell is still open at the end of the body
      subst hlast
      refine ⟨n, by simpa [body] using hn, houtside, ?_, fun h => by simpa [body] using hstart h⟩
      simp [Machine.finished, hcells, hcell]
    · -- a delimiter closes the cell
      obtain ⟨k, hk, hkOutside, hkCells, hkStart⟩ :=
        ih hlast (m := n.endCell) (Or.inr rfl) rfl
      have hbody : body d (cell :: cells) =
          frameCell d (doubled d (cellBytes cell)) ++ d.delimiter :: body d cells := by
        rw [body, List.map_cons, List.intercalate_cons_of_ne_nil (by simpa using hlast),
          List.append_assoc, List.singleton_append]
        rfl
      refine ⟨k, ?_, hkOutside, ?_, fun h => absurd (hkStart h).1 (by simp [Machine.endCell])⟩
      · rw [hbody, Machine.feed_append hn, Machine.feed_cons (step_delimiter hd houtside), hk]
      · rw [hkCells]
        simp [Machine.endCell, hcells, hcell]

/-- A record is written as its body and a line feed; one without any bytes is written as an empty
pair of quotes. -/
theorem write_eq (h : ∀ escape, d.escape = some escape → escape.toNat < 128)
    (cells : List String) :
    write d cells =
      (if body d cells = [] then [quoteByte d, quoteByte d] else body d cells)
        ++ [Source.lineFeed] := by
  have hcells : (cells.map (doubleEscape d)).map (fun cell => frameCell d (cellBytes cell)) =
      cells.map fun cell => frameCell d (doubled d (cellBytes cell)) := by
    rw [List.map_map]
    exact List.map_congr_left fun cell _ => by
      rw [Function.comp_apply, cellBytes_doubleEscape h]
  simp only [write, frame, hcells, List.isEmpty_iff]
  rfl

/-- A record that is written is read by the machine as its cells. -/
theorem feed_write {quote : UInt8} (hd : Separable d quote) {cells : List String}
    (hne : cells ≠ []) :
    ∃ bytes m, write d cells = bytes ++ [Source.lineFeed] ∧
      Machine.start.feed d bytes = some m ∧
      step d m Source.lineFeed = .record (cells.map cellBytes) := by
  obtain ⟨m, hm, houtside, hfinished, hstart⟩ :=
    feed_body hd hne (m := Machine.start) (Or.inl rfl) rfl
  rw [write_eq hd.escape_lt]
  by_cases hbody : body d cells = []
  · -- a single empty cell is written as two quotes
    rw [hbody, Machine.feed_nil, Option.some.injEq] at hm
    subst hm
    have hopen := step_openingQuote hd (Or.inl rfl) []
    have hclose := step_closingQuote hd [] []
    refine ⟨[quote, quote], ⟨.afterQuote, [], []⟩,
      by rw [if_pos hbody, quoteByte_eq hd.quote_eq], ?_, ?_⟩
    · rw [Machine.start, Machine.feed_cons hopen, Machine.feed_cons hclose, Machine.feed_nil]
    · rw [step_lineFeed hd (by simp [Mode.IsOutside]) (by simp)]
      exact congrArg Step.record hfinished
  · -- the machine has left the start of the record, where a line feed would be passed over
    refine ⟨body d cells, m, by rw [if_neg hbody], hm, ?_⟩
    rw [step_lineFeed hd houtside fun h => hbody (hstart h).2, hfinished]
    rfl

/-! ## Records -/

/-- No byte order mark is passed over behind the start of an input, or where there is none. -/
theorem Reader.opening_eq {r : Reader}
    (h : r.position.byte = 0 → ¬ byteOrderMark <+: r.source.bytes) :
    r.opening = (r.source, r.position) := by
  unfold Reader.opening
  split
  · next h0 =>
    split
    · next piece pieces hp =>
      refine absurd ⟨piece ++ pieces.flatten, ?_⟩ (h h0)
      simp [Source.bytes, hp, byteOrderMark]
    · rfl
  · rfl

/-- A record that is written is read back, and the reader stands behind it. -/
theorem next_of_write {quote : UInt8} (hd : Separable d quote) {r : Reader} (hr : r.dialect = d)
    (hopen : r.closed = false) (hmark : r.position.byte = 0 → ¬ byteOrderMark <+: r.source.bytes)
    {cells : List String} (hne : cells ≠ []) {tail : List UInt8}
    (hb : r.source.bytes = write d cells ++ tail) :
    r.next.1 = .record r.position.line cells ∧ r.next.2.dialect = d ∧ r.next.2.closed = false ∧
      r.next.2.source.bytes = tail ∧ r.next.2.source.ending = r.source.ending ∧
      r.next.2.position.line = r.position.line + (write d cells).count Source.lineFeed ∧
      0 < r.next.2.position.byte := by
  obtain ⟨bytes, m, hwrite, hfeed, hstep⟩ := feed_write hd hne
  rw [hwrite, List.append_assoc] at hb
  subst hr
  obtain ⟨rest, hscan, hbytes, hending⟩ := scan_of_feed r.position hfeed hstep hb
  have hopening := Reader.opening_eq hmark
  have hcells : decodeCells 0 (cells.map cellBytes) = .ok cells := decodeCells_map_cellBytes 0 cells
  simp only [Reader.next, hopen, hopening, hscan, Reader.outcome, hcells, hbytes, hending,
    Position.nextRecord, line_foldl_advance, byte_foldl_advance, hwrite, Bool.false_eq_true,
    if_false, true_and, List.length_append, List.length_singleton]
  exact ⟨rfl, Nat.succ_pos _⟩

/-- At the end of its input a reader has nothing left. -/
theorem next_of_bytes_eq_nil {r : Reader} (hopen : r.closed = false) (hb : r.source.bytes = [])
    (he : r.source.ending = .complete) : r.next.1 = .finished := by
  have hopening : r.opening = (r.source, r.position) :=
    Reader.opening_eq fun _ hmark => by simp [hb, byteOrderMark] at hmark
  have hscan : scan r.dialect Machine.start r.position r.source = .ended Machine.start :=
    scan_of_next?_eq_none ((Source.next?_eq_none_iff _).2 hb)
  have hend : Machine.start.atEnd = none := rfl
  simp [Reader.next, hopen, hopening, hscan, he, hend]

/-- Records that are written one after the other are read back in order, each with its line, if
the first of them does not start like a byte order mark. -/
theorem outcomes_of_writes {quote : UInt8} (hd : Separable d quote) {r : Reader}
    (hr : r.dialect = d) (hopen : r.closed = false) (he : r.source.ending = .complete)
    (hmark : r.position.byte = 0 → ¬ byteOrderMark <+: r.source.bytes)
    {records : List (List String)} (hne : ∀ cells ∈ records, cells ≠ [])
    (hb : r.source.bytes = records.flatMap (write d)) :
    (Framing.Reader.quoted r).outcomes = written (write d) r.position.line records := by
  induction records generalizing r with
  | nil => exact Framing.Reader.outcomes_of_finished (next_of_bytes_eq_nil hopen hb he)
  | cons cells records ih =>
    obtain ⟨hne, hnes⟩ := List.forall_mem_cons.1 hne
    rw [List.flatMap_cons] at hb
    obtain ⟨hout, hdialect, hclosed, hbytes, hending, hline, hbyte⟩ :=
      next_of_write hd hr hopen hmark hne hb
    rw [Framing.Reader.outcomes_of_record (r := .quoted r) hout, written_cons]
    congr 1
    -- behind a record no byte order mark is passed over
    have hlater : r.next.2.position.byte = 0 → ¬ byteOrderMark <+: r.next.2.source.bytes := by
      intro h0
      omega
    rw [Framing.Reader.next, ih hdialect hclosed (hending.trans he) hlater hnes hbytes, hline]

/-! ## Dialects that come from options -/

/-- Options with an escape and comments. -/
def escapingOptions : Options :=
  { Options.default with escapeCharacter := some "\\", allowComments := true }

/-- The dialect of `escapingOptions`. -/
def escapingDialect : Dialect :=
  ⟨Dialect.comma, some Dialect.doubleQuote, some Dialect.backslash, some Dialect.hash, ";", none⟩

/-- Records with cells that start like a comment, hold escapes before quotes, break lines or are
empty. -/
def escapingRecords : List (List String) :=
  [["#", ""], ["\\\"", "\\", ","], [""], ["\r\n", "a"]]

section Compiled

variable {rowType : RowType} {options : Options}

/-- The conditions on the characters of a dialect that its options do not check. -/
theorem separable_of_compile (hc : Dialect.compile rowType options = .ok d)
    (hquoting : options.quotingDisabled = false)
    (hdelimiter : d.delimiter ≠ Source.lineFeed ∧ d.delimiter ≠ Source.carriageReturn)
    (hquote : d.quote ≠ some Source.lineFeed ∧ d.quote ≠ some Source.carriageReturn)
    (hcomment : options.allowComments = true →
      d.delimiter ≠ Dialect.hash ∧ d.quote ≠ some Dialect.hash) :
    ∃ quote, Separable d quote := by
  obtain ⟨hwf, hquoted, -⟩ := Dialect.of_compile hc
  rw [hquoting] at hquoted
  obtain ⟨quote, hq⟩ := Option.isSome_iff_exists.1 hquoted
  rw [hq] at hquote hcomment
  simp only [ne_eq, Option.some.injEq] at hquote hcomment
  refine ⟨quote, hq, ?_, ?_, ?_, ?_, hwf.escape_lt, ?_, ?_⟩
  · simpa [isTerminator] using hdelimiter
  · simpa [isTerminator] using hquote
  · exact fun h => hwf.quote_ne_delimiter (h ▸ hq)
  · exact fun h => hwf.escape_ne_quote (by rw [h]; rfl) (h.trans hq.symm)
  · exact Dialect.comment_ne_of_compile hc fun hallow => (hcomment hallow).1
  · exact Dialect.comment_ne_of_compile hc fun hallow => (hcomment hallow).2

/-- A record starts with a byte below 128 or with the first character of its first cell. -/
theorem write_head {quote : UInt8} (hq : d.quote = some quote) (hquote : quote.toNat < 128)
    (hdelimiter : d.delimiter.toNat < 128)
    (hescape : ∀ escape, d.escape = some escape → escape.toNat < 128)
    (cell : String) (cells : List String) :
    (∃ byte rest, write d (cell :: cells) = byte :: rest ∧ byte.toNat < 128) ∨
      ∃ c text rest, cell.toList = c :: text ∧
        write d (cell :: cells) = String.utf8EncodeChar c ++ rest := by
  have hquoteByte := quoteByte_eq hq
  rw [write_eq hescape, hquoteByte]
  by_cases hbody : body d (cell :: cells) = []
  · -- a single empty cell is written as two quotes
    exact Or.inl ⟨quote, _, by rw [if_pos hbody]; rfl, hquote⟩
  rw [if_neg hbody]
  obtain ⟨rest, hrest, hstart⟩ : ∃ rest, body d (cell :: cells) =
      frameCell d (doubled d (cellBytes cell)) ++ rest ∧
      (rest = [] ∨ ∃ tail, rest = d.delimiter :: tail) := by
    cases cells with
    | nil => exact ⟨[], by simp [body], Or.inl rfl⟩
    | cons next cells =>
      exact ⟨d.delimiter :: body d (next :: cells), by simp [body], Or.inr ⟨_, rfl⟩⟩
  rw [hrest] at hbody ⊢
  by_cases hany : (doubled d (cellBytes cell)).any (isSpecial d) = true
  · -- the record starts with a quote
    rw [frameCell, if_pos hany, hquoteByte]
    exact Or.inl ⟨quote, _, rfl, hquote⟩
  · -- the record starts with the cell itself, or behind an empty one with the delimiter
    have hplain : ∀ byte ∈ doubled d (cellBytes cell), isSpecial d byte = false := by
      simpa using hany
    rw [frameCell, if_neg hany, doubled_eq_self hplain] at hbody ⊢
    cases hcell : cell.toList with
    | nil =>
      have hempty : cellBytes cell = [] := by rw [cellBytes, hcell, Utf8.encode_nil]
      rw [hempty, List.nil_append] at hbody ⊢
      obtain ⟨tail, rfl⟩ := hstart.resolve_left hbody
      exact Or.inl ⟨d.delimiter, _, rfl, hdelimiter⟩
    | cons c text =>
      rw [cellBytes, hcell, Utf8.encode_cons, List.append_assoc, List.append_assoc]
      exact Or.inr ⟨c, text, _, rfl, rfl⟩

/-- The bytes of records start with the byte order mark only if the first cell does. -/
theorem not_byteOrderMark_prefix (hwf : d.WellFormed) (hquoted : d.quote.isSome)
    {records : List (List String)} (hne : ∀ cells ∈ records, cells ≠ [])
    (h : ∀ cells cell, records.head? = some cells → cells.head? = some cell →
      cell.toList.head? ≠ some '\uFEFF') :
    ¬ byteOrderMark <+: records.flatMap (write d) := by
  obtain ⟨quote, hq⟩ := Option.isSome_iff_exists.1 hquoted
  rintro ⟨tail, htail⟩
  cases records with
  | nil => cases htail
  | cons cells records =>
    obtain ⟨cell, cells, rfl⟩ := List.exists_cons_of_ne_nil (hne _ List.mem_cons_self)
    rw [List.flatMap_cons] at htail
    rcases write_head hq (hwf.quote_lt quote hq) hwf.delimiter_lt hwf.escape_lt cell cells with
      ⟨byte, rest, hwrite, hlt⟩ | ⟨c, text, rest, hcell, hwrite⟩
    · -- the mark starts with a byte that is not below 128
      rw [hwrite] at htail
      have hbyte : 0xEF = byte := (List.cons.inj htail).1
      rw [← hbyte] at hlt
      exact absurd hlt (by decide)
    · -- a character is determined by the bytes that start with its form
      rw [hwrite, List.append_assoc] at htail
      have hc : c = '\uFEFF' := Utf8.eq_of_utf8EncodeChar_append_eq htail.symm
      exact h _ _ rfl rfl (by rw [hcell, hc]; rfl)

/-- **The quoted framing is invertible.** What is written for records is read as these records, in
order and cell for cell, if the first cell does not start like a byte order mark. -/
theorem quoted_framing_invertible (hc : Dialect.compile rowType options = .ok d)
    (hquoting : options.quotingDisabled = false)
    (hdelimiter : d.delimiter ≠ Source.lineFeed ∧ d.delimiter ≠ Source.carriageReturn)
    (hquote : d.quote ≠ some Source.lineFeed ∧ d.quote ≠ some Source.carriageReturn)
    (hcomment : options.allowComments = true →
      d.delimiter ≠ Dialect.hash ∧ d.quote ≠ some Dialect.hash)
    {records : List (List String)} (hne : ∀ cells ∈ records, cells ≠ [])
    (hmark : ∀ cells cell, records.head? = some cells → cells.head? = some cell →
      cell.toList.head? ≠ some '\uFEFF') {source : Source}
    (hb : source.bytes = records.flatMap (write d)) (he : source.ending = .complete) :
    (Framing.Reader.ofSource d source).outcomes = written (write d) 1 records := by
  obtain ⟨hwf, hquoted, -⟩ := Dialect.of_compile hc
  replace hquoted : d.quote.isSome = true := by rw [hquoted, hquoting]; rfl
  obtain ⟨quote, hd⟩ := separable_of_compile hc hquoting hdelimiter hquote hcomment
  rw [Framing.Reader.ofSource, if_pos hquoted]
  refine outcomes_of_writes (r := Reader.ofSource d source) hd rfl rfl he (fun _ => ?_) hne hb
  exact hb ▸ not_byteOrderMark_prefix hwf hquoted hne hmark

end Compiled

/-- The records of `escapingRecords` are read back. -/
theorem quoted_framing_invertible_escaping :
    (Framing.Reader.ofSource escapingDialect (Source.ofBytes
      (escapingRecords.flatMap (write escapingDialect)))).outcomes =
      [.record 1 ["#", ""], .record 2 ["\\\"", "\\", ","], .record 3 [""],
        .record 4 ["\r\n", "a"]] := by
  have hcompile : Dialect.compile [] escapingOptions = .ok escapingDialect := by rfl
  have hbytes : (Source.ofBytes (escapingRecords.flatMap (write escapingDialect))).bytes =
      escapingRecords.flatMap (write escapingDialect) := Source.bytes_ofBytes _
  have hmark : ∀ cells cell, escapingRecords.head? = some cells → cells.head? = some cell →
      cell.toList.head? ≠ some '\uFEFF' := by
    rintro _ _ ⟨⟩ ⟨⟩
    decide
  exact (quoted_framing_invertible hcompile rfl (by decide) (by decide) (fun _ => by decide)
    (by decide) hmark hbytes rfl).trans (by decide)

end TypedCsv.Framing.Quoted
