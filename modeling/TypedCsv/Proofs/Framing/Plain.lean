import TypedCsv.Proofs.Dialect
import TypedCsv.Proofs.Source
import TypedCsv.Proofs.Framing.Record

/-! # The plain framing loses nothing

A record that is written is read back cell for cell, wherever its cells hold delimiters, line
breaks, escapes or comment markers (`Plain.outcomes_of_frames`). The reader takes its input line by
line, so a record with escaped line feeds is put together from several lines: `Pending.readLine`
over some bytes that end no record is the state that is carried from line to line. -/

namespace TypedCsv.Framing.Plain

variable {d : Dialect}

/-- The characters of a dialect can be told from the ends of lines and from comments. -/
structure Separable (d : Dialect) : Prop where
  delimiter_ne_lineFeed : d.delimiter ≠ Source.lineFeed
  delimiter_ne_carriageReturn : d.delimiter ≠ Source.carriageReturn
  escape_ne_lineFeed : d.escape ≠ some Source.lineFeed
  escape_ne_carriageReturn : d.escape ≠ some Source.carriageReturn
  escape_ne_delimiter : d.escape ≠ some d.delimiter
  comment_ne_delimiter : d.comment ≠ some d.delimiter
  comment_ne_escape : d.comment.isSome → d.comment ≠ d.escape
  comment_ne_lineFeed : d.comment ≠ some Source.lineFeed

/-! ## Bytes that end no record -/

namespace Pending

/-- Bytes that end no record are read one after the other. -/
theorem readLine_append {p q : Pending} {xs : List UInt8} (h : p.readLine d xs = (q, false))
    (ys : List UInt8) : p.readLine d (xs ++ ys) = q.readLine d ys := by
  induction xs generalizing p with
  | nil =>
    cases h
    rfl
  | cons byte xs ih =>
    rw [readLine] at h
    rw [List.cons_append, readLine]
    split
    · next hb =>
      rw [if_pos hb] at h
      cases h
    · next hb =>
      rw [if_neg hb] at h
      exact ih h

/-- A line feed that is not escaped ends the record. -/
theorem readLine_lineFeed {p : Pending} (h : p.escaped = false) (rest : List UInt8) :
    p.readLine d (Source.lineFeed :: rest) = (p, true) := by
  rw [readLine, h]
  simp

/-- The line feed inside bytes that end no record is escaped. -/
theorem readLine_prefix {p q : Pending} {xs ys : List UInt8}
    (h : p.readLine d (xs ++ ys) = (q, false)) :
    ∃ m, p.readLine d xs = (m, false) ∧ m.readLine d ys = (q, false) := by
  induction xs generalizing p with
  | nil => exact ⟨p, rfl, h⟩
  | cons byte xs ih =>
    rw [List.cons_append, readLine] at h
    split at h
    · cases h
    · next hb =>
      obtain ⟨m, hm, hq⟩ := ih h
      exact ⟨m, by rw [readLine, if_neg hb, hm], hq⟩

end Pending

/-! ## Reading lines -/

/-- The first line of bytes that end in a line feed, given as body and line feed: the body itself
if it holds no line feed, else a part of it. -/
theorem readLine_body {p q : Pending} {source : Source} {body tail : List UInt8}
    (hbody : p.readLine d body = (q, false)) (hq : q.escaped = false)
    (h : source.bytes = body ++ Source.lineFeed :: tail) :
    ∃ line rest, source.readLine = .line line rest ∧ rest.ending = source.ending ∧
      (line = body ++ [Source.lineFeed] ∧ rest.bytes = tail ∧ body.count Source.lineFeed = 0 ∧
          p.readLine d line = (q, true) ∨
        ∃ m after, p.readLine d line = (m, false) ∧ m.readLine d after = (q, false) ∧
          rest.bytes = after ++ Source.lineFeed :: tail ∧
          body.count Source.lineFeed = after.count Source.lineFeed + 1) := by
  by_cases hmem : Source.lineFeed ∈ body
  · -- the line ends with the first line feed of the body, which is escaped
    obtain ⟨line, after, rfl, hline⟩ := List.eq_append_cons_of_mem hmem
    rw [List.append_cons] at hbody
    obtain ⟨m, hm, hafter⟩ := Pending.readLine_prefix hbody
    have hsource : source.bytes =
        line ++ Source.lineFeed :: (after ++ Source.lineFeed :: tail) := by simpa using h
    obtain ⟨rest, hread, hbytes, hend⟩ := Source.readLine_of_bytes hline hsource
    refine ⟨_, rest, hread, hend, Or.inr ⟨m, after, hm, hafter, hbytes, ?_⟩⟩
    rw [List.count_append, List.count_cons_self, List.count_eq_zero_of_not_mem hline]
    omega
  · obtain ⟨rest, hread, hbytes, hend⟩ := Source.readLine_of_bytes hmem h
    refine ⟨_, rest, hread, hend, Or.inl ⟨rfl, hbytes, List.count_eq_zero_of_not_mem hmem, ?_⟩⟩
    rw [Pending.readLine_append hbody, Pending.readLine_lineFeed hq]

/-- The lines of a record that has started are read up to its line feed, however many of the line
feeds before it are escaped. -/
theorem scanRecord_of_bytes {startLine lines : Nat} {p q : Pending} {source : Source}
    {body tail : List UInt8} (hbody : p.readLine d body = (q, false)) (hq : q.escaped = false)
    (h : source.bytes = body ++ Source.lineFeed :: tail) :
    ∃ rest, scanRecord d startLine lines p source =
        .record startLine q.atLineFeed (lines + (body.count Source.lineFeed + 1)) rest ∧
      rest.bytes = tail ∧ rest.ending = source.ending := by
  -- the body is what is still to be read of the record; each line takes a part of it
  obtain ⟨line, rest, hread, hend, hline⟩ := readLine_body hbody hq h
  fun_induction scanRecord d startLine lines p source generalizing body line rest with
  | case1 lines p source fault hr =>
    rw [hr] at hread
    cases hread
  | case2 lines p source hr =>
    rw [hr] at hread
    cases hread
  | case3 lines p source line' rest' hr p' hp =>
    -- the line ends the record
    rw [hr] at hread
    cases hread
    obtain ⟨-, hbytes, hcount, hp'⟩ | ⟨m, after, hm, -⟩ := hline
    · rw [hp'] at hp
      cases hp
      exact ⟨rest', by rw [hcount, Nat.zero_add], hbytes, hend⟩
    · rw [hm] at hp
      cases hp
  | case4 lines p source line' rest' hr p' hp ih =>
    -- the line ends with an escaped line feed
    rw [hr] at hread
    cases hread
    obtain ⟨-, -, -, hp'⟩ | ⟨m, after, hm, hafter, hbytes, hcount⟩ := hline
    · rw [hp'] at hp
      cases hp
    · rw [hm] at hp
      cases hp
      obtain ⟨line, next, hread, hnext, hline⟩ := readLine_body hafter hq hbytes
      obtain ⟨last, hscan, hlast, hlastEnd⟩ := ih hafter hbytes line next hread hnext hline
      refine ⟨last, ?_, hlast, hlastEnd.trans hend⟩
      rw [hscan, hcount]
      congr 1
      omega

/-- A line that is no comment starts a record. -/
theorem scan_eq_scanRecord {lines : Nat} {source rest : Source} {line : List UInt8}
    (h : source.readLine = .line line rest) (hc : isComment d line = false) :
    scan d lines source = scanRecord d (lines + 1) lines Pending.start source := by
  rw [scan.eq_def, scanRecord.eq_def]
  split
  · next hr => simp [h] at hr
  · next hr => simp [h] at hr
  · next line' rest' hr =>
    rw [h] at hr
    cases hr
    exact if_neg (by simp [hc])

/-- A line is no comment if the input does not start with the comment marker. -/
theorem isComment_of_readLine {source rest : Source} {line bytes : List UInt8}
    (h : source.readLine = .line line rest) (hb : source.bytes = bytes)
    (hcomment : ∀ byte, bytes.head? = some byte → d.comment ≠ some byte) :
    isComment d line = false := by
  obtain ⟨happ, hne⟩ := Source.bytes_of_readLine h
  obtain ⟨byte, line, rfl⟩ := List.exists_cons_of_ne_nil hne
  have hhead := hcomment byte (by rw [← hb, happ]; rfl)
  rw [isComment, List.head?_cons, Bool.and_eq_false_iff]
  exact Or.inr (beq_false_of_ne (Ne.symm hhead))

/-- A record is read up to its line feed, unless it starts like a comment. -/
theorem scan_of_bytes (lines : Nat) {q : Pending} {source : Source} {body tail : List UInt8}
    (hbody : Pending.start.readLine d body = (q, false)) (hq : q.escaped = false)
    (hcomment : ∀ byte, (body ++ [Source.lineFeed]).head? = some byte → d.comment ≠ some byte)
    (h : source.bytes = body ++ Source.lineFeed :: tail) :
    ∃ rest, scan d lines source =
        .record (lines + 1) q.atLineFeed (lines + (body ++ [Source.lineFeed]).count Source.lineFeed)
          rest ∧
      rest.bytes = tail ∧ rest.ending = source.ending := by
  obtain ⟨line, rest, hread, -, -⟩ := readLine_body hbody hq h
  have hline : isComment d line = false := by
    refine isComment_of_readLine hread h fun byte hb => hcomment byte ?_
    rwa [List.append_cons, List.head?_append_of_ne_nil _ (by simp)] at hb
  rw [scan_eq_scanRecord hread hline, List.count_append, List.count_singleton_self]
  exact scanRecord_of_bytes hbody hq h

/-! ## Bytes of a record -/

/-- A cell in its framed form is read as the cell. -/
theorem readLine_frameBytes (hd : Separable d) {first : Bool} {cell framed : List UInt8}
    (h : frameBytes d first cell = some framed) (cells : List (List UInt8))
    (current : List UInt8) :
    Pending.readLine d ⟨cells, current, false, false⟩ framed =
      (⟨cells, cell.reverse ++ current, false, false⟩, false) := by
  induction cell generalizing first framed current with
  | nil =>
    cases h
    rfl
  | cons byte cell ih =>
    rw [frameBytes] at h
    split at h
    · cases h
    · next rest hrest =>
      split at h
      · -- the escape is dropped and takes the meaning from the byte
        obtain ⟨escape, he, rfl⟩ := Option.map_eq_some_iff.1 h
        have hlf : (escape == Source.lineFeed) = false :=
          beq_false_of_ne fun hb => hd.escape_ne_lineFeed (hb ▸ he)
        have hcr : (escape == Source.carriageReturn) = false :=
          beq_false_of_ne fun hb => hd.escape_ne_carriageReturn (hb ▸ he)
        simp only [Pending.readLine, Pending.read, hlf, hcr, he, Bool.not_false, Bool.and_false,
          Bool.not_true, Bool.false_and, Bool.false_eq_true, if_false, if_true]
        rw [ih hrest]
        simp
      · -- the byte has no meaning of its own
        next hspecial =>
        cases h
        simp only [isSpecial, Bool.or_eq_true, not_or, beq_iff_eq] at hspecial
        obtain ⟨⟨⟨⟨hdelimiter, hlf⟩, hcr⟩, hescape⟩, -⟩ := hspecial
        simp only [Pending.readLine, Pending.read, beq_false_of_ne hlf, beq_false_of_ne hcr,
          hescape, hdelimiter, Bool.not_false, Bool.and_false, Bool.false_eq_true, if_false]
        rw [ih hrest]
        simp

/-- Reading the delimiter ends a cell. -/
theorem readLine_delimiter (hd : Separable d) (cells : List (List UInt8)) (current : List UInt8)
    (rest : List UInt8) :
    Pending.readLine d ⟨cells, current, false, false⟩ (d.delimiter :: rest) =
      Pending.readLine d ⟨current.reverse :: cells, [], false, false⟩ rest := by
  simp only [Pending.readLine, Pending.read, beq_false_of_ne hd.delimiter_ne_lineFeed,
    beq_false_of_ne hd.delimiter_ne_carriageReturn, hd.escape_ne_delimiter, Bool.not_false,
    Bool.and_false, Bool.false_eq_true, if_false, if_true]

/-- Cells have forms if each of them has one. -/
theorem frameCells_cons_eq_ok_iff {first : Bool} {cell : String} {cells : List String}
    {framed : List (List UInt8)} :
    frameCells d first (cell :: cells) = .ok framed ↔ ∃ bytes others,
      frameBytes d first (cellBytes cell) = some bytes ∧
        frameCells d false cells = .ok others ∧ bytes :: others = framed := by
  rw [frameCells]
  cases frameBytes d first (cellBytes cell) with
  | none => simp
  | some bytes => simp [Except.map_eq_ok_iff]

/-- Each cell of a record is framed once. -/
theorem length_of_frameCells {first : Bool} {cells : List String}
    {framed : List (List UInt8)} (h : frameCells d first cells = .ok framed) :
    framed.length = cells.length := by
  induction cells generalizing first framed with
  | nil =>
    cases h
    rfl
  | cons cell cells ih =>
    obtain ⟨bytes, others, -, hothers, rfl⟩ := frameCells_cons_eq_ok_iff.1 h
    rw [List.length_cons, List.length_cons, ih hothers]

/-- The body of a record is read as its cells, without ending the record. -/
theorem readLine_frameCells (hd : Separable d) {first : Bool} {cells : List String}
    {framed : List (List UInt8)} (hne : cells ≠ []) (h : frameCells d first cells = .ok framed)
    (before : List (List UInt8)) :
    ∃ q, Pending.readLine d ⟨before, [], false, false⟩ ([d.delimiter].intercalate framed) =
        (q, false) ∧ q.escaped = false ∧ q.trailingReturn = false ∧
      q.atEnd = before.reverse ++ cells.map cellBytes := by
  induction cells generalizing first framed before with
  | nil => exact absurd rfl hne
  | cons cell cells ih =>
    obtain ⟨bytes, others, hbytes, hothers, rfl⟩ := frameCells_cons_eq_ok_iff.1 h
    have hcell := readLine_frameBytes hd hbytes before []
    by_cases hlast : cells = []
    · -- the last cell is still being read at the end of the body
      subst hlast
      cases hothers
      refine ⟨_, by rw [List.intercalate_singleton]; exact hcell, rfl, rfl, ?_⟩
      simp [Pending.atEnd]
    · -- a delimiter stands between this cell and the next
      have hne' : others ≠ [] := by
        rw [← List.length_pos_iff, length_of_frameCells hothers]
        exact List.length_pos_iff.2 hlast
      obtain ⟨q, hq, hescaped, hreturn, hend⟩ :=
        ih hlast hothers (((cellBytes cell).reverse ++ []).reverse :: before)
      refine ⟨q, ?_, hescaped, hreturn, by rw [hend]; simp⟩
      rw [List.intercalate_cons_of_ne_nil hne', List.append_assoc, Pending.readLine_append hcell,
        List.singleton_append, readLine_delimiter hd, hq]

/-! ## Records -/

/-- The bytes that a record adds to an output; a record that is refused adds none. -/
def frame (d : Dialect) (cells : List String) : List UInt8 :=
  match write d cells with
  | .ok bytes => bytes
  | .error _ => []

/-- A record is written if all its cells can be framed, as these between delimiters and with a line
feed. -/
theorem write_eq_ok_iff {cells : List String} {bytes : List UInt8} :
    write d cells = .ok bytes ↔ ∃ framed, frameCells d true cells = .ok framed ∧
      bytes = [d.delimiter].intercalate framed ++ [Source.lineFeed] := by
  rw [write, Except.map_eq_ok_iff]
  simp only [eq_comm]

/-- The form of the first cell does not start with the comment marker. -/
theorem head?_frameBytes (hd : Separable d) {cell framed : List UInt8}
    (h : frameBytes d true cell = some framed) (byte : UInt8) (hb : framed.head? = some byte) :
    d.comment ≠ some byte := by
  cases cell with
  | nil =>
    cases h
    cases hb
  | cons c cell =>
    rw [frameBytes] at h
    split at h
    · cases h
    · split at h
      · -- a comment marker in front would have an escape before it
        obtain ⟨escape, he, rfl⟩ := Option.map_eq_some_iff.1 h
        cases hb
        intro hc
        exact hd.comment_ne_escape (by rw [hc]; rfl) (hc.trans he.symm)
      · next hspecial =>
        cases h
        cases hb
        simp only [isSpecial, Bool.or_eq_true, not_or, Bool.true_and, beq_iff_eq] at hspecial
        exact hspecial.2

/-- A record does not start like a comment. -/
theorem head?_of_write (hd : Separable d) {cells : List String} {bytes : List UInt8}
    (h : write d cells = .ok bytes) (byte : UInt8) (hb : bytes.head? = some byte) :
    d.comment ≠ some byte := by
  obtain ⟨framed, hf, rfl⟩ := write_eq_ok_iff.1 h
  cases cells with
  | nil =>
    cases hf
    cases hb
    exact hd.comment_ne_lineFeed
  | cons cell cells =>
    obtain ⟨first, others, hfirst, hothers, rfl⟩ := frameCells_cons_eq_ok_iff.1 hf
    cases first with
    | cons c first =>
      refine head?_frameBytes hd hfirst byte ?_
      rwa [List.intercalate_cons_cons_left] at hb
    | nil =>
      -- an empty first cell is followed by the delimiter or the end of the line
      cases others with
      | nil =>
        cases hb
        exact hd.comment_ne_lineFeed
      | cons other others =>
        rw [List.intercalate_cons_cons] at hb
        cases hb
        exact hd.comment_ne_delimiter

/-- A record that is written is read back, and the reader stands behind it. -/
theorem next_of_write (hd : Separable d) {r : Reader} (hr : r.dialect = d)
    (hopen : r.closed = false) {cells : List String} (hne : cells ≠ []) {bytes tail : List UInt8}
    (h : write d cells = .ok bytes) (hb : r.source.bytes = bytes ++ tail) :
    r.next.1 = .record (r.lines + 1) cells ∧ r.next.2.dialect = d ∧ r.next.2.closed = false ∧
      r.next.2.source.bytes = tail ∧ r.next.2.source.ending = r.source.ending ∧
      r.next.2.lines = r.lines + bytes.count Source.lineFeed := by
  have hhead := head?_of_write hd h
  obtain ⟨framed, hf, rfl⟩ := write_eq_ok_iff.1 h
  obtain ⟨q, hq, hescaped, hreturn, hend⟩ := readLine_frameCells hd hne hf []
  obtain ⟨rest, hscan, hbytes, hending⟩ :=
    scan_of_bytes r.lines hq hescaped hhead (by simpa using hb)
  have hcells : decodeCells 0 q.atLineFeed = .ok cells := by
    rw [Pending.atLineFeed, if_neg (by simp [hreturn]), hend]
    exact decodeCells_map_cellBytes 0 cells
  subst hr
  simp only [Reader.next, hopen, hscan, Reader.outcome, hcells, hbytes, hending, Bool.false_eq_true,
    if_false, and_self]

/-- At the end of its input a reader has nothing left. -/
theorem next_of_bytes_eq_nil {r : Reader} (hopen : r.closed = false) (hb : r.source.bytes = [])
    (he : r.source.ending = .complete) : r.next.1 = .finished := by
  have hscan : scan r.dialect r.lines r.source = .ended := by
    rw [scan.eq_def]
    split
    · next hr => simp [Source.readLine_of_bytes_eq_nil hb he] at hr
    · rfl
    · next hr => simp [Source.readLine_of_bytes_eq_nil hb he] at hr
  simp [Reader.next, hopen, hscan]

/-- Records that are written one after the other are read back in order, each with its line. -/
theorem outcomes_of_frames (hd : Separable d) {r : Reader} (hr : r.dialect = d)
    (hopen : r.closed = false) (he : r.source.ending = .complete) {records : List (List String)}
    (hne : ∀ cells ∈ records, cells ≠ []) (hok : ∀ cells ∈ records, (write d cells).isOk)
    (hb : r.source.bytes = records.flatMap (frame d)) :
    (Framing.Reader.plain r).outcomes = written (frame d) (r.lines + 1) records := by
  induction records generalizing r with
  | nil => exact Framing.Reader.outcomes_of_finished (next_of_bytes_eq_nil hopen hb he)
  | cons cells records ih =>
    obtain ⟨hne, hnes⟩ := List.forall_mem_cons.1 hne
    obtain ⟨hok, hoks⟩ := List.forall_mem_cons.1 hok
    cases hw : write d cells with
    | error fault => simp [hw, Except.isOk, Except.toBool] at hok
    | ok bytes =>
      have hframe : frame d cells = bytes := by rw [frame, hw]
      rw [List.flatMap_cons, hframe] at hb
      obtain ⟨hout, hdialect, hclosed, hbytes, hending, hlines⟩ :=
        next_of_write hd hr hopen hne hw hb
      rw [Framing.Reader.outcomes_of_record (r := .plain r) hout, written_cons, hframe]
      congr 1
      rw [Framing.Reader.next, ih hdialect hclosed (hending.trans he) hnes hoks hbytes, hlines]
      congr 1
      omega

end TypedCsv.Framing.Plain
