import TypedCsv.Proofs.Framing.Contents
import TypedCsv.Proofs.Framing.PlainWriter

/-! # The plain framing in one pass

The plain framing reads whole lines and carries the record that is pending from one to the next.
What it finds can be said without lines and without anything that is carried: from left to right,
each byte is settled by itself and by the one behind it (`Plain.recordAt`).

* `Plain.recordAt`: the record at the start of some bytes.
* `Plain.recordsFrom`: all records, each with the number of bytes in front of it.
* `Plain.Tells`: what is told of a record.
* `Plain.calls_in_one_pass`: the calls of a reader tell of these records, one after the other. -/

namespace TypedCsv.Framing

/-- The cell at fault, if the bytes of cells cannot be read as texts; the cells in front of it can
be read. -/
theorem exists_of_decodeCells_error {index found : Nat} {fault : Utf8.Fault}
    {raw : List (List UInt8)} (h : decodeCells index raw = .error (found, fault)) :
    ∃ (texts : List String) (cell : List UInt8) (others : List (List UInt8)),
      raw = texts.map cellBytes ++ cell :: others ∧ Utf8.decode cell = .error fault := by
  induction raw generalizing index with
  | nil => cases h
  | cons bytes raw ih =>
    rw [decodeCells] at h
    split at h
    · next hfault =>
      cases h
      exact ⟨[], bytes, raw, rfl, hfault⟩
    · next text htext =>
      split at h
      · next hothers =>
        cases h
        obtain ⟨texts, cell, others, hraw, hcell⟩ := ih hothers
        refine ⟨String.ofList text :: texts, cell, others, ?_, hcell⟩
        rw [hraw, List.map_cons, cellBytes, String.toList_ofList, Utf8.encode_of_decode htext,
          List.cons_append]
      · cases h

namespace Reader

/-- What a reader gives on a call, the first one having the number 0. -/
def call (r : Reader) : Nat → Outcome
  | 0 => r.next.1
  | n + 1 => r.next.2.call n

/-- The calls give what is found in the input, one after the other, and then always its end. -/
theorem call_eq_getElem? (r : Reader) (n : Nat) : r.call n = r.outcomes[n]?.getD .finished := by
  induction n generalizing r with
  | zero =>
    by_cases h : r.next.1 = .finished
    · rw [outcomes_of_finished h]
      exact h
    · rw [outcomes_of_ne_finished h]
      rfl
  | succ n ih =>
    rw [call, ih]
    by_cases h : r.next.1 = .finished
    · rw [outcomes_next_of_finished h, outcomes_of_finished h]
      rfl
    · rw [outcomes_of_ne_finished h, List.getElem?_cons_succ]

end Reader

namespace Plain

variable {d : Dialect} {p : Pending} {byte : UInt8} {bytes : List UInt8}

/-! ## The pass -/

/-- A record in front of some bytes. It has at least one cell. -/
structure Frame where
  /-- The bytes of its first cell. -/
  first : List UInt8
  /-- The bytes of its other cells. -/
  others : List (List UInt8)
  /-- The number of bytes that it takes, its line feed included. -/
  size : Nat
deriving DecidableEq

namespace Frame

/-- The bytes of all cells. -/
def cells (frame : Frame) : List (List UInt8) :=
  frame.first :: frame.others

/-- A record with one empty cell. -/
def blank (size : Nat) : Frame :=
  ⟨[], [], size⟩

/-- The record with one more byte in front of its first cell, which takes `count` bytes. -/
def push (frame : Frame) (byte : UInt8) (count : Nat) : Frame :=
  ⟨byte :: frame.first, frame.others, frame.size + count⟩

/-- The record with one more cell in front, which is empty and ends with a delimiter. -/
def addCell (frame : Frame) : Frame :=
  ⟨[], frame.cells, frame.size + 1⟩

end Frame

/-- The record at the start of some bytes. A line feed ends it, or the end of the bytes. The byte
behind an escape is literal; an escape with none behind it is dropped. A carriage return in front
of the line feed belongs to the line break. -/
def recordAt (d : Dialect) : List UInt8 → Frame
  | [] => .blank 0
  | byte :: rest =>
    if byte = Source.lineFeed then .blank 1
    else if d.escape = some byte then
      match rest with
      | [] => .blank 1
      | literal :: rest => (recordAt d rest).push literal 2
    else if byte = Source.carriageReturn ∧ rest.head? = some Source.lineFeed then .blank 2
    else if byte = d.delimiter then (recordAt d rest).addCell
    else (recordAt d rest).push byte 1

/-- The number of bytes of the first line, its line feed included. -/
def lineSize (bytes : List UInt8) : Nat :=
  (bytes.takeWhile (· != Source.lineFeed)).length + 1

/-- A record in front of some bytes takes at least one of them. -/
theorem size_recordAt_pos (d : Dialect) (byte : UInt8) (rest : List UInt8) :
    0 < (recordAt d (byte :: rest)).size := by
  unfold recordAt
  split
  · exact Nat.one_pos
  · split
    · split
      · exact Nat.one_pos
      · exact Nat.succ_pos _
    · split
      · exact Nat.two_pos
      · split <;> exact Nat.succ_pos _

/-- The records of some bytes, each with the number of bytes in front of it, which is `offset` for
the first of the bytes. Where a record may start, a line that starts with the comment marker is
passed over. -/
def recordsFrom (d : Dialect) (offset : Nat) : List UInt8 → List (Nat × Frame)
  | [] => []
  | byte :: rest =>
    if d.comment = some byte then
      recordsFrom d (offset + lineSize (byte :: rest))
        ((byte :: rest).drop (lineSize (byte :: rest)))
    else
      (offset, recordAt d (byte :: rest)) ::
        recordsFrom d (offset + (recordAt d (byte :: rest)).size)
          ((byte :: rest).drop (recordAt d (byte :: rest)).size)
termination_by bytes => bytes.length
decreasing_by
  · simp only [List.length_drop, List.length_cons, lineSize]
    omega
  · have := size_recordAt_pos d byte rest
    simp only [List.length_drop, List.length_cons]
    omega

/-- What is told of a record that starts on the given line: its cells as texts, or the fault of the
first of them that is no text. -/
inductive Tells (line : Nat) (cells : List (List UInt8)) : Outcome → Prop where
  | record {texts : List String} :
    cells = texts.map cellBytes → Tells line cells (.record line texts)
  | malformed {texts : List String} {cell : List UInt8} {others : List (List UInt8)}
      {fault : Utf8.Fault} :
    cells = texts.map cellBytes ++ cell :: others → Utf8.decode cell = .error fault →
      Tells line cells (.malformed line (.plainText fault))

/-! ## One record -/

namespace Pending

/-- The cells of a pending record that goes on with another. -/
def joined (p : Pending) (frame : Frame) : List (List UInt8) :=
  p.cells.reverse ++ (p.current.reverse ++ frame.first) :: frame.others

section Read

variable {cells : List (List UInt8)} {current : List UInt8} {trailing : Bool}

/-- Behind an escape every byte belongs to the cell. -/
theorem read_literal :
    (Pending.mk cells current true trailing).read d byte =
      ⟨cells, byte :: current, false, false⟩ := rfl

/-- An escape belongs to no cell. -/
theorem read_escape (hescape : d.escape = some byte) :
    (Pending.mk cells current false trailing).read d byte =
      ⟨cells, current, true, byte == Source.carriageReturn⟩ :=
  if_pos hescape

/-- A delimiter ends the cell. -/
theorem read_delimiter (hescape : d.escape ≠ some byte) (hbyte : byte = d.delimiter) :
    (Pending.mk cells current false trailing).read d byte =
      ⟨current.reverse :: cells, [], false, byte == Source.carriageReturn⟩ :=
  (if_neg hescape).trans (if_pos hbyte)

/-- Any other byte belongs to the cell. -/
theorem read_other (hescape : d.escape ≠ some byte) (hbyte : byte ≠ d.delimiter) :
    (Pending.mk cells current false trailing).read d byte =
      ⟨cells, byte :: current, false, byte == Source.carriageReturn⟩ :=
  (if_neg hescape).trans (if_neg hbyte)

end Read

/-- A record that has only started has the cells of what follows. -/
theorem joined_start (frame : Frame) : start.joined frame = frame.cells := rfl

/-- Behind a record that goes on with nothing stand the cells that it has at its end. -/
theorem joined_blank (p : Pending) (size : Nat) : p.joined (.blank size) = p.atEnd := by
  simp [joined, atEnd, Frame.blank]

/-- A byte at the end of the pending cell is one in front of the cell that follows. -/
theorem joined_push (cells : List (List UInt8)) (current : List UInt8) (escaped trailing : Bool)
    (frame : Frame) (byte : UInt8) (count : Nat) :
    (Pending.mk cells (byte :: current) escaped trailing).joined frame =
      (Pending.mk cells current escaped trailing).joined (frame.push byte count) := by
  simp [joined, Frame.push]

/-- A cell that ends is one in front of those that follow. -/
theorem joined_addCell (cells : List (List UInt8)) (current : List UInt8) (trailing : Bool)
    (frame : Frame) :
    (Pending.mk (current.reverse :: cells) [] false trailing).joined frame =
      (Pending.mk cells current false trailing).joined frame.addCell := by
  simp [joined, Frame.addCell, Frame.cells]

end Pending

/-- The first record of some bytes has the given size and cells. -/
inductive Cuts (size : Nat) (cells : List (List UInt8)) (bytes : List UInt8) :
    Automaton.Cut Place → Prop where
  | record {taken rest : List UInt8} :
    bytes = taken ++ rest → taken.length = size → Cuts size cells bytes (.record taken cells rest)
  /-- The end of the bytes completes the record. -/
  | completed {p : Pending} :
    p.atEnd = cells → bytes.length = size → Cuts size cells bytes (.unended (.inRecord p))

/-- Bytes in front of a record make it longer and leave its cells. -/
theorem Cuts.behind {size : Nat} {cells : List (List UInt8)} {cut : Automaton.Cut Place}
    (h : Cuts size cells bytes cut) (front : List UInt8) :
    Cuts (size + front.length) cells (front ++ bytes) (cut.behind front) := by
  cases h with
  | record happ hsize =>
    refine .record (by rw [happ, List.append_assoc]) ?_
    rw [List.length_append, hsize, Nat.add_comm]
  | completed hend hsize =>
    refine .completed hend ?_
    rw [List.length_append, hsize, Nat.add_comm]

/-- A byte of a record that does not end it. -/
theorem cut_read (hbyte : byte ≠ Source.lineFeed ∨ p.escaped = true) (rest : List UInt8) :
    (automaton d).cut (.inRecord p) (byte :: rest) =
      ((automaton d).cut (.inRecord (p.read d byte)) rest).behind [byte] := by
  have hstep : (automaton d).step (.inRecord p) byte = .inl (.inRecord (p.read d byte)) := by
    refine if_neg ?_
    rcases hbyte with hbyte | hescaped
    · simp [hbyte]
    · simp [hescaped]
  exact Automaton.cut_cons_inl hstep

/-- A line feed that is not escaped ends the record. -/
theorem cut_lineFeed (hescaped : p.escaped = false) (rest : List UInt8) :
    (automaton d).cut (.inRecord p) (Source.lineFeed :: rest) =
      .record [Source.lineFeed] p.atLineFeed rest := by
  have hstep : (automaton d).step (.inRecord p) Source.lineFeed = .inr p.atLineFeed :=
    if_pos (by simp [hescaped])
  exact Automaton.cut_cons_inr hstep

/-- **The record that is cut off behind a pending one is the one that the pass finds there**, if the
pending one ends with no escape, and not inside a line break. -/
theorem cuts_recordAt (hdelimiter : d.delimiter ≠ Source.carriageReturn) (bytes : List UInt8)
    (hescaped : p.escaped = false)
    (hreturn : p.trailingReturn = true → bytes.head? ≠ some Source.lineFeed) :
    Cuts (recordAt d bytes).size (p.joined (recordAt d bytes)) bytes
      ((automaton d).cut (.inRecord p) bytes) := by
  obtain ⟨cells, current, escaped, trailing⟩ := p
  obtain rfl : escaped = false := hescaped
  fun_induction recordAt d bytes generalizing cells current trailing with
  | case1 => exact .completed (Pending.joined_blank _ 0).symm rfl
  | case2 rest =>
    -- a line feed, with no carriage return in front of it
    have htrailing : trailing = false := by
      cases trailing with
      | false => rfl
      | true => exact absurd rfl (hreturn rfl)
    rw [cut_lineFeed rfl, Pending.joined_blank, Pending.atLineFeed, htrailing]
    exact .record rfl rfl
  | case3 byte hbyte hescape =>
    -- the escape is the last byte
    rw [cut_read (Or.inl hbyte), Pending.read_escape hescape, Pending.joined_blank]
    exact .completed rfl rfl
  | case4 byte hbyte hescape literal rest ih =>
    -- an escape and the byte behind it, which keeps no trace of a line break
    rw [cut_read (Or.inl hbyte), Pending.read_escape hescape, cut_read (Or.inr rfl),
      Pending.read_literal, Automaton.Cut.behind_behind, ← Pending.joined_push]
    exact (ih cells (literal :: current) false (by simp)).behind [byte, literal]
  | case5 byte rest hbyte hescape hbreak =>
    -- a line break of two bytes; the carriage return has been read as a byte of the cell
    obtain ⟨rfl, hrest⟩ := hbreak
    obtain ⟨rest, rfl⟩ := List.head?_eq_some_iff.1 hrest
    rw [cut_read (Or.inl hbyte), Pending.read_other hescape hdelimiter.symm, cut_lineFeed rfl,
      Pending.joined_blank]
    exact .record rfl rfl
  | case6 rest hbyte hescape hbreak ih =>
    -- a delimiter, so the next byte is the first of a cell
    rw [cut_read (Or.inl hbyte), Pending.read_delimiter hescape rfl, beq_false_of_ne hdelimiter,
      ← Pending.joined_addCell]
    exact (ih (current.reverse :: cells) [] false (by simp)).behind [d.delimiter]
  | case7 byte rest hbyte hescape hbreak hother ih =>
    -- if the byte is a carriage return, no line feed follows
    rw [cut_read (Or.inl hbyte), Pending.read_other hescape hother, ← Pending.joined_push]
    have hnext : (byte == Source.carriageReturn) = true → rest.head? ≠ some Source.lineFeed :=
      fun hreturn hhead => hbreak ⟨beq_iff_eq.1 hreturn, hhead⟩
    exact (ih cells (byte :: current) (byte == Source.carriageReturn) hnext).behind [byte]

/-! ## All records -/

/-- The first line goes on over bytes that are no line feed. -/
theorem lineSize_append {line : List UInt8} (h : Source.lineFeed ∉ line) (others : List UInt8) :
    lineSize (line ++ others) = line.length + lineSize others := by
  have hline : ∀ byte ∈ line, (byte != Source.lineFeed) = true :=
    fun byte hbyte => bne_iff_ne.2 fun heq => h (heq ▸ hbyte)
  rw [lineSize, List.takeWhile_append_of_pos hline, List.length_append, Nat.add_assoc, ← lineSize]

/-- A first line and what stands behind it. -/
theorem lineSize_line {line : List UInt8} (h : Source.lineFeed ∉ line) (others : List UInt8) :
    lineSize (line ++ Source.lineFeed :: others) = (line ++ [Source.lineFeed]).length := by
  rw [lineSize_append h, List.length_append]
  rfl

section Outcomes

variable {told position : Position}

/-- The place behind a line that is passed over. -/
def behindLine (place : Position) (line : List UInt8) : Position :=
  ⟨place.byte + line.length, place.line + line.count Source.lineFeed, place.record⟩

/-- The bytes behind a line move the place on as those of both together. -/
theorem past_behindLine (place : Position) (line taken : List UInt8) :
    (behindLine place line).past taken = place.past (line ++ taken) := by
  simp [behindLine, Position.past, Nat.add_assoc]

/-- A record behind a line is told as with the line passed over in front of it. -/
theorem tell_behindLine (place : Position) (line lead : List UInt8) (cells : List (List UInt8)) :
    (automaton d).tell (behindLine place line) lead cells =
      (automaton d).tell place (line ++ lead) cells := by
  simp [automaton, behindLine, Nat.add_assoc]

/-- Behind a comment line everything is found as without it, further on. -/
theorem outcomes_behind_commentLine {line : List UInt8} (hline : Source.lineFeed ∉ line)
    (h : isComment d (line ++ [Source.lineFeed]) = true) (others : List UInt8) :
    (automaton d).outcomes .complete told position (line ++ Source.lineFeed :: others) =
      (automaton d).outcomes .complete (behindLine told (line ++ [Source.lineFeed]))
        (behindLine position (line ++ [Source.lineFeed])) others := by
  have hcut : (automaton d).cut (automaton d).start (line ++ Source.lineFeed :: others) =
      ((automaton d).cut (automaton d).start others).behind (line ++ [Source.lineFeed]) :=
    (cut_commentLine hline h others).1
  have hlead : (automaton d).lead (automaton d).start (line ++ Source.lineFeed :: others) =
      line ++ [Source.lineFeed] ++ (automaton d).lead (automaton d).start others := by
    rw [← List.append_cons]
    exact (cut_commentLine hline h others).2
  cases hothers : (automaton d).cut (automaton d).start others with
  | record taken cells rest =>
    -- the comment line belongs to what is taken by the record
    rw [hothers] at hcut
    rw [Automaton.outcomes_of_record hcut, Automaton.outcomes_of_record hothers, past_behindLine,
      tell_behindLine, hlead]
  | unended place =>
    rw [hothers] at hcut
    rw [Automaton.outcomes_of_unended hcut, Automaton.outcomes_of_unended hothers]
    cases (automaton d).atEnd place with
    | none => rfl
    | some cells =>
      dsimp only
      rw [tell_behindLine, hlead]

/-- A comment in front is passed over up to the end of its line. -/
theorem outcomes_comment (hcomment : d.comment = some byte) (rest : List UInt8) :
    (automaton d).outcomes .complete told position (byte :: rest) =
      (automaton d).outcomes .complete
        (behindLine told ((byte :: rest).take (lineSize (byte :: rest))))
        (behindLine position ((byte :: rest).take (lineSize (byte :: rest))))
        ((byte :: rest).drop (lineSize (byte :: rest))) := by
  have hmarker : isComment d (byte :: rest) = true := by simp [isComment, hcomment]
  generalize hbytes : byte :: rest = bytes at hmarker ⊢
  by_cases hmem : Source.lineFeed ∈ bytes
  · obtain ⟨line, others, rfl, hline⟩ := List.eq_append_cons_of_mem hmem
    have hfirst : isComment d (line ++ [Source.lineFeed]) = true := by
      rw [List.append_cons] at hmarker
      rwa [isComment, List.head?_append_of_ne_nil _ (by simp)] at hmarker
    rw [outcomes_behind_commentLine hline hfirst, lineSize_line hline,
      List.append_cons line Source.lineFeed others, List.take_left, List.drop_left]
  · -- the comment ends with the input
    have hcut : (automaton d).cut (automaton d).start bytes = .unended .inComment :=
      cut_lastComment hmem hmarker
    have hsize : lineSize bytes = bytes.length + 1 := by
      have := lineSize_append hmem []
      rwa [List.append_nil] at this
    rw [Automaton.outcomes_of_unended hcut, hsize, List.drop_eq_nil_of_le (Nat.le_succ _),
      Automaton.outcomes_nil]
    rfl

/-- The record in front is told with the line of its first byte. -/
theorem outcomes_record (hdelimiter : d.delimiter ≠ Source.carriageReturn)
    (hcomment : d.comment ≠ some byte) (rest : List UInt8) :
    (automaton d).outcomes .complete told position (byte :: rest) =
      Reader.outcome told.line (recordAt d (byte :: rest)).cells ::
        (automaton d).outcomes .complete
          (position.past ((byte :: rest).take (recordAt d (byte :: rest)).size))
          (position.past ((byte :: rest).take (recordAt d (byte :: rest)).size))
          ((byte :: rest).drop (recordAt d (byte :: rest)).size) := by
  have hmarker : isComment d (byte :: rest) = false := by
    rw [isComment, List.head?_cons, Bool.and_eq_false_iff]
    exact Or.inr (beq_false_of_ne (Ne.symm hcomment))
  have hfirst := cut_of_not_isComment (List.cons_ne_nil byte rest) hmarker []
  rw [List.append_nil] at hfirst
  have hcuts := cuts_recordAt (p := Pending.start) hdelimiter (byte :: rest) rfl
    (by simp [Pending.start])
  rw [← hfirst.1, Pending.joined_start] at hcuts
  have hlead : (automaton d).lead (automaton d).start (byte :: rest) = [] := hfirst.2
  generalize byte :: rest = bytes at hcuts hlead ⊢
  cases hfound : (automaton d).cut (automaton d).start bytes with
  | record taken cells rest =>
    have hrecord : Cuts (recordAt d bytes).size (recordAt d bytes).cells bytes
      (.record taken cells rest) := hfound ▸ hcuts
    rw [Automaton.outcomes_of_record hfound, hlead]
    cases hrecord with
    | record happ hsize =>
      rw [← hsize, happ, List.take_left, List.drop_left, ← happ]
      rfl
  | unended place =>
    -- the end of the input completes the record
    have hrecord : Cuts (recordAt d bytes).size (recordAt d bytes).cells bytes
      (.unended place) := hfound ▸ hcuts
    rw [Automaton.outcomes_of_unended hfound, hlead]
    cases hrecord with
    | completed hend hsize =>
      rw [← hsize, List.drop_length, Automaton.outcomes_nil, ← hend]
      rfl

end Outcomes

/-- A record is told as its texts, or as the first fault among them. -/
theorem tells_outcome (line : Nat) (cells : List (List UInt8)) :
    Tells line cells (Reader.outcome line cells) := by
  unfold Reader.outcome
  split
  · next texts htexts => exact .record (eq_map_cellBytes_of_decodeCells htexts)
  · next index fault hfault =>
    obtain ⟨texts, cell, others, hcells, hcell⟩ := exists_of_decodeCells_error hfault
    exact .malformed hcells hcell

/-- **What the automaton finds in some bytes are the records of the pass over them.** -/
theorem forall₂_tells (hdelimiter : d.delimiter ≠ Source.carriageReturn) (whole : List UInt8)
    (offset : Nat) {told position : Position} (htold : told.line = position.line)
    (hposition : position.line = 1 + (whole.take offset).count Source.lineFeed) :
    List.Forall₂
      (fun found outcome => Tells (1 + (whole.take found.1).count Source.lineFeed) found.2.cells
        outcome)
      (recordsFrom d offset (whole.drop offset))
      ((automaton d).outcomes .complete told position (whole.drop offset)) := by
  generalize hbytes : whole.drop offset = bytes
  fun_induction recordsFrom d offset bytes generalizing told position with
  | case1 offset =>
    rw [Automaton.outcomes_nil]
    exact .nil
  | case2 offset byte rest hcomment ih =>
    rw [outcomes_comment hcomment]
    refine ih ?_ ?_ ?_
    · simp [behindLine, htold]
    · simp only [behindLine, hposition]
      rw [List.take_add, hbytes, List.count_append, Nat.add_assoc]
    · rw [← List.drop_drop, hbytes]
  | case3 offset byte rest hcomment ih =>
    rw [outcomes_record hdelimiter hcomment]
    refine .cons ?_ (ih rfl ?_ ?_)
    · rw [htold, hposition]
      exact tells_outcome _ _
    · rw [Position.line_past, hposition, List.take_add, hbytes, List.count_append, Nat.add_assoc]
    · rw [← List.drop_drop, hbytes]

/-! ## Whole inputs -/

/-- **The plain framing reads in one pass.** The calls of its reader tell of the records of the pass
over the bytes of the input, one after the other, each with the line of its first byte; behind the
last of them the input has ended. A record that is no text does not move the next. -/
theorem calls_in_one_pass (hquote : d.quote = none)
    (hdelimiter : d.delimiter ≠ Source.carriageReturn) {source : Source}
    (hending : source.ending = .complete) (n : Nat) :
    match (recordsFrom d 0 source.bytes)[n]? with
    | some (offset, frame) =>
      Tells (1 + (source.bytes.take offset).count Source.lineFeed) frame.cells
        ((Framing.Reader.ofSource d source).call n)
    | none => (Framing.Reader.ofSource d source).call n = .finished := by
  have hreader : Framing.Reader.ofSource d source = .plain (Reader.ofSource d source) := by
    rw [Framing.Reader.ofSource, hquote]
    rfl
  have houtcomes : (Framing.Reader.ofSource d source).outcomes =
      (automaton d).outcomes .complete Position.start Position.start source.bytes := by
    rw [hreader, ← hending]
    exact outcomes_eq_automaton rfl rfl rfl
  have hstart : Position.start.line = 1 + (source.bytes.take 0).count Source.lineFeed := rfl
  have hpass := forall₂_tells hdelimiter source.bytes 0 rfl hstart
  rw [List.drop_zero, ← houtcomes] at hpass
  rw [Framing.Reader.call_eq_getElem?]
  split
  · next offset frame hfound =>
    obtain ⟨hn, hget⟩ := List.getElem?_eq_some_iff.1 hfound
    have hlength := hpass.length_eq ▸ hn
    have htells := hpass.get hn hlength
    simp only [List.get_eq_getElem, hget] at htells
    rw [List.getElem?_eq_getElem hlength]
    exact htells
  · next hfound =>
    -- there are no more outcomes than records
    have hn := List.getElem?_eq_none_iff.1 hfound
    rw [List.getElem?_eq_none (hpass.length_eq ▸ hn)]
    rfl

/-- In two pieces: a comment that ends like an escape; a record with an escaped delimiter and three
carriage returns, the second of them escaped; a record that is no text; a record with an escaped
line feed, and with an escape at the end of the input. -/
def mixedSource : Source :=
  ⟨[Utf8.encode "#,\\\na\\,b,\r\\\r\r".toList,
    Source.lineFeed :: 0xFF :: Source.lineFeed :: Utf8.encode "p\\\n,q\\".toList], .complete⟩

/-- The records of `mixedSource` are told one after the other. -/
theorem calls_in_one_pass_mixed :
    let reader := Framing.Reader.ofSource escapingDialect mixedSource
    Tells 2 (["a,b", "\r\r"].map cellBytes) (reader.call 0) ∧
      Tells 3 [[0xFF]] (reader.call 1) ∧
      Tells 4 (["p\n", "q"].map cellBytes) (reader.call 2) ∧
      reader.call 3 = .finished := by
  have hrecords : recordsFrom escapingDialect 0 mixedSource.bytes =
      [(4, ⟨cellBytes "a,b", [cellBytes "\r\r"], 10⟩), (14, ⟨[0xFF], [], 2⟩),
        (16, ⟨cellBytes "p\n", [cellBytes "q"], 6⟩)] := by
    cbv
  have hcall := @calls_in_one_pass escapingDialect rfl (by decide) mixedSource rfl
  rw [hrecords] at hcall
  exact ⟨hcall 0, hcall 1, hcall 2, hcall 3⟩

end Plain

end TypedCsv.Framing
