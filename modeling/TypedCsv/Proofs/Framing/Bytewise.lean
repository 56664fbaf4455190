import TypedCsv.Proofs.Framing.Automaton
import TypedCsv.Proofs.Framing.Plain
import TypedCsv.Proofs.Framing.Quoted

/-! # Both framings read byte by byte

The quoted framing is a machine over bytes already. The plain framing reads whole lines and puts
records together from them; it finds the same as an automaton that carries the pending record from
byte to byte (`Plain.Found`). So what either finds is settled by the bytes and the ending of an
input (`Reader.outcomes_ofSource`).

* `Quoted.automaton`, `Plain.automaton`: the framings as automata.
* `Framing.automaton`: the one of a dialect. -/

namespace TypedCsv.Framing

/-! ## The quoted framing -/

namespace Quoted

variable {d : Dialect} {m n : Machine} {source : Source} {position : Position}

/-- The machine, byte by byte. A record is told from the place where the one before it ended, also
if blank lines and comments come between them. -/
def automaton (d : Dialect) : Automaton where
  State := Machine
  start := Machine.start
  step m byte :=
    match step d m byte with
    | .more n => .inl n
    | .record cells => .inr cells
  atEnd := Machine.atEnd
  isIdle m := m.mode == .recordStart || m.mode == .inComment
  tell place _ cells :=
    match decodeCells 0 cells with
    | .ok cells => .record place.line cells
    | .error (cell, fault) => .malformed place.line (.quotedText place cell fault.index)
  atEnd_start := rfl

/-- A byte that leads the machine on leads the automaton to the same state. -/
theorem step_automaton_more {byte : UInt8} (h : step d m byte = .more n) :
    (automaton d).step m byte = .inl n := by
  simp only [automaton, h]

/-- A byte that ends a record of the machine ends it for the automaton. -/
theorem step_automaton_record {byte : UInt8} {cells : List (List UInt8)}
    (h : step d m byte = .record cells) : (automaton d).step m byte = .inr cells := by
  simp only [automaton, h]

/-- A step of the automaton is one of the machine. -/
theorem step_of_automaton_inl {byte : UInt8} (h : (automaton d).step m byte = .inl n) :
    step d m byte = .more n := by
  cases hstep : step d m byte with
  | more n' => exact congrArg Step.more (Sum.inl.inj ((step_automaton_more hstep).symm.trans h))
  | record cells => cases (step_automaton_record hstep).symm.trans h

/-- A record that the automaton ends is one that the machine ends. -/
theorem step_of_automaton_inr {byte : UInt8} {cells : List (List UInt8)}
    (h : (automaton d).step m byte = .inr cells) : step d m byte = .record cells := by
  cases hstep : step d m byte with
  | more n => cases (step_automaton_more hstep).symm.trans h
  | record cells' =>
    exact congrArg Step.record (Sum.inr.inj ((step_automaton_record hstep).symm.trans h))

/-- No byte changes the number of the record. -/
theorem record_foldl_advance (position : Position) (bytes : List UInt8) :
    (bytes.foldl Position.advance position).record = position.record := by
  induction bytes generalizing position with
  | nil => rfl
  | cons byte bytes ih => exact ih (position.advance byte)

/-- The place that the machine counts byte by byte. -/
theorem nextRecord_foldl_advance (position : Position) (bytes : List UInt8) :
    (bytes.foldl Position.advance position).nextRecord = position.past bytes := by
  rw [Position.nextRecord, line_foldl_advance, byte_foldl_advance, record_foldl_advance,
    Position.past]

/-- A scan finds the record that is cut off the bytes. -/
theorem scan_of_cut_record {taken rest : List UInt8} {cells : List (List UInt8)}
    (h : (automaton d).cut m source.bytes = .record taken cells rest) (position : Position) :
    ∃ after, scan d m position source =
        .record cells (taken.foldl Position.advance position) after ∧
      after.bytes = rest ∧ after.ending = source.ending := by
  generalize hbytes : source.bytes = bytes at h
  induction bytes generalizing m position source taken with
  | nil => cases h
  | cons byte bytes ih =>
    obtain ⟨next, hnext, hb, he⟩ := Source.next?_of_bytes hbytes
    rw [scan_of_next? hnext]
    cases hstep : step d m byte with
    | record found =>
      rw [Automaton.cut_cons_inr (step_automaton_record hstep)] at h
      cases h
      exact ⟨next, rfl, hb, he⟩
    | more n =>
      rw [Automaton.cut_cons_inl (step_automaton_more hstep)] at h
      cases hinner : (automaton d).cut n bytes with
      | unended state =>
        rw [hinner] at h
        cases h
      | record inner found last =>
        rw [hinner] at h
        cases h
        obtain ⟨after, hscan, hafter, hend⟩ := ih (position.advance byte) hb hinner
        exact ⟨after, hscan, hafter, hend.trans he⟩

/-- A scan of bytes that end no record ends with them. -/
theorem scan_of_cut_unended (h : (automaton d).cut m source.bytes = .unended n)
    (position : Position) : scan d m position source = .ended n := by
  generalize hbytes : source.bytes = bytes at h
  induction bytes generalizing m position source with
  | nil =>
    cases h
    exact scan_of_next?_eq_none ((Source.next?_eq_none_iff _).2 hbytes)
  | cons byte bytes ih =>
    obtain ⟨next, hnext, hb, -⟩ := Source.next?_of_bytes hbytes
    rw [scan_of_next? hnext]
    cases hstep : step d m byte with
    | record found =>
      rw [Automaton.cut_cons_inr (step_automaton_record hstep)] at h
      cases h
    | more k =>
      rw [Automaton.cut_cons_inl (step_automaton_more hstep)] at h
      exact ih (position.advance byte) hb (Automaton.Cut.of_behind_eq_unended h)

/-- The opening of an input is the input, or what comes behind a mark in its first piece. -/
theorem Reader.opening_cases (r : Reader) :
    r.opening = (r.source, r.position) ∨
      ∃ piece pieces, r.source.pieces = (byteOrderMark ++ piece) :: pieces ∧
        r.opening = (if piece.isEmpty then ⟨[], .complete⟩ else ⟨piece :: pieces, r.source.ending⟩,
          { r.position with byte := byteOrderMark.length }) := by
  unfold opening
  split
  · split
    · next piece pieces hpieces =>
      refine Or.inr ⟨piece, pieces, hpieces, ?_⟩
      dsimp only
      split <;> rfl
    · exact Or.inl rfl
  · exact Or.inl rfl

/-- A record is never taken for the end of the input. -/
theorem outcome_ne_finished (r : Reader) (cells : List (List UInt8)) :
    r.outcome cells ≠ .finished := by
  rw [Reader.outcome]
  split <;> simp

/-- The reader behind a record. -/
def Reader.behind (r : Reader) (position : Position) (rest : Source) : Reader :=
  { r with source := rest, position := position.nextRecord }

/-- A record that is scanned is what a reader finds next, and the reader goes on behind it. -/
theorem next_of_scan_record {r : Reader} (hopen : r.closed = false) {after : Position}
    {rest : Source} {cells : List (List UInt8)}
    (h : scan r.dialect Machine.start r.opening.2 r.opening.1 = .record cells after rest) :
    r.next = (r.outcome cells, r.behind after rest) := by
  simp only [Reader.next, hopen, h, Reader.behind, Bool.false_eq_true, if_false]

/-- **The quoted framing is its machine**, run over the opening of the input. -/
theorem outcomes_eq_automaton {r : Reader} (hopen : r.closed = false) :
    (Framing.Reader.quoted r).outcomes =
      (automaton r.dialect).outcomes r.opening.1.ending r.position r.opening.2
        r.opening.1.bytes := by
  generalize hsize : r.opening.1.size = size
  induction size using Nat.strongRecOn generalizing r with
  | ind size ih =>
    have hclose : (Framing.Reader.quoted r.close).outcomes = [] :=
      Framing.Reader.outcomes_of_closed rfl
    cases hcut : (automaton r.dialect).cut Machine.start r.opening.1.bytes with
    | record taken cells rest =>
      obtain ⟨after, hscan, rfl, hend⟩ := scan_of_cut_record hcut r.opening.2
      let position := taken.foldl Position.advance r.opening.2
      -- no mark is passed over behind the record
      have hopening : (r.behind position after).opening = (after, r.opening.2.past taken) := by
        rw [Reader.opening_eq, Reader.behind, nextRecord_foldl_advance]
        intro hbyte
        have hpos := List.length_pos_iff.2 (Automaton.of_cut_eq_record hcut).2.1
        simp only [Reader.behind, position, nextRecord_foldl_advance, Position.past] at hbyte
        omega
      have hrest := ih after.size (hsize ▸ Automaton.length_lt_of_cut hcut)
        (r := r.behind position after) hopen (by rw [hopening])
      have hnext : (Framing.Reader.quoted r).next =
          (r.outcome cells, .quoted (r.behind position after)) := by
        rw [Framing.Reader.next, next_of_scan_record hopen hscan]
      rw [Automaton.outcomes_of_record hcut,
        Framing.Reader.outcomes_of_next hnext (outcome_ne_finished r cells), hrest, hopening, hend,
        Reader.behind, nextRecord_foldl_advance]
      rfl
    | unended state =>
      have hscan := scan_of_cut_unended hcut r.opening.2
      rw [Automaton.outcomes_of_unended hcut]
      cases hend : r.opening.1.ending with
      | failure fault =>
        have hnext : (Framing.Reader.quoted r).next = (.failed fault, .quoted r.close) := by
          simp only [Framing.Reader.next, Reader.next, hopen, hscan, hend, Bool.false_eq_true,
            if_false]
        rw [Framing.Reader.outcomes_of_next hnext (by simp), hclose]
      | complete =>
        cases hcells : state.atEnd with
        | none =>
          have hnext : (Framing.Reader.quoted r).next.1 = .finished := by
            simp only [Framing.Reader.next, Reader.next, hopen, hscan, hend, hcells,
              Bool.false_eq_true, if_false]
          have hnone : (automaton r.dialect).atEnd state = none := hcells
          rw [Framing.Reader.outcomes_of_finished hnext, hnone]
        | some cells =>
          have hnext : (Framing.Reader.quoted r).next = (r.outcome cells, .quoted r.close) := by
            simp only [Framing.Reader.next, Reader.next, hopen, hscan, hend, hcells,
              Bool.false_eq_true, if_false]
          have hsome : (automaton r.dialect).atEnd state = some cells := hcells
          rw [Framing.Reader.outcomes_of_next hnext (outcome_ne_finished r cells), hclose, hsome]
          rfl

end Quoted

/-! ## The plain framing -/

namespace Plain

variable {d : Dialect} {p q : Pending} {bytes line : List UInt8}

/-- Where the automaton of the plain framing stands. -/
inductive Place where
  | recordStart
  | inComment
  | inRecord (p : Pending)

/-- Reads a byte of a comment. -/
def stepComment (byte : UInt8) : Place :=
  if byte = Source.lineFeed then .recordStart else .inComment

/-- Reads a byte of a record. -/
def stepRecord (d : Dialect) (p : Pending) (byte : UInt8) : Place ⊕ List (List UInt8) :=
  if ! p.escaped && byte == Source.lineFeed then .inr p.atLineFeed
  else .inl (.inRecord (p.read d byte))

/-- The plain framing, byte by byte. A record is told by the line on which it starts. -/
def automaton (d : Dialect) : Automaton where
  State := Place
  start := .recordStart
  step
    | .recordStart, byte =>
      if d.comment = some byte then .inl (stepComment byte) else stepRecord d Pending.start byte
    | .inComment, byte => .inl (stepComment byte)
    | .inRecord p, byte => stepRecord d p byte
  atEnd
    | .inRecord p => some p.atEnd
    | _ => none
  isIdle
    | .inRecord _ => false
    | _ => true
  tell place lead cells := Reader.outcome (place.line + lead.count Source.lineFeed) cells
  atEnd_start := rfl

/-! ### The bytes of a line -/

/-- A comment goes on up to a line feed. -/
theorem stepComment_of_ne {byte : UInt8} (h : byte ≠ Source.lineFeed) :
    stepComment byte = .inComment :=
  if_neg h

/-- A byte that is no line feed ends no record. -/
theorem stepRecord_of_ne {byte : UInt8} (h : byte ≠ Source.lineFeed) :
    stepRecord d p byte = .inl (.inRecord (p.read d byte)) :=
  if_neg (by simp [h])

/-- Bytes without a line feed end no record. -/
theorem cut_of_not_mem (h : Source.lineFeed ∉ bytes) (s : Place) :
    ∃ t, (automaton d).cut s bytes = .unended t := by
  induction bytes generalizing s with
  | nil => exact ⟨s, rfl⟩
  | cons byte bytes ih =>
    obtain ⟨hne, hbytes⟩ := not_or.1 (mt List.mem_cons.2 h)
    obtain ⟨t, hstep⟩ : ∃ t, (automaton d).step s byte = .inl t := by
      cases s with
      | recordStart =>
        by_cases hc : d.comment = some byte
        · exact ⟨_, if_pos hc⟩
        · exact ⟨_, (if_neg hc).trans (stepRecord_of_ne (Ne.symm hne))⟩
      | inComment => exact ⟨_, rfl⟩
      | inRecord p => exact ⟨_, stepRecord_of_ne (Ne.symm hne)⟩
    obtain ⟨u, hcut⟩ := ih hbytes t
    exact ⟨u, by rw [Automaton.cut_cons_inl hstep, hcut]; rfl⟩

/-- Bytes without a line feed are read up to their end. -/
theorem readLine_of_not_mem (h : Source.lineFeed ∉ line) :
    p.readLine d line = ((p.readLine d line).1, false) := by
  induction line generalizing p with
  | nil => rfl
  | cons byte line ih =>
    obtain ⟨hne, hline⟩ := not_or.1 (mt List.mem_cons.2 h)
    rw [Pending.readLine, if_neg (by simp [Ne.symm hne])]
    exact ih hline

/-- A line that ends with its only line feed counts as one. -/
theorem count_line (h : Source.lineFeed ∉ line) :
    (line ++ [Source.lineFeed]).count Source.lineFeed = 1 := by
  rw [List.count_append, List.count_eq_zero_of_not_mem h, List.count_singleton_self]

/-- The automaton carries the pending record through a line that does not end it. -/
theorem cut_of_readLine (h : p.readLine d line = (q, false)) :
    (automaton d).cut (.inRecord p) line = .unended (.inRecord q) := by
  induction line generalizing p with
  | nil =>
    cases h
    rfl
  | cons byte line ih =>
    rw [Pending.readLine] at h
    split at h
    · cases h
    · next hbyte =>
      have hstep : (automaton d).step (.inRecord p) byte = .inl (.inRecord (p.read d byte)) :=
        if_neg hbyte
      rw [Automaton.cut_cons_inl hstep, ih h]
      rfl

/-- A line that ends the pending record is taken whole. -/
theorem cut_of_readLine_ends (hline : Source.lineFeed ∉ line)
    (h : p.readLine d (line ++ [Source.lineFeed]) = (q, true)) (others : List UInt8) :
    (automaton d).cut (.inRecord p) (line ++ Source.lineFeed :: others) =
      .record (line ++ [Source.lineFeed]) q.atLineFeed others := by
  -- the record is still pending in front of the line feed, which is not escaped
  have hbody := readLine_of_not_mem (d := d) (p := p) hline
  rw [Pending.readLine_append hbody, Pending.readLine] at h
  rw [Automaton.cut_append (cut_of_readLine hbody)]
  split at h
  · next hbyte =>
    cases h
    have hstep : (automaton d).step (.inRecord (p.readLine d line).1) Source.lineFeed =
        .inr (p.readLine d line).1.atLineFeed := if_pos hbyte
    rw [Automaton.cut_cons_inr hstep]
    rfl
  · cases h

/-- A comment goes on up to a line feed. -/
theorem cut_inComment (hline : Source.lineFeed ∉ line) (others : List UInt8) :
    (automaton d).cut .inComment (line ++ others) =
        ((automaton d).cut .inComment others).behind line ∧
      (automaton d).lead .inComment (line ++ others) =
        line ++ (automaton d).lead .inComment others := by
  induction line with
  | nil => exact ⟨(Automaton.Cut.behind_nil _).symm, rfl⟩
  | cons byte line ih =>
    obtain ⟨hne, hline⟩ := not_or.1 (mt List.mem_cons.2 hline)
    have hstep : (automaton d).step .inComment byte = .inl .inComment :=
      congrArg Sum.inl (stepComment_of_ne (Ne.symm hne))
    obtain ⟨hcut, hlead⟩ := ih hline
    rw [List.cons_append, Automaton.cut_cons_inl hstep, hcut, Automaton.Cut.behind_behind,
      Automaton.lead_cons_of_idle hstep rfl, hlead]
    exact ⟨rfl, rfl⟩

/-- Where a record may start, the marker starts a comment. -/
theorem step_of_isComment (h : isComment d line = true) :
    ∃ byte rest, line = byte :: rest ∧
      (automaton d).step .recordStart byte = (automaton d).step .inComment byte := by
  cases line with
  | nil => cases hc : d.comment <;> simp [isComment, hc] at h
  | cons byte rest =>
    rw [isComment, Bool.and_eq_true, beq_iff_eq] at h
    exact ⟨byte, rest, rfl, if_pos h.2.symm⟩

/-- A comment line in front of a record is passed over. -/
theorem cut_commentLine (hline : Source.lineFeed ∉ line)
    (h : isComment d (line ++ [Source.lineFeed]) = true) (others : List UInt8) :
    (automaton d).cut .recordStart (line ++ Source.lineFeed :: others) =
        ((automaton d).cut .recordStart others).behind (line ++ [Source.lineFeed]) ∧
      (automaton d).lead .recordStart (line ++ Source.lineFeed :: others) =
        line ++ Source.lineFeed :: (automaton d).lead .recordStart others := by
  obtain ⟨byte, rest, heq, hstep⟩ := step_of_isComment h
  have hbytes : line ++ Source.lineFeed :: others = byte :: (rest ++ others) := by
    rw [List.append_cons, heq, List.cons_append]
  have hend : (automaton d).step .inComment Source.lineFeed = .inl .recordStart := rfl
  obtain ⟨hcut, hlead⟩ := cut_inComment (d := d) hline (Source.lineFeed :: others)
  rw [Automaton.cut_cons_inl hend, Automaton.Cut.behind_behind] at hcut
  rw [Automaton.lead_cons_of_idle hend rfl] at hlead
  rw [← hcut, ← hlead, hbytes]
  exact ⟨Automaton.cut_congr hstep _, Automaton.lead_congr hstep _⟩

/-- A comment without a line feed ends with the input. -/
theorem cut_lastComment (hline : Source.lineFeed ∉ line) (h : isComment d line = true) :
    (automaton d).cut .recordStart line = .unended .inComment := by
  have hcomment : (automaton d).cut .inComment line = .unended .inComment := by
    have hcut := (cut_inComment (d := d) hline []).1
    rwa [List.append_nil] at hcut
  obtain ⟨byte, rest, rfl, hstep⟩ := step_of_isComment h
  exact (Automaton.cut_congr hstep rest).trans hcomment

/-- Where a record may start, any other line is the first of a record. -/
theorem cut_of_not_isComment (hne : line ≠ []) (h : isComment d line = false)
    (others : List UInt8) :
    (automaton d).cut .recordStart (line ++ others) =
        (automaton d).cut (.inRecord Pending.start) (line ++ others) ∧
      (automaton d).lead .recordStart (line ++ others) = [] := by
  obtain ⟨byte, line, rfl⟩ := List.exists_cons_of_ne_nil hne
  have hbyte : d.comment ≠ some byte := by
    intro hc
    simp [isComment, hc] at h
  have hstep : (automaton d).step .recordStart byte =
      (automaton d).step (.inRecord Pending.start) byte := if_neg hbyte
  refine ⟨Automaton.cut_congr hstep _, ?_⟩
  -- the byte belongs to the record
  refine Automaton.lead_cons_of_not_idle (fun t ht => ?_) _
  rw [hstep] at ht
  have hrecord : stepRecord d Pending.start byte = .inl t := ht
  rw [stepRecord] at hrecord
  split at hrecord <;> cases hrecord
  rfl

/-! ### The scan -/

/-- That a scan of lines finds what is cut off the bytes. `startLine`: the line on which the record
starts; `lines`: the number of lines that have been read before. -/
inductive Found (startLine lines : Nat) (ending : Ending) : Automaton.Cut Place → Scan → Prop where
  | record {taken : List UInt8} {cells : List (List UInt8)} {total : Nat} {rest : Source} :
    rest.ending = ending → total = lines + taken.count Source.lineFeed →
      Found startLine lines ending (.record taken cells rest.bytes)
        (.record startLine cells total rest)
  -- the end of the input completes the record
  | completed {p : Pending} {total : Nat} {rest : Source} :
    ending = .complete → rest.bytes = [] → rest.ending = .complete →
      Found startLine lines ending (.unended (.inRecord p)) (.record startLine p.atEnd total rest)
  | ended {place : Place} :
    ending = .complete → place = .recordStart ∨ place = .inComment →
      Found startLine lines ending (.unended place) .ended
  | failed {place : Place} {fault : IoFault} :
    ending = .failure fault → Found startLine lines ending (.unended place) (.failed fault)

variable {startLine lines : Nat} {ending : Ending} {cut : Automaton.Cut Place} {result : Scan}

/-- Behind some bytes as many lines more have been read as they hold line feeds. -/
theorem Found.behind (h : Found startLine (lines + bytes.count Source.lineFeed) ending cut result) :
    Found startLine lines ending (cut.behind bytes) result := by
  cases h with
  | record he ht => exact .record he (by rw [ht, List.count_append, Nat.add_assoc])
  | completed he hb hr => exact .completed he hb hr
  | ended he hp => exact .ended he hp
  | failed he => exact .failed he

/-- How many lines have been read does not matter where no record ends. -/
theorem Found.of_unended {place : Place} (h : Found startLine lines ending (.unended place) result)
    (other : Nat) : Found startLine other ending (.unended place) result := by
  cases h with
  | completed he hb hr => exact .completed he hb hr
  | ended he hp => exact .ended he hp
  | failed he => exact .failed he

/-- A line either ends the pending record or is carried into the next line. -/
theorem scanRecord_of_readLine {source rest : Source} (h : source.readLine = .line line rest) :
    scanRecord d startLine lines p source =
      match p.readLine d line with
      | (q, true) => .record startLine q.atLineFeed (lines + 1) rest
      | (q, false) => scanRecord d startLine (lines + 1) q rest := by
  rw [scanRecord.eq_def]
  split
  · next hr => rw [h] at hr; cases hr
  · next hr => rw [h] at hr; cases hr
  · next hr =>
    rw [h] at hr
    cases hr
    rfl

/-- The lines of a record are read to where the automaton ends it. -/
theorem found_scanRecord (startLine lines : Nat) (p : Pending) (source : Source) :
    Found startLine lines source.ending ((automaton d).cut (.inRecord p) source.bytes)
      (scanRecord d startLine lines p source) := by
  fun_induction scanRecord d startLine lines p source with
  | case1 lines p source fault hr =>
    obtain ⟨hmem, he⟩ := Source.of_readLine_eq_failed hr
    obtain ⟨place, hcut⟩ := cut_of_not_mem (d := d) hmem (.inRecord p)
    rw [hcut]
    exact .failed he
  | case2 lines p source hr =>
    obtain ⟨hb, he⟩ := Source.of_readLine_eq_ended hr
    rw [hb]
    exact .completed he hb he
  | case3 lines p source line rest hr q hq =>
    -- the line ends the record, so it has a line feed
    obtain ⟨hend, ⟨body, hbody, rfl, hb⟩ | ⟨hmem, -⟩⟩ := Source.of_readLine_eq_line hr
    · rw [hb, cut_of_readLine_ends hbody hq]
      exact .record hend (by rw [count_line hbody])
    · rw [readLine_of_not_mem hmem] at hq
      cases hq
  | case4 lines p source line rest hr q hq ih =>
    obtain ⟨hb, -⟩ := Source.bytes_of_readLine hr
    rw [hb, Automaton.cut_append (cut_of_readLine hq)]
    obtain ⟨hend, ⟨body, hbody, rfl, -⟩ | ⟨-, -, -, hrest, -⟩⟩ := Source.of_readLine_eq_line hr
    · -- the line feed was escaped
      rw [← hend]
      exact Found.behind (by rw [count_line hbody]; exact ih)
    · -- this was the last line
      rw [hrest, hend] at ih
      rw [hrest]
      exact ih.of_unended lines

/-- Any other line is the first of a record. -/
theorem found_of_not_isComment {source rest : Source} (h : source.readLine = .line line rest)
    (hc : isComment d line = false) (lines : Nat) :
    Found (lines + 1 + ((automaton d).lead .recordStart source.bytes).count Source.lineFeed) lines
      source.ending ((automaton d).cut .recordStart source.bytes)
      (scanRecord d (lines + 1) lines Pending.start source) := by
  obtain ⟨hb, hne⟩ := Source.bytes_of_readLine h
  obtain ⟨hcut, hlead⟩ := cut_of_not_isComment hne hc rest.bytes
  have hfound := found_scanRecord (d := d) (lines + 1) lines Pending.start source
  rw [hb, ← hcut] at hfound
  rw [hb, hlead]
  exact hfound

/-- The comment lines in front of a record are passed over by both. -/
theorem found_scan (lines : Nat) (source : Source) :
    Found (lines + 1 + ((automaton d).lead .recordStart source.bytes).count Source.lineFeed) lines
      source.ending ((automaton d).cut .recordStart source.bytes) (scan d lines source) := by
  fun_induction scan d lines source with
  | case1 lines source fault hr =>
    obtain ⟨hmem, he⟩ := Source.of_readLine_eq_failed hr
    obtain ⟨place, hcut⟩ := cut_of_not_mem (d := d) hmem .recordStart
    rw [hcut]
    exact .failed he
  | case2 lines source hr =>
    obtain ⟨hb, he⟩ := Source.of_readLine_eq_ended hr
    rw [hb]
    exact .ended he (Or.inl rfl)
  | case3 lines source line rest hr hcomment ih =>
    obtain ⟨hend, ⟨body, hbody, rfl, hb⟩ | ⟨hmem, -, hb, hrest, he⟩⟩ :=
      Source.of_readLine_eq_line hr
    · obtain ⟨hcut, hlead⟩ := cut_commentLine hbody hcomment rest.bytes
      rw [hb, hcut, hlead, ← hend]
      refine Found.behind ?_
      rw [count_line hbody, List.append_cons, List.count_append, count_line hbody,
        ← Nat.add_assoc, Nat.add_right_comm lines 1 1]
      exact ih
    · -- a comment that the input ends with
      rw [hrest] at ih
      rw [hb, cut_lastComment (hb ▸ hmem) hcomment, he]
      generalize scan d (lines + 1) rest = result at ih
      cases ih with
      | ended => exact .ended rfl (Or.inr rfl)
      | failed hfailed => rw [hend, he] at hfailed; cases hfailed
  | case4 lines source line rest hr hcomment q hq =>
    have hfound := found_of_not_isComment hr (Bool.eq_false_iff.2 hcomment) lines
    rwa [scanRecord_of_readLine hr, hq] at hfound
  | case5 lines source line rest hr hcomment q hq =>
    have hfound := found_of_not_isComment hr (Bool.eq_false_iff.2 hcomment) lines
    rwa [scanRecord_of_readLine hr, hq] at hfound

/-- A record is never taken for the end of the input. -/
theorem outcome_ne_finished (line : Nat) (cells : List (List UInt8)) :
    Reader.outcome line cells ≠ .finished := by
  rw [Reader.outcome]
  split <;> simp

/-- **The plain framing is its automaton**: line by line and byte by byte the same is found. -/
theorem outcomes_eq_automaton {r : Reader} (hopen : r.closed = false) {told position : Position}
    (htold : told.line = r.lines + 1) (hposition : position.line = r.lines + 1) :
    (Framing.Reader.plain r).outcomes =
      (automaton r.dialect).outcomes r.source.ending told position r.source.bytes := by
  generalize hsize : r.source.size = size
  induction size using Nat.strongRecOn generalizing r told position with
  | ind size ih =>
    have hfound := found_scan (d := r.dialect) r.lines r.source
    -- both tell a record by the line behind the comments in front of it
    have htell (cells : List (List UInt8)) : (automaton r.dialect).tell told
        ((automaton r.dialect).lead .recordStart r.source.bytes) cells =
        Reader.outcome (told.line + ((automaton r.dialect).lead .recordStart
          r.source.bytes).count Source.lineFeed) cells := rfl
    rw [htold] at htell
    generalize (r.lines + 1 + ((automaton r.dialect).lead .recordStart
      r.source.bytes).count Source.lineFeed) = startLine at hfound htell
    generalize hcut : (automaton r.dialect).cut .recordStart r.source.bytes = cut at hfound
    generalize hscan : scan r.dialect r.lines r.source = result at hfound
    cases hfound with
    | @record taken cells total rest hend htotal =>
      have hnext : (Framing.Reader.plain r).next =
          (Reader.outcome startLine cells, .plain { r with source := rest, lines := total }) := by
        simp only [Framing.Reader.next, Reader.next, hopen, hscan, Bool.false_eq_true, if_false]
      have hline : (position.past taken).line = total + 1 := by
        rw [Position.line_past, hposition, htotal]
        omega
      have hrest := ih rest.size (hsize ▸ Automaton.length_lt_of_cut hcut)
        (r := { r with source := rest, lines := total }) hopen hline hline rfl
      rw [Automaton.outcomes_of_record hcut,
        Framing.Reader.outcomes_of_next hnext (outcome_ne_finished startLine cells), hrest, hend]
      exact congrArg (· :: _) (htell cells).symm
    | @completed p total rest hcomplete hb hend =>
      have hnext : (Framing.Reader.plain r).next =
          (Reader.outcome startLine p.atEnd,
            .plain { r with source := rest, lines := total }) := by
        simp only [Framing.Reader.next, Reader.next, hopen, hscan, Bool.false_eq_true, if_false]
      -- nothing is left behind the record
      have hrest : (Framing.Reader.plain { r with source := rest, lines := total }).outcomes = [] :=
        Framing.Reader.outcomes_of_finished (next_of_bytes_eq_nil hopen hb hend)
      rw [Automaton.outcomes_of_unended hcut,
        Framing.Reader.outcomes_of_next hnext (outcome_ne_finished startLine p.atEnd), hrest,
        hcomplete]
      exact congrArg (fun outcome => [outcome]) (htell p.atEnd).symm
    | @ended place hcomplete hplace =>
      have hnext : (Framing.Reader.plain r).next.1 = .finished := by
        simp only [Framing.Reader.next, Reader.next, hopen, hscan, Bool.false_eq_true, if_false]
      rw [Automaton.outcomes_of_unended hcut, Framing.Reader.outcomes_of_finished hnext, hcomplete]
      obtain rfl | rfl := hplace <;> rfl
    | @failed place fault hfailure =>
      have hnext : (Framing.Reader.plain r).next =
          (.failed fault, .plain { r with closed := true }) := by
        simp only [Framing.Reader.next, Reader.next, hopen, hscan, Bool.false_eq_true, if_false]
      have hclosed : (Framing.Reader.plain { r with closed := true }).outcomes = [] :=
        Framing.Reader.outcomes_of_closed rfl
      rw [Automaton.outcomes_of_unended hcut, Framing.Reader.outcomes_of_next hnext (by simp),
        hclosed, hfailure]

end Plain

/-! ## The framing of a dialect -/

/-- The automaton of a dialect. -/
def automaton (d : Dialect) : Automaton :=
  if d.quote.isSome then Quoted.automaton d else Plain.automaton d

/-- With a quote the automaton is that of the quoted framing. -/
theorem automaton_of_quoted {d : Dialect} (h : d.quote.isSome = true) :
    automaton d = Quoted.automaton d :=
  if_pos h

/-- Without a quote the automaton is that of the plain framing. -/
theorem automaton_of_plain {d : Dialect} (h : ¬ d.quote.isSome = true) :
    automaton d = Plain.automaton d :=
  if_neg h

/-- The input that is read and the place where it starts: behind a byte order mark that the quoted
framing passes over. -/
def opening (d : Dialect) (source : Source) : Source × Position :=
  if d.quote.isSome then (Quoted.Reader.ofSource d source).opening else (source, Position.start)

/-- An input that does not start with a byte order mark is read from its first byte. -/
theorem opening_eq {d : Dialect} {source : Source}
    (h : d.quote.isSome → ¬ Quoted.byteOrderMark <+: source.bytes) :
    opening d source = (source, Position.start) := by
  rw [opening]
  split
  · next hquoted => exact Quoted.Reader.opening_eq fun _ => h hquoted
  · rfl

/-- An input whose opening has any bytes is its opening, perhaps behind a byte order mark. -/
theorem exists_mark_append {d : Dialect} {source : Source}
    (h : (opening d source).1.bytes ≠ []) :
    ∃ mark, source.bytes = mark ++ (opening d source).1.bytes ∧
      (mark = [] ∨ d.quote.isSome ∧ mark = Quoted.byteOrderMark) := by
  rw [opening] at h ⊢
  split
  · next hquoted =>
    rw [if_pos hquoted] at h
    obtain hopening | ⟨piece, pieces, hpieces, hopening⟩ :=
      (Quoted.Reader.ofSource d source).opening_cases
    · exact ⟨[], by rw [hopening]; rfl, Or.inl rfl⟩
    · replace hpieces : source.pieces = (Quoted.byteOrderMark ++ piece) :: pieces := hpieces
      rw [hopening] at h ⊢
      -- a first piece that is nothing but the mark would end the input
      have hpiece : ¬ piece.isEmpty = true := fun hempty => h (by rw [if_pos hempty]; rfl)
      refine ⟨Quoted.byteOrderMark, ?_, Or.inr ⟨hquoted, rfl⟩⟩
      simp only [Source.bytes, hpieces, if_neg hpiece, List.flatten_cons, List.append_assoc]
  · exact ⟨[], rfl, Or.inl rfl⟩

/-- The first byte that is read stands on line 1, behind a byte order mark as well. -/
theorem line_opening (d : Dialect) (source : Source) : (opening d source).2.line = 1 := by
  rw [opening]
  split
  · obtain hopening | ⟨piece, pieces, -, hopening⟩ :=
      (Quoted.Reader.ofSource d source).opening_cases <;> rw [hopening] <;> rfl
  · rfl

/-- **What is found in an input is what the automaton of its dialect finds in its bytes.** -/
theorem Reader.outcomes_ofSource (d : Dialect) (source : Source) :
    (Reader.ofSource d source).outcomes =
      (automaton d).outcomes (opening d source).1.ending Position.start (opening d source).2
        (opening d source).1.bytes := by
  rw [Reader.ofSource, automaton, opening]
  split
  · exact Quoted.outcomes_eq_automaton rfl
  · exact Plain.outcomes_eq_automaton rfl rfl rfl

end TypedCsv.Framing
