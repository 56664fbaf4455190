import TypedCsv.Proofs.Framing.Bytewise
import TypedCsv.Proofs.Framing.Runs
import TypedCsv.Proofs.Places

/-! # Where both framings apply they agree

In bytes without quotes and escapes, in which line breaks are regular and no line is blank, the two
framings find the same records, up to how they tell faults (`Framing.map_outcomes_quoted`). They
differ in one place: the quoted framing finds one more record, a single empty cell, where a complete
input ends inside a comment.

* `RegularLines`: the line breaks that both framings take alike.
* `EndsInComment`: where the last line is a comment without a line feed.
* `Tallies`: what the states of the two framings have in common between two bytes. The quoted one
  ends a record with the carriage return, the plain one with the line feed behind it. -/

namespace TypedCsv

/-- A dialect without its quote. -/
def Dialect.unquoted (d : Dialect) : Dialect :=
  { d with quote := none }

namespace Framing

/-- What can be told of a fault in either framing. -/
def Fault.unframed : Fault → Fault
  | quotedText _ _ validBytes => quotedText Position.start 0 validBytes
  | plainText fault => quotedText Position.start 0 fault.index
  | fault => fault

/-! ## Lines -/

/-- Whether a line starts behind some bytes. -/
def StartsLine (bytes : List UInt8) : Prop :=
  bytes = [] ∨ bytes.getLast? = some Source.lineFeed

/-- Each carriage return stands in front of a line feed, and no line that has one is blank. -/
structure RegularLines (bytes : List UInt8) : Prop where
  head?_of_return : ∀ before after, bytes = before ++ Source.carriageReturn :: after →
    after.head? = some Source.lineFeed
  not_blank : ∀ before line after, bytes = before ++ line ++ Source.lineFeed :: after →
    StartsLine before → line ≠ [] ∧ line ≠ [Source.carriageReturn]

/-- The last line is a comment that has no line feed. -/
def EndsInComment (d : Dialect) (bytes : List UInt8) : Prop :=
  ∃ before marker text, bytes = before ++ marker :: text ∧ d.comment = some marker ∧
    StartsLine before ∧ Source.lineFeed ∉ text

variable {d : Dialect} {byte : UInt8} {done rest : List UInt8}

/-- A line starts behind a byte if the byte is a line feed. -/
@[simp] theorem startsLine_concat : StartsLine (done ++ [byte]) ↔ byte = Source.lineFeed := by
  simp [StartsLine]

/-- No comment is open in front of the first byte. -/
theorem not_endsInComment_nil (d : Dialect) : ¬ EndsInComment d [] := by
  rintro ⟨before, marker, text, hbytes, -⟩
  simp at hbytes

/-- The last line is an open comment if the last byte is a marker that starts it, or goes on with
one. -/
theorem endsInComment_concat : EndsInComment d (done ++ [byte]) ↔
    (StartsLine done ∧ d.comment = some byte) ∨
      (EndsInComment d done ∧ byte ≠ Source.lineFeed) := by
  constructor
  · rintro ⟨before, marker, text, hbytes, hmarker, hbefore, htext⟩
    obtain rfl | ⟨text, last, rfl⟩ := List.eq_nil_or_concat text
    · obtain ⟨rfl, hbyte⟩ := List.append_inj' hbytes rfl
      cases hbyte
      exact Or.inl ⟨hbefore, hmarker⟩
    · rw [List.concat_eq_append, ← List.cons_append, ← List.append_assoc] at hbytes
      obtain ⟨rfl, hbyte⟩ := List.append_inj' hbytes rfl
      cases hbyte
      simp only [List.concat_eq_append, List.mem_append, List.mem_singleton, not_or] at htext
      exact Or.inr ⟨⟨before, marker, text, rfl, hmarker, hbefore, htext.1⟩, Ne.symm htext.2⟩
  · rintro (⟨hdone, hmarker⟩ | ⟨⟨before, marker, text, rfl, hmarker, hbefore, htext⟩, hne⟩)
    · exact ⟨done, byte, [], rfl, hmarker, hdone, by simp⟩
    · exact ⟨before, marker, text ++ [byte], by simp, hmarker, hbefore, by simp [htext, hne.symm]⟩

/-- Where a line starts, the comment in front of it has ended. -/
theorem not_endsInComment_of_startsLine (hmarker : d.comment ≠ some Source.lineFeed)
    (h : StartsLine done) : ¬ EndsInComment d done := by
  obtain rfl | h := h
  · exact not_endsInComment_nil d
  · obtain ⟨before, rfl⟩ := List.getLast?_eq_some_iff.1 h
    simp [endsInComment_concat, hmarker]

/-- Where a line starts neither a line feed nor a carriage return comes next. -/
theorem RegularLines.ne_of_startsLine (h : RegularLines (done ++ byte :: rest))
    (hdone : StartsLine done) : byte ≠ Source.lineFeed ∧ byte ≠ Source.carriageReturn := by
  constructor
  · rintro rfl
    exact (h.not_blank done [] rest (by rw [List.append_nil]) hdone).1 rfl
  · rintro rfl
    obtain ⟨after, rfl⟩ : ∃ after, rest = Source.lineFeed :: after :=
      List.head?_eq_some_iff.1 (h.head?_of_return done rest rfl)
    exact (h.not_blank done [Source.carriageReturn] after (by simp) hdone).2 rfl

/-- Behind a carriage return comes a line feed. -/
theorem RegularLines.head?_of_getLast? (h : RegularLines (done ++ rest))
    (hdone : done.getLast? = some Source.carriageReturn) : rest.head? = some Source.lineFeed := by
  obtain ⟨before, rfl⟩ := List.getLast?_eq_some_iff.1 hdone
  exact h.head?_of_return before rest (by simp)

/-- Whether a line starts depends on the bytes behind the last line feed alone. -/
theorem startsLine_append_cons {line more : List UInt8} :
    StartsLine (line ++ Source.lineFeed :: more) ↔ StartsLine more := by
  obtain rfl | ⟨more, last, rfl⟩ := List.eq_nil_or_concat more
  · simp [StartsLine]
  · rw [List.concat_eq_append, ← List.cons_append, ← List.append_assoc, startsLine_concat,
      startsLine_concat]

/-- A line starts in bytes without a line feed only where they start. -/
theorem eq_nil_of_startsLine (h : StartsLine done) (hfeed : Source.lineFeed ∉ done) :
    done = [] := by
  obtain rfl | h := h
  · rfl
  · exact absurd (List.mem_of_getLast? h) hfeed

/-- A last line without a line break is regular. -/
theorem RegularLines.of_not_mem {line : List UInt8} (hfeed : Source.lineFeed ∉ line)
    (hreturn : Source.carriageReturn ∉ line) : RegularLines line where
  head?_of_return before after h := absurd (by simp [h]) hreturn
  not_blank before text after h := absurd (by simp [h]) hfeed

/-- A line that is not blank stands in front of regular lines. -/
theorem RegularLines.line {line : List UInt8} (h : RegularLines rest) (hne : line ≠ [])
    (hlone : line ≠ [Source.carriageReturn]) (hfeed : Source.lineFeed ∉ line)
    (hreturn : Source.carriageReturn ∉ line.dropLast) :
    RegularLines (line ++ Source.lineFeed :: rest) where
  head?_of_return before after heq := by
    obtain ⟨_ | ⟨byte, more⟩, hbefore, hrest⟩ | ⟨_ | ⟨byte, more⟩, hline, hafter⟩ :=
      List.append_eq_append_iff.1 heq
    · exact absurd (List.cons.inj hrest).1 (by decide)
    · exact h.head?_of_return more after (List.cons.inj hrest).2
    · exact absurd (List.cons.inj hafter).1 (by decide)
    · -- a carriage return in the line is its last byte
      obtain ⟨rfl, rfl⟩ := List.cons.inj hafter
      cases more with
      | nil => rfl
      | cons next more =>
        rw [hline, List.dropLast_append_cons] at hreturn
        simp at hreturn
  not_blank before text after heq hbefore := by
    -- the line feed is that of the first line or one of the others
    have hfirst (h : line = before ++ text) : text ≠ [] ∧ text ≠ [Source.carriageReturn] := by
      subst h
      obtain rfl := eq_nil_of_startsLine hbefore (mt (List.mem_append_left text) hfeed)
      exact ⟨hne, hlone⟩
    obtain ⟨_ | ⟨byte, more⟩, htext, hrest⟩ | ⟨_ | ⟨byte, more⟩, hline, hafter⟩ :=
      List.append_eq_append_iff.1 heq
    · exact hfirst (htext.trans (List.append_nil line)).symm
    · obtain ⟨rfl, rfl⟩ := List.cons.inj hrest
      constructor
      · rintro rfl
        rw [List.append_nil] at htext
        rw [htext, startsLine_append_cons] at hbefore
        exact (h.not_blank more [] after (by simp) hbefore).1 rfl
      · rintro rfl
        obtain rfl | ⟨more, last, rfl⟩ := List.eq_nil_or_concat more
        · exact absurd (List.append_inj' htext rfl).2 (by decide)
        · rw [List.concat_eq_append, ← List.cons_append, ← List.append_assoc] at htext
          obtain ⟨rfl, hlast⟩ := List.append_inj' htext rfl
          obtain rfl := (List.cons.inj hlast).1
          rw [startsLine_append_cons] at hbefore
          exact (h.not_blank more _ after (by simp) hbefore).2 rfl
    · exact hfirst (hline.trans (List.append_nil _))
    · obtain rfl := (List.cons.inj hafter).1
      exact absurd (by simp [hline]) hfeed
/-! ## Both framings side by side -/

/-- The dialects whose framings are compared. -/
structure Comparable (d : Dialect) : Prop where
  delimiter_ne_lineFeed : d.delimiter ≠ Source.lineFeed
  delimiter_ne_return : d.delimiter ≠ Source.carriageReturn
  comment_ne_lineFeed : d.comment ≠ some Source.lineFeed

/-- The states of the framings behind some bytes, and the records that the plain one has still to
end. -/
inductive Tallies (d : Dialect) (done : List UInt8) :
    Quoted.Machine → Plain.Place → List (List (List UInt8)) → Prop where
  | start (h : StartsLine done) :
    Tallies d done Quoted.Machine.start .recordStart []
  | comment (h : EndsInComment d done) :
    Tallies d done ⟨.inComment, [], []⟩ .inComment []
  | cell (mode : Quoted.Mode) (cells : List (List UInt8)) (current : List UInt8)
    (hmode : mode = .cellStart ∨ mode = .inCell) (h : ¬ StartsLine done)
    (hcomment : ¬ EndsInComment d done) :
    Tallies d done ⟨mode, cells, current⟩ (.inRecord ⟨cells, current, false, false⟩) []
  | late (cells : List (List UInt8)) (current : List UInt8)
    (h : done.getLast? = some Source.carriageReturn) (hcomment : ¬ EndsInComment d done) :
    Tallies d done Quoted.Machine.start
      (.inRecord ⟨cells, Source.carriageReturn :: current, false, true⟩)
      [(current.reverse :: cells).reverse]

section Steps

variable {m : Quoted.Machine} {p : Plain.Place} {late : List (List (List UInt8))}

/-- The plain framing reads a byte that is no escape. -/
theorem read_outside (h : d.escape ≠ some byte) (cells : List (List UInt8))
    (current : List UInt8) :
    (⟨cells, current, false, false⟩ : Plain.Pending).read d.unquoted byte =
      if byte = d.delimiter then
        ⟨current.reverse :: cells, [], false, byte == Source.carriageReturn⟩
      else ⟨cells, byte :: current, false, byte == Source.carriageReturn⟩ := by
  simp only [Plain.Pending.read, Bool.false_eq_true, if_false, Dialect.unquoted]
  exact if_neg h

/-- A byte outside quotes, in a record or as its first byte. -/
theorem tallies_outside (hd : Comparable d) (hescape : d.escape ≠ some byte)
    (hcomment : ¬ EndsInComment d (done ++ [byte]))
    (hm : Quoted.step d m byte = Quoted.stepOutside d m byte)
    (hp : (Plain.automaton d.unquoted).step p byte =
      Plain.stepRecord d.unquoted ⟨m.cells, m.current, false, false⟩ byte) :
    ∃ late', Tallies d (done ++ [byte]) ((Quoted.automaton d).next m byte)
        ((Plain.automaton d.unquoted).next p byte) late' ∧
      (Quoted.automaton d).emit m byte = (Plain.automaton d.unquoted).emit p byte ++ late' := by
  by_cases hfeed : byte = Source.lineFeed
  · -- both end the record
    subst hfeed
    have hq : (Quoted.automaton d).step m Source.lineFeed = .inr m.finished :=
      Quoted.step_automaton_record (hm.trans
        ((if_neg (Ne.symm hd.delimiter_ne_lineFeed)).trans (if_pos (by decide))))
    have hp : (Plain.automaton d.unquoted).step p Source.lineFeed = .inr m.finished :=
      hp.trans (if_pos (by simp))
    rw [Automaton.next_of_inr hq, Automaton.next_of_inr hp, Automaton.emit_of_inr hq,
      Automaton.emit_of_inr hp]
    exact ⟨[], .start (startsLine_concat.2 rfl), rfl⟩
  have hline : ¬ StartsLine (done ++ [byte]) := mt startsLine_concat.1 hfeed
  -- the plain framing reads on
  have hread (q : Plain.Pending)
      (h : (⟨m.cells, m.current, false, false⟩ : Plain.Pending).read d.unquoted byte = q) :
      (Plain.automaton d.unquoted).step p byte = .inl (.inRecord q) :=
    hp.trans ((Plain.stepRecord_of_ne hfeed).trans
      (congrArg (fun q => Sum.inl (Plain.Place.inRecord q)) h))
  rw [read_outside hescape] at hread
  by_cases hdelim : byte = d.delimiter
  · -- both end the cell
    have hq : (Quoted.automaton d).step m byte = .inl m.endCell :=
      Quoted.step_automaton_more (hm.trans (if_pos hdelim))
    have hcr : (byte == Source.carriageReturn) = false := by
      simpa [hdelim] using hd.delimiter_ne_return
    have hp := hread ⟨m.current.reverse :: m.cells, [], false, false⟩ (by rw [if_pos hdelim, hcr])
    rw [Automaton.next_of_inl hq, Automaton.next_of_inl hp, Automaton.emit_of_inl hq,
      Automaton.emit_of_inl hp]
    exact ⟨[], .cell _ _ _ (Or.inl rfl) hline hcomment, rfl⟩
  by_cases hcr : byte = Source.carriageReturn
  · -- the quoted framing does not wait for the line feed
    subst hcr
    have hq : (Quoted.automaton d).step m Source.carriageReturn = .inr m.finished :=
      Quoted.step_automaton_record (hm.trans ((if_neg hdelim).trans (if_pos (by decide))))
    have hp := hread ⟨m.cells, Source.carriageReturn :: m.current, false, true⟩
      (by rw [if_neg hdelim, beq_self_eq_true])
    rw [Automaton.next_of_inr hq, Automaton.next_of_inl hp, Automaton.emit_of_inr hq,
      Automaton.emit_of_inl hp]
    exact ⟨[m.finished], .late _ _ (by simp) hcomment, rfl⟩
  · -- both keep the byte
    have hterminator : ¬ Quoted.isTerminator byte = true := by
      simp [Quoted.isTerminator, hfeed, hcr]
    have hq : (Quoted.automaton d).step m byte = .inl (m.keep .inCell byte) :=
      Quoted.step_automaton_more (hm.trans ((if_neg hdelim).trans (if_neg hterminator)))
    have hbeq : (byte == Source.carriageReturn) = false := by simpa using hcr
    have hp := hread ⟨m.cells, byte :: m.current, false, false⟩ (by rw [if_neg hdelim, hbeq])
    rw [Automaton.next_of_inl hq, Automaton.next_of_inl hp, Automaton.emit_of_inl hq,
      Automaton.emit_of_inl hp]
    exact ⟨[], .cell _ _ _ (Or.inr rfl) hline hcomment, rfl⟩

/-- **A byte keeps the states of the framings together**, and the plain one ends the records that
the quoted one has ended, at most one byte later. -/
theorem Tallies.next (h : Tallies d done m p late) (hd : Comparable d)
    (hquote : d.quote ≠ some byte) (hescape : d.escape ≠ some byte)
    (hlines : RegularLines (done ++ byte :: rest)) :
    ∃ late', Tallies d (done ++ [byte]) ((Quoted.automaton d).next m byte)
        ((Plain.automaton d.unquoted).next p byte) late' ∧
      late ++ (Quoted.automaton d).emit m byte =
        (Plain.automaton d.unquoted).emit p byte ++ late' := by
  cases h with
  | start hstart =>
    obtain ⟨hfeed, hcr⟩ := hlines.ne_of_startsLine hstart
    have hterminator : ¬ Quoted.isTerminator byte = true := by
      simp [Quoted.isTerminator, hfeed, hcr]
    by_cases hmarker : d.comment = some byte
    · have hq : (Quoted.automaton d).step Quoted.Machine.start byte = .inl ⟨.inComment, [], []⟩ :=
        Quoted.step_automaton_more ((if_neg hterminator).trans (if_pos hmarker))
      have hp : (Plain.automaton d.unquoted).step .recordStart byte = .inl .inComment :=
        (if_pos hmarker).trans (congrArg Sum.inl (Plain.stepComment_of_ne hfeed))
      rw [Automaton.next_of_inl hq, Automaton.next_of_inl hp, Automaton.emit_of_inl hq,
        Automaton.emit_of_inl hp]
      exact ⟨[], .comment (endsInComment_concat.2 (Or.inl ⟨hstart, hmarker⟩)), rfl⟩
    · have hcomment : ¬ EndsInComment d (done ++ [byte]) := by
        simp [endsInComment_concat, hmarker,
          not_endsInComment_of_startsLine hd.comment_ne_lineFeed hstart]
      exact tallies_outside hd hescape hcomment
        ((if_neg hterminator).trans ((if_neg hmarker).trans (if_neg hquote))) (if_neg hmarker)
  | comment hinside =>
    by_cases hfeed : byte = Source.lineFeed
    · subst hfeed
      have hq : (Quoted.automaton d).step ⟨.inComment, [], []⟩ Source.lineFeed =
          .inl Quoted.Machine.start := Quoted.step_automaton_more rfl
      have hp : (Plain.automaton d.unquoted).step .inComment Source.lineFeed =
          .inl .recordStart := rfl
      rw [Automaton.next_of_inl hq, Automaton.next_of_inl hp, Automaton.emit_of_inl hq,
        Automaton.emit_of_inl hp]
      exact ⟨[], .start (startsLine_concat.2 rfl), rfl⟩
    · have hq : (Quoted.automaton d).step ⟨.inComment, [], []⟩ byte =
          .inl ⟨.inComment, [], []⟩ := Quoted.step_automaton_more (if_neg hfeed)
      have hp : (Plain.automaton d.unquoted).step .inComment byte = .inl .inComment :=
        congrArg Sum.inl (Plain.stepComment_of_ne hfeed)
      rw [Automaton.next_of_inl hq, Automaton.next_of_inl hp, Automaton.emit_of_inl hq,
        Automaton.emit_of_inl hp]
      exact ⟨[], .comment (endsInComment_concat.2 (Or.inr ⟨hinside, hfeed⟩)), rfl⟩
  | cell mode cells current hmode hline hnone =>
    have hcomment : ¬ EndsInComment d (done ++ [byte]) := by
      simp [endsInComment_concat, hline, hnone]
    refine tallies_outside hd hescape hcomment ?_ rfl
    obtain rfl | rfl := hmode
    · exact if_neg hquote
    · rfl
  | late cells current hlast hnone =>
    obtain rfl : byte = Source.lineFeed := Option.some.inj (hlines.head?_of_getLast? hlast)
    have hq : (Quoted.automaton d).step Quoted.Machine.start Source.lineFeed =
        .inl Quoted.Machine.start := Quoted.step_automaton_more rfl
    have hp : (Plain.automaton d.unquoted).step
        (.inRecord ⟨cells, Source.carriageReturn :: current, false, true⟩) Source.lineFeed =
        .inr (current.reverse :: cells).reverse := rfl
    rw [Automaton.next_of_inl hq, Automaton.next_of_inr hp, Automaton.emit_of_inl hq,
      Automaton.emit_of_inr hp]
    exact ⟨[], .start (startsLine_concat.2 rfl), rfl⟩

/-- The states stay together over any bytes. -/
theorem Tallies.run (h : Tallies d done m p late) (hd : Comparable d)
    (hquote : ∀ byte ∈ rest, d.quote ≠ some byte) (hescape : ∀ byte ∈ rest, d.escape ≠ some byte)
    (hlines : RegularLines (done ++ rest)) :
    ∃ late', Tallies d (done ++ rest) ((Quoted.automaton d).after m rest)
        ((Plain.automaton d.unquoted).after p rest) late' ∧
      late ++ (Quoted.automaton d).records m rest =
        (Plain.automaton d.unquoted).records p rest ++ late' := by
  induction rest generalizing done m p late with
  | nil =>
    rw [List.append_nil]
    exact ⟨late, h, List.append_nil late⟩
  | cons byte rest ih =>
    obtain ⟨hbyte, hquote⟩ := List.forall_mem_cons.1 hquote
    obtain ⟨hbyte', hescape⟩ := List.forall_mem_cons.1 hescape
    obtain ⟨next, hnext, hemit⟩ := h.next hd hbyte hbyte' hlines
    rw [List.append_cons] at hlines
    obtain ⟨last, hlast, hrecords⟩ := ih hnext hquote hescape hlines
    refine ⟨last, by rw [List.append_cons]; exact hlast, ?_⟩
    calc late ++ (Quoted.automaton d).records m (byte :: rest)
        = (late ++ (Quoted.automaton d).emit m byte) ++
            (Quoted.automaton d).records ((Quoted.automaton d).next m byte) rest :=
          (List.append_assoc _ _ _).symm
      _ = (Plain.automaton d.unquoted).emit p byte ++
            (next ++ (Quoted.automaton d).records ((Quoted.automaton d).next m byte) rest) := by
          rw [hemit, List.append_assoc]
      _ = (Plain.automaton d.unquoted).emit p byte ++
            ((Plain.automaton d.unquoted).records
              ((Plain.automaton d.unquoted).next p byte) rest ++ last) := by rw [hrecords]
      _ = (Plain.automaton d.unquoted).records p (byte :: rest) ++ last :=
          (List.append_assoc _ _ _).symm

end Steps

/-! ## Whole inputs -/

/-- Both framings tell the same of a record, up to what only one of them knows. -/
theorem tell_unframed (d : Dialect) (place place' : Position) (lead lead' : List UInt8)
    (cells : List (List UInt8)) :
    ((Quoted.automaton d).tell place lead cells).seen Fault.unframed =
      ((Plain.automaton d.unquoted).tell place' lead' cells).seen Fault.unframed := by
  simp only [Quoted.automaton, Plain.automaton, Plain.Reader.outcome]
  cases decodeCells 0 cells with
  | ok cells => rfl
  | error fault => rfl

/-- What the quoted framing finds at the end of a complete input and the plain one does not. -/
def lastComment : Outcome := .record 0 [""]

/-- No record is late at the end of an input, and both framings close it alike unless it ends inside
a comment. -/
theorem Tallies.closing {bytes : List UInt8} {m : Quoted.Machine} {p : Plain.Place}
    {late : List (List (List UInt8))} (h : Tallies d bytes m p late) (hd : Comparable d)
    (hlines : RegularLines bytes) (ending : Ending) :
    late = [] ∧
    (¬ (ending = .complete ∧ EndsInComment d bytes) →
      ((Quoted.automaton d).closing ending m).map (Outcome.seen Fault.unframed) =
        ((Plain.automaton d.unquoted).closing ending p).map (Outcome.seen Fault.unframed)) ∧
    (ending = .complete → EndsInComment d bytes →
      ((Quoted.automaton d).closing ending m).map (Outcome.seen Fault.unframed) =
        ((Plain.automaton d.unquoted).closing ending p).map (Outcome.seen Fault.unframed) ++
          [lastComment]) := by
  cases h with
  | start hstart =>
    refine ⟨rfl, fun _ => ?_, fun _ hinside =>
      absurd hinside (not_endsInComment_of_startsLine hd.comment_ne_lineFeed hstart)⟩
    cases ending <;> rfl
  | comment hinside =>
    refine ⟨rfl, fun hnot => ?_, fun hcomplete _ => ?_⟩
    · cases ending with
      | complete => exact absurd ⟨rfl, hinside⟩ hnot
      | failure fault => rfl
    · subst hcomplete
      rfl
  | cell mode cells current hmode hline hnone =>
    refine ⟨rfl, fun _ => ?_, fun _ hinside => absurd hinside hnone⟩
    cases ending with
    | failure fault => rfl
    | complete =>
      have hclosing : (Quoted.automaton d).closing .complete ⟨mode, cells, current⟩ =
          [(Quoted.automaton d).tell Position.start [] (current.reverse :: cells).reverse] := by
        obtain rfl | rfl := hmode <;> rfl
      rw [hclosing]
      exact congrArg (List.cons · []) (tell_unframed d _ _ _ _ _)
  | late cells current hlast hnone =>
    rw [← List.append_nil bytes] at hlines
    cases hlines.head?_of_getLast? hlast

/-- **Both framings agree where both apply**, but that a complete input which ends inside a comment
has one more record in the quoted one. -/
theorem map_outcomes_quoted (hd : Comparable d) {bytes : List UInt8}
    (hquote : ∀ byte ∈ bytes, d.quote ≠ some byte)
    (hescape : ∀ byte ∈ bytes, d.escape ≠ some byte) (hlines : RegularLines bytes)
    (ending : Ending) (told position : Position) :
    (¬ (ending = .complete ∧ EndsInComment d bytes) →
      ((Quoted.automaton d).outcomes ending told position bytes).map
          (Outcome.seen Fault.unframed) =
        ((Plain.automaton d.unquoted).outcomes ending told position bytes).map
          (Outcome.seen Fault.unframed)) ∧
    (ending = .complete → EndsInComment d bytes →
      ((Quoted.automaton d).outcomes ending told position bytes).map
          (Outcome.seen Fault.unframed) =
        ((Plain.automaton d.unquoted).outcomes ending told position bytes).map
          (Outcome.seen Fault.unframed) ++ [lastComment]) := by
  have htell := tell_unframed d
  have hq (place lead place' lead' cells) :=
    (htell place place lead lead cells).trans (htell place' place lead' lead cells).symm
  have hp (place lead place' lead' cells) :=
    (htell place place lead lead cells).symm.trans (htell place place' lead lead' cells)
  have hstart : Tallies d [] Quoted.Machine.start .recordStart [] := .start (Or.inl rfl)
  obtain ⟨late, hlast, hrecords⟩ := hstart.run hd hquote hescape hlines
  obtain ⟨rfl, hsame, hmore⟩ := hlast.closing hd hlines ending
  rw [List.nil_append, List.append_nil] at hrecords
  have hrecords : (Quoted.automaton d).records (Quoted.automaton d).start bytes =
      (Plain.automaton d.unquoted).records (Plain.automaton d.unquoted).start bytes := hrecords
  have hcells : (fun cells => ((Quoted.automaton d).tell Position.start [] cells).seen
      Fault.unframed) = fun cells => ((Plain.automaton d.unquoted).tell Position.start [] cells).seen
        Fault.unframed := funext fun cells => htell _ _ _ _ cells
  rw [Automaton.map_outcomes hq, Automaton.map_outcomes hp, hrecords, hcells, List.append_assoc]
  exact ⟨fun hnot => congrArg _ (hsame hnot),
    fun hcomplete hinside => congrArg _ (hmore hcomplete hinside)⟩

end Framing

end TypedCsv
