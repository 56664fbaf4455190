import TypedCsv.Proofs.Framing.Bytewise
import TypedCsv.Proofs.Leniency

/-! # The lines of errors

The strict policy ends with the record that it cannot read, and tells its line. The plain framing
counts all line feeds in front of the record. The quoted framing counts those in front of the place
where the record before it ended, which is the line of the record only if no line feed comes
between: the line feed of a line break of two bytes does, and so do those of blank lines and of
comments (`Decoder.strict_error_line`). -/

namespace TypedCsv

namespace Framing

/-- The line that is told of a record. -/
def Outcome.line? : Outcome → Option Nat
  | record line _ => some line
  | malformed line _ => some line
  | _ => none

/-- The quoted framing tells the line of the place where it has ended the record before, the plain
one counts what it has passed over since then. -/
theorem line?_tell (d : Dialect) (place : Position) (lead : List UInt8)
    (cells : List (List UInt8)) :
    ((automaton d).tell place lead cells).line? =
      some (place.line + if d.quote.isSome then 0 else lead.count Source.lineFeed) := by
  rw [automaton]
  split
  · simp only [Quoted.automaton]
    split <;> rfl
  · simp only [Plain.automaton, Plain.Reader.outcome]
    split <;> rfl

end Framing

namespace Decoder

open Framing

variable {d : Decoder} {source : Source}

/-- The error of a record that cannot be read has the line of the record. -/
theorem line?_of_rejected {outcome : Outcome} {error : Error}
    (h : d.convert outcome = .rejected error) : error.line? = outcome.line? := by
  cases outcome with
  | record line cells =>
    rw [convert] at h
    split at h
    · cases h
      rfl
    · split at h
      · cases h
      · cases h
        rfl
  | malformed line fault =>
    cases h
    rfl
  | failed fault => cases h
  | finished => cases h

/-- Under the strict policy the record at fault is the one behind those that have been read. -/
theorem exists_outcome_of_error (hp : d.policy = .strict) {skipped n : Nat}
    {outcomes : List Outcome} {error : Error}
    (h : (.error error, n) ∈ (d.decoded skipped outcomes).1) :
    (∃ fault, error = .io fault) ∨
      ∃ outcome, outcomes[(rowsOf (d.decoded skipped outcomes).1).length]? = some outcome ∧
        d.convert outcome = .rejected error := by
  induction outcomes with
  | nil => cases h
  | cons outcome outcomes ih =>
    cases hc : d.convert outcome with
    | row row =>
      rw [decoded_of_row hc] at h ⊢
      rcases List.mem_cons.1 h with h | h
      · cases h
      · rw [rowsOf_cons_ok, List.length_cons, List.getElem?_cons_succ]
        exact ih h
    | rejected found =>
      rw [decoded_of_rejected hc, if_neg (by simp [hp])] at h ⊢
      cases List.mem_singleton.1 h
      exact Or.inr ⟨outcome, rfl, hc⟩
    | failed fault =>
      rw [decoded_of_failed hc] at h
      cases List.mem_singleton.1 h
      exact Or.inl ⟨fault, rfl⟩
    | finished =>
      rw [decoded_of_finished hc] at h
      cases h

/-- The bytes in front of the first byte of the record with the given number, the first one having
the number 0; a byte order mark that is passed over does not count. -/
def ahead (d : Decoder) (source : Source) (n : Nat) : List UInt8 :=
  (automaton d.dialect).ahead n (opening d.dialect source).1.bytes

/-- The bytes between the end of the record before it and its first byte. -/
def gap (d : Decoder) (source : Source) (n : Nat) : List UInt8 :=
  (automaton d.dialect).gap n (opening d.dialect source).1.bytes

/-- The line that is told of a record counts the line feeds in front of the record, in the quoted
framing without those behind the record before it. -/
theorem line_of_outcome {n line : Nat} {outcome : Outcome}
    (h : (d.outcomes source)[n]? = some outcome) (hline : outcome.line? = some line) :
    1 + (d.ahead source n).count Source.lineFeed =
      line + if d.dialect.quote.isSome then (d.gap source n).count Source.lineFeed else 0 := by
  rw [outcomes, Reader.outcomes_ofSource] at h
  have hstart : Position.start.line = (opening d.dialect source).2.line := (line_opening _ _).symm
  obtain ⟨fault, rfl⟩ | ⟨place, cells, rfl, hplace⟩ := Automaton.getElem?_outcomes hstart h
  · cases hline
  · rw [line_opening] at hplace
    rw [line?_tell, hplace, Option.some.injEq] at hline
    rw [ahead, gap, Automaton.ahead, List.count_append, ← hline]
    split <;> omega

/-- **The line of an error.** An error of a record ends the items of the strict policy, and the
record is the one behind the rows that have been found. In the plain framing its line is one more
than the number of line feeds in front of the record; in the quoted framing those behind the record
before it are not counted. -/
theorem strict_error_line (d : Decoder) (source : Source) (hp : d.policy = .strict)
    {error : Error} {n line : Nat}
    (hmem : (.error error, n) ∈ (d.rows source).items.1) (hline : error.line? = some line) :
    (d.rows source).items.1 =
        (d.rows source).found.map (fun row => (.ok row, 0)) ++ [(.error error, 0)] ∧
      ∃ mark rest, source.bytes = mark ++ d.ahead source (d.rows source).found.length ++ rest ∧
        (mark = [] ∨ d.dialect.quote.isSome ∧ mark = Quoted.byteOrderMark) ∧
        1 + (mark ++ d.ahead source (d.rows source).found.length).count Source.lineFeed =
          line + if d.dialect.quote.isSome
            then (d.gap source (d.rows source).found.length).count Source.lineFeed else 0 := by
  rw [found_rows, items_rows] at *
  refine ⟨decoded_strict_of_mem hp hmem, ?_⟩
  obtain ⟨fault, rfl⟩ | ⟨outcome, houtcome, hrejected⟩ := exists_outcome_of_error hp hmem
  · cases hline
  rw [line?_of_rejected hrejected] at hline
  generalize (rowsOf (d.decoded 0 (d.outcomes source)).1).length = k at houtcome ⊢
  have htext : (opening d.dialect source).1.bytes ≠ [] := by
    intro hnil
    rw [outcomes, Reader.outcomes_ofSource, hnil, Automaton.outcomes_nil] at houtcome
    cases hending : (opening d.dialect source).1.ending with
    | complete => simp [hending] at houtcome
    | failure fault =>
      rw [hending] at houtcome
      cases List.mem_singleton.1 (List.mem_of_getElem? houtcome)
      cases hline
  obtain ⟨mark, hmark, hcase⟩ := exists_mark_append htext
  obtain ⟨rest, hrest⟩ := (automaton d.dialect).isPrefix_ahead k (opening d.dialect source).1.bytes
  refine ⟨mark, rest, ?_, hcase, ?_⟩
  · rw [hmark, List.append_assoc, ahead, hrest]
  · have hcount : mark.count Source.lineFeed = 0 := by
      obtain rfl | ⟨-, rfl⟩ := hcase <;> rfl
    rw [List.count_append, hcount, Nat.zero_add]
    exact line_of_outcome houtcome hline

/-- A table with one column of integers. -/
def countType : RowType :=
  [⟨"count", .integer, true⟩]

/-- Reads such a table under the strict policy. -/
def counter (quote comment : Option UInt8) : Decoder :=
  let dialect : Dialect := ⟨Dialect.comma, quote, none, comment, ";", none⟩
  ⟨dialect, 1, dialect, [⟨0, none, ⟨"count", .integer, true⟩⟩], .strict⟩

/-- What is wrong with the text of `x` as an integer. -/
def countFault : CellReader.Fault :=
  ⟨"count", "x", .scalar (.integer .invalidDigit)⟩

/-- Comments around the records of a table. -/
def commentedSource : Source :=
  Source.ofBytes (Utf8.encode "#\n1\r\n#\nx\n".toList)

/-- The plain framing counts the lines of comments. -/
theorem strict_error_line_commented :
    ((counter none (some Dialect.hash)).rows commentedSource).items.1 =
        [(.ok [some (.integer 1)], 0), (.error (.cell 4 countFault), 0)] ∧
      ∃ mark rest, commentedSource.bytes = mark ++
          (counter none (some Dialect.hash)).ahead commentedSource 1 ++ rest ∧
        1 + (mark ++ (counter none (some Dialect.hash)).ahead commentedSource 1).count
          Source.lineFeed = 4 := by
  have houtcomes : (counter none (some Dialect.hash)).outcomes commentedSource =
      [.record 2 ["1"], .record 4 ["x"]] := by decide +kernel
  have hitems : ((counter none (some Dialect.hash)).rows commentedSource).items.1 =
      [(.ok [some (.integer 1)], 0), (.error (.cell 4 countFault), 0)] := by
    rw [items_rows, houtcomes]
    cbv
  have hfound : ((counter none (some Dialect.hash)).rows commentedSource).found.length = 1 := by
    rw [Rows.found, hitems]
    rfl
  obtain ⟨-, mark, rest, hbytes, -, hline⟩ := strict_error_line
    (counter none (some Dialect.hash)) commentedSource rfl
    (hitems ▸ List.mem_cons_of_mem _ List.mem_cons_self) rfl
  rw [hfound] at hbytes hline
  exact ⟨hitems, mark, rest, hbytes, hline⟩

/-- Two records with line breaks of two bytes. -/
def brokenSource : Source :=
  Source.ofBytes (Utf8.encode "1\r\nx\r\n".toList)

/-- The quoted framing does not tell the line of a record behind a line break of two bytes: of two
such lines the second one is told as the first. -/
theorem error_line_behind_line_break :
    ¬ ∀ (rowType : RowType) (options : Options) (projection : Option Projection) (d : Decoder)
      (source : Source) (error : Error) (n line : Nat),
      compile rowType options projection .strict = .ok d →
      (.error error, n) ∈ (d.rows source).items.1 → error.line? = some line →
      line = 1 + (d.ahead source (d.rows source).found.length).count Source.lineFeed := by
  intro h
  have hcompile : compile countType Options.default none .strict =
      .ok (counter (some Dialect.doubleQuote) none) := by rfl
  have houtcomes : (counter (some Dialect.doubleQuote) none).outcomes brokenSource =
      [.record 1 ["1"], .record 1 ["x"]] := by decide +kernel
  have hitems : ((counter (some Dialect.doubleQuote) none).rows brokenSource).items.1 =
      [(.ok [some (.integer 1)], 0), (.error (.cell 1 countFault), 0)] := by
    rw [items_rows, houtcomes]
    cbv
  have hfound : ((counter (some Dialect.doubleQuote) none).rows brokenSource).found.length = 1 := by
    rw [Rows.found, hitems]
    rfl
  have hahead : (counter (some Dialect.doubleQuote) none).ahead brokenSource 1 =
      Utf8.encode "1\r\n".toList := by decide +kernel
  have hline := h _ _ _ _ brokenSource _ 0 1 hcompile
    (hitems ▸ List.mem_cons_of_mem _ List.mem_cons_self) rfl
  rw [hfound, hahead] at hline
  revert hline
  decide

end Decoder

end TypedCsv
