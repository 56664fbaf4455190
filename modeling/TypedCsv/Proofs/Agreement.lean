import TypedCsv.Proofs.ErrorLines
import TypedCsv.Proofs.Framing.Agreement
import TypedCsv.Proofs.Pieces
import TypedCsv.Proofs.Recoding

/-! # A table without quotes

Two decoders of a table, of which one allows quotes and the other does not, find the same in an
input that makes no use of quotes and escapes and whose lines are regular
(`Decoder.framings_agree`). Where the input ends inside a comment the one that allows quotes finds
one more record, which no line of the input holds (`Decoder.framings_disagree_in_comment`). -/

namespace TypedCsv

variable {rowType : RowType} {options : Options}

/-- The options of a dialect with quotes are options of one without. -/
theorem Dialect.compile_unquoted {d : Dialect}
    (h : compile rowType { options with quotingDisabled := false } = .ok d) :
    compile rowType { options with quotingDisabled := true } = .ok d.unquoted := by
  simp only [compile, Except.bind_eq_ok_iff, require_eq_ok_iff] at h ⊢
  obtain ⟨_, hflat, delimiter, hdelimiter, quote, -, _, -, elements, helements, escape, hescape, _,
    hstructural, _, hmember, hd⟩ := h
  cases hd
  refine ⟨(), hflat, delimiter, hdelimiter, none, rfl, (), rfl, elements, helements, escape,
    hescape, (), ?_, (), hmember, rfl⟩
  -- an escape differs from no quote
  cases escape with
  | none => rfl
  | some escape =>
    simp only [Option.isNone_some, Bool.false_or, Bool.and_eq_true] at hstructural ⊢
    exact ⟨hstructural.1, rfl⟩

/-- The framings can be compared in a compiled dialect whose delimiter is no line break. -/
theorem Dialect.comparable_of_compile {d : Dialect} (h : compile rowType options = .ok d)
    (hfeed : d.delimiter ≠ Source.lineFeed) (hreturn : d.delimiter ≠ Source.carriageReturn) :
    Framing.Comparable d :=
  ⟨hfeed, hreturn, comment_ne_of_compile h fun _ => by decide⟩

namespace Decoder

open Framing

variable {projection : Option Projection} {policy : Policy} {quoted plain : Decoder}
  {source : Source}

/-- A decoder without the quote of its dialect. -/
def unquoted (d : Decoder) : Decoder :=
  { d with dialect := d.dialect.unquoted
           cells := { d.cells with dialect := d.cells.dialect.unquoted } }

/-- Both framings of the same options compile alike: without quoting the dialect has no quote, and
nothing else differs. -/
theorem compile_unquoted
    (h : compile rowType { options with quotingDisabled := false } projection policy =
      .ok quoted) :
    compile rowType { options with quotingDisabled := true } projection policy =
      .ok quoted.unquoted := by
  simp only [compile, CellReader.ofProjection, Except.bind_eq_ok_iff,
    Except.mapError_eq_ok_iff] at h ⊢
  obtain ⟨dialect, hdialect, cells, ⟨columns, hcolumns, hcells⟩, hd⟩ := h
  cases hcells
  cases hd
  exact ⟨_, Dialect.compile_unquoted hdialect, _, ⟨columns, hcolumns, rfl⟩, rfl⟩

/-- The quote takes no part in the reading of cells. -/
theorem convert_unquoted (d : Decoder) (outcome : Outcome) :
    d.unquoted.convert outcome = d.convert outcome := by
  have hread (record : List String) : d.unquoted.cells.read record = d.cells.read record := rfl
  cases outcome with
  | record line cells =>
    rw [convert, convert, hread]
    rfl
  | malformed line fault => rfl
  | failed fault => rfl
  | finished => rfl

/-- **Where quotes play no part it does not matter whether they are allowed.** Two decoders whose
options differ only in whether quotes are allowed find the same rows, the same errors up to lines
and the texts of malformed records, and skip the same records, in any input without a quote and an
escape, in which every carriage return stands in front of a line feed and no line that has a line
feed is blank; unless the input is complete and ends inside a comment. Then the one that allows
quotes finds what the other would find if there were one more record, of a single empty cell. -/
theorem framings_agree
    (hquoted : compile rowType { options with quotingDisabled := false } projection policy =
      .ok quoted)
    (hplain : compile rowType { options with quotingDisabled := true } projection policy =
      .ok plain)
    (hfeed : quoted.dialect.delimiter ≠ Source.lineFeed)
    (hreturn : quoted.dialect.delimiter ≠ Source.carriageReturn)
    (hquote : ∀ byte ∈ source.bytes, quoted.dialect.quote ≠ some byte)
    (hescape : ∀ byte ∈ source.bytes, quoted.dialect.escape ≠ some byte)
    (hlines : RegularLines source.bytes)
    (hmark : ¬ Quoted.byteOrderMark <+: source.bytes) :
    (¬ (source.ending = .complete ∧ EndsInComment quoted.dialect source.bytes) →
      (quoted.rows source).found = (plain.rows source).found ∧
      seen Fault.unframed (quoted.rows source).items.1 =
        seen Fault.unframed (plain.rows source).items.1 ∧
      (quoted.rows source).items.2.skipped = (plain.rows source).items.2.skipped) ∧
    (source.ending = .complete → EndsInComment quoted.dialect source.bytes →
      let more := plain.decoded 0 (plain.outcomes source ++ [lastComment])
      (quoted.rows source).found = rowsOf more.1 ∧
      seen Fault.unframed (quoted.rows source).items.1 = seen Fault.unframed more.1 ∧
      (quoted.rows source).items.2.skipped = more.2) := by
  obtain rfl : quoted.unquoted = plain :=
    Except.ok.inj ((compile_unquoted hquoted).symm.trans hplain)
  have hdialect := (of_compile hquoted).1
  have hisSome : quoted.dialect.quote.isSome = true := (Dialect.of_compile hdialect).2.1
  have hisNone : ¬ quoted.unquoted.dialect.quote.isSome = true := Bool.false_ne_true
  obtain ⟨hsame, hmore⟩ := map_outcomes_quoted
    (Dialect.comparable_of_compile hdialect hfeed hreturn) hquote hescape hlines source.ending
    Position.start Position.start
  rw [← automaton_of_quoted hisSome, ← outcomes_eq_automaton fun _ => hmark] at hsame hmore
  have hplainOutcomes : quoted.unquoted.outcomes source =
      (Plain.automaton quoted.dialect.unquoted).outcomes source.ending Position.start
        Position.start source.bytes := by
    rw [outcomes_eq_automaton fun h => absurd h hisNone, automaton_of_plain hisNone]
    rfl
  rw [← hplainOutcomes] at hsame hmore
  have hview (expected found : Nat) :
      Fault.unframed (.tooWide expected found) = .tooWide expected found := rfl
  have hpolicy : quoted.policy = quoted.unquoted.policy := rfl
  have hconvert (outcome : Outcome) : quoted.convert outcome = quoted.unquoted.convert outcome :=
    (convert_unquoted quoted outcome).symm
  rw [found_rows, items_rows, skipped_rows]
  refine ⟨fun hnot => ?_, fun hcomplete hinside => ?_⟩
  · rw [found_rows quoted.unquoted, items_rows quoted.unquoted, skipped_rows quoted.unquoted]
    exact decoded_congr_seen hview hpolicy hconvert (hsame hnot) 0
  · refine decoded_congr_seen hview hpolicy hconvert ((hmore hcomplete hinside).trans ?_) 0
    rw [List.map_append]
    rfl

/-- Options that allow comments. -/
def commentOptions : Options :=
  { Options.default with allowComments := true }

/-- A number, a comment and a number that has no line break. -/
def countSource : Source :=
  .ofBytes (Utf8.encode "1\r\n#x\n2".toList)

/-- The numbers are found whether or not quotes are allowed. -/
theorem framings_agree_counts :
    ((counter (some Dialect.doubleQuote) (some Dialect.hash)).rows countSource).found =
        ((counter none (some Dialect.hash)).rows countSource).found ∧
      ((counter none (some Dialect.hash)).rows countSource).found =
        [[some (.integer 1)], [some (.integer 2)]] := by
  have hquoted : compile countType { commentOptions with quotingDisabled := false } none .strict =
      .ok (counter (some Dialect.doubleQuote) (some Dialect.hash)) := by rfl
  have hplain : compile countType { commentOptions with quotingDisabled := true } none .strict =
      .ok (counter none (some Dialect.hash)) := by rfl
  have hlines : RegularLines (Utf8.encode "1\r".toList ++ Source.lineFeed ::
      (Utf8.encode "#x".toList ++ Source.lineFeed :: Utf8.encode "2".toList)) := by
    have hlast : RegularLines (Utf8.encode "2".toList) := .of_not_mem (by decide) (by decide)
    have hcomment : RegularLines (Utf8.encode "#x".toList ++ Source.lineFeed ::
        Utf8.encode "2".toList) :=
      hlast.line (by decide) (by decide) (by decide) (by decide)
    exact hcomment.line (by decide) (by decide) (by decide) (by decide)
  have hinside : ¬ EndsInComment (counter (some Dialect.doubleQuote) (some Dialect.hash)).dialect
      countSource.bytes := by
    have hbytes : countSource.bytes = Utf8.encode "1\r\n#x\n".toList ++ Utf8.encode "2".toList := by
      decide
    have hline : StartsLine (Utf8.encode "1\r\n#x\n".toList) := Or.inr (by decide)
    rw [hbytes]
    rintro hinside
    obtain ⟨-, hmarker⟩ | ⟨hcomment, -⟩ := endsInComment_concat.1 hinside
    · exact absurd hmarker (by decide)
    · exact not_endsInComment_of_startsLine (by decide) hline hcomment
  have hquote : ∀ byte ∈ countSource.bytes,
      (counter (some Dialect.doubleQuote) (some Dialect.hash)).dialect.quote ≠ some byte := by
    decide +kernel
  obtain ⟨hsame, -⟩ := framings_agree hquoted hplain (by decide) (by decide) hquote
    (by decide +kernel) hlines (by decide)
  refine ⟨(hsame fun h => hinside h.2).1, ?_⟩
  have houtcomes : (counter none (some Dialect.hash)).outcomes countSource =
      [.record 1 ["1"], .record 3 ["2"]] := by decide +kernel
  rw [found_rows, houtcomes]
  cbv

/-- A decoder that allows quotes finds a row where the input is a comment and nothing else. -/
theorem framings_disagree_in_comment :
    ¬ ∀ (rowType : RowType) (options : Options) (projection : Option Projection) (policy : Policy)
      (quoted plain : Decoder) (source : Source),
      compile rowType { options with quotingDisabled := false } projection policy = .ok quoted →
      compile rowType { options with quotingDisabled := true } projection policy = .ok plain →
      quoted.dialect.delimiter ≠ Source.lineFeed →
      quoted.dialect.delimiter ≠ Source.carriageReturn →
      (∀ byte ∈ source.bytes, quoted.dialect.quote ≠ some byte) →
      (∀ byte ∈ source.bytes, quoted.dialect.escape ≠ some byte) →
      RegularLines source.bytes → ¬ Quoted.byteOrderMark <+: source.bytes →
      (quoted.rows source).found = (plain.rows source).found := by
  intro h
  have hquoted : compile countType { commentOptions with quotingDisabled := false } none .strict =
      .ok (counter (some Dialect.doubleQuote) (some Dialect.hash)) := by rfl
  have hplain : compile countType { commentOptions with quotingDisabled := true } none .strict =
      .ok (counter none (some Dialect.hash)) := by rfl
  have hfound := h _ _ _ _ _ _ (.ofBytes (Utf8.encode "#x".toList)) hquoted hplain (by decide)
    (by decide) (by decide +kernel) (by decide +kernel)
    (.of_not_mem (by decide) (by decide)) (by decide)
  have hrecord : (counter (some Dialect.doubleQuote) (some Dialect.hash)).outcomes
      (.ofBytes (Utf8.encode "#x".toList)) = [.record 1 [""]] := by decide +kernel
  have hnone : (counter none (some Dialect.hash)).outcomes
      (.ofBytes (Utf8.encode "#x".toList)) = [] := by decide +kernel
  rw [found_rows, found_rows, hrecord, hnone] at hfound
  have hlength := congrArg List.length hfound
  revert hlength
  cbv
  decide

end Decoder

end TypedCsv
