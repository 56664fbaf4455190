import TypedCsv.Proofs.Framing.Bytewise
import TypedCsv.Proofs.Leniency

/-! # The pieces of an input do not matter

What is decoded is settled by the bytes of an input and by how it ends
(`Decoder.rows_whatever_pieces`): both framings are automata over bytes, so a piece may end between
the two bytes of a line break, between an escape and its byte, or inside a character. If the input
fails, the records before the failure are those whose last byte has been read. -/

namespace TypedCsv.Decoder

open Framing

variable {d : Decoder} {source other : Source}

/-- Where no byte order mark is passed over the outcomes are those of the bytes and the ending. -/
theorem outcomes_eq_automaton
    (h : d.dialect.quote.isSome → ¬ Quoted.byteOrderMark <+: source.bytes) :
    d.outcomes source = (automaton d.dialect).outcomes source.ending Position.start Position.start
      source.bytes := by
  rw [outcomes, Reader.outcomes_ofSource, opening_eq h]

/-- Before a failure the records are found that have ended. -/
theorem outcomes_of_failure (h : d.dialect.quote.isSome → ¬ Quoted.byteOrderMark <+: source.bytes)
    {fault : IoFault} (hending : source.ending = .failure fault) :
    ∃ n whole rest, source.bytes = whole ++ rest ∧ (automaton d.dialect).Ended n whole ∧
      (automaton d.dialect).Unended rest ∧
      d.outcomes source = d.outcomes (Source.ofBytes whole) ++ [.failed fault] ∧
      (d.outcomes (Source.ofBytes whole)).length = n := by
  obtain ⟨n, whole, rest, hbytes, hwhole, hrest, houtcomes, hlength⟩ :=
    (automaton d.dialect).outcomes_failure fault Position.start Position.start source.bytes
  have hcomplete : d.outcomes (Source.ofBytes whole) = (automaton d.dialect).outcomes .complete
      Position.start Position.start whole := by
    rw [outcomes_eq_automaton, Source.bytes_ofBytes]
    · rfl
    · intro hquoted hmark
      rw [Source.bytes_ofBytes] at hmark
      exact h hquoted (hbytes ▸ hmark.trans (List.prefix_append whole rest))
  refine ⟨n, whole, rest, hbytes, hwhole, hrest, ?_, by rw [hcomplete, hlength]⟩
  rw [outcomes_eq_automaton h, hending, houtcomes, hcomplete]

/-- A failure adds at most itself to what is decoded. -/
theorem decoded_append_failed (d : Decoder) (skipped : Nat) (outcomes : List Outcome)
    (fault : IoFault) :
    ∃ ending, (d.decoded skipped (outcomes ++ [.failed fault])).1 =
        (d.decoded skipped outcomes).1 ++ ending ∧
      (ending = [] ∨ ending = [(.error (.io fault), (d.decoded skipped outcomes).2)]) ∧
      (d.decoded skipped (outcomes ++ [.failed fault])).2 = (d.decoded skipped outcomes).2 := by
  induction outcomes generalizing skipped with
  | nil => exact ⟨_, rfl, Or.inr rfl, rfl⟩
  | cons outcome outcomes ih =>
    rw [List.cons_append]
    cases hc : d.convert outcome with
    | row row =>
      obtain ⟨ending, hitems, hending, hskipped⟩ := ih skipped
      rw [decoded_of_row hc, decoded_of_row hc]
      exact ⟨ending, congrArg _ hitems, hending, hskipped⟩
    | rejected error =>
      rw [decoded_of_rejected hc, decoded_of_rejected hc]
      split
      · exact ih (skipped + 1)
      · exact ⟨[], (List.append_nil _).symm, Or.inl rfl, rfl⟩
    | failed other =>
      rw [decoded_of_failed hc, decoded_of_failed hc]
      exact ⟨[], (List.append_nil _).symm, Or.inl rfl, rfl⟩
    | finished =>
      rw [decoded_of_finished hc, decoded_of_finished hc]
      exact ⟨[], (List.append_nil _).symm, Or.inl rfl, rfl⟩

/-- **The pieces of an input do not matter.** Two inputs with the same bytes and the same ending
give the same items and skip the same records, whatever their pieces are; the quoted framing is
excepted where the bytes start with a byte order mark. If the input fails, its bytes are those of
some whole records and others in which no record ends, and the items are those of the whole records
with at most the failure behind them. -/
theorem rows_whatever_pieces (d : Decoder) {source other : Source}
    (hbytes : source.bytes = other.bytes) (hending : source.ending = other.ending)
    (hmark : d.dialect.quote.isSome → ¬ Quoted.byteOrderMark <+: source.bytes) :
    (d.rows source).items.1 = (d.rows other).items.1 ∧
      (d.rows source).items.2.skipped = (d.rows other).items.2.skipped ∧
      ∀ fault, source.ending = .failure fault → ∃ n whole rest, source.bytes = whole ++ rest ∧
        (automaton d.dialect).Ended n whole ∧ (automaton d.dialect).Unended rest ∧
        (d.outcomes (Source.ofBytes whole)).length = n ∧
        d.outcomes source = d.outcomes (Source.ofBytes whole) ++ [.failed fault] ∧
        (d.rows source).items.2.skipped = (d.rows (Source.ofBytes whole)).items.2.skipped ∧
        ∃ ending, (d.rows source).items.1 = (d.rows (Source.ofBytes whole)).items.1 ++ ending ∧
          (ending = [] ∨
            ending = [(.error (.io fault), (d.rows source).items.2.skipped)]) := by
  have hsame : d.outcomes source = d.outcomes other := by
    rw [outcomes_eq_automaton hmark, outcomes_eq_automaton (hbytes ▸ hmark), hbytes, hending]
  refine ⟨by rw [items_rows, items_rows, hsame], by rw [skipped_rows, skipped_rows, hsame],
    fun fault hfailure => ?_⟩
  obtain ⟨n, whole, rest, hsplit, hwhole, hrest, houtcomes, hlength⟩ :=
    outcomes_of_failure hmark hfailure
  obtain ⟨last, hitems, hlast, hskipped⟩ :=
    d.decoded_append_failed 0 (d.outcomes (Source.ofBytes whole)) fault
  refine ⟨n, whole, rest, hsplit, hwhole, hrest, hlength, houtcomes, ?_, last, ?_, ?_⟩
  · rw [skipped_rows, skipped_rows, houtcomes, hskipped]
  · rw [items_rows, items_rows, houtcomes, hitems]
  · rw [skipped_rows, houtcomes, hskipped]
    exact hlast

/-- Two records in quotes and the start of a third one, before the input fails. -/
def cutBytes : List UInt8 :=
  Utf8.encode "\"7\",\r\n\"8\",\n\"9".toList

/-- Pieces that end inside a line break and inside quotes give the rows of a single piece, and the
record that has no end is lost. -/
theorem rows_whatever_pieces_cut :
    (survey.rows ⟨[cutBytes.take 2, (cutBytes.drop 2).take 3, cutBytes.drop 5],
        .failure ⟨"gone"⟩⟩).items.1 = (survey.rows ⟨[cutBytes], .failure ⟨"gone"⟩⟩).items.1 ∧
      (survey.rows ⟨[cutBytes], .failure ⟨"gone"⟩⟩).items.1 =
        [(.ok [some (.integer 7), none], 0), (.ok [some (.integer 8), none], 0),
          (.error (.io ⟨"gone"⟩), 0)] := by
  have hbytes : (⟨[cutBytes.take 2, (cutBytes.drop 2).take 3, cutBytes.drop 5],
      .failure ⟨"gone"⟩⟩ : Source).bytes = (⟨[cutBytes], .failure ⟨"gone"⟩⟩ : Source).bytes := by
    decide
  obtain ⟨hitems, -⟩ := survey.rows_whatever_pieces hbytes rfl (fun _ => by decide)
  have houtcomes : survey.outcomes ⟨[cutBytes], .failure ⟨"gone"⟩⟩ =
      [.record 1 ["7", ""], .record 1 ["8", ""], .failed ⟨"gone"⟩] := by decide +kernel
  refine ⟨hitems, ?_⟩
  rw [items_rows, houtcomes]
  cbv

end TypedCsv.Decoder
