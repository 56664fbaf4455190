import TypedCsv.Proofs.Leniency

/-! # Every record is accounted for once

A call for the next row takes some outcomes off those that are still to come, and gives one answer
for all of them: the records at their front are passed over and counted, and the last outcome is
answered (`Rows.next_accounts`). Over any number of calls the outcomes that have been taken are thus
answered or counted, each of them once (`Rows.after_accounts`), and what comes first as an error or
as the end is the end of all (`Rows.after_of_ended`).

* `Rows.after`, `Rows.call`: the rows after some calls, and the answer of one call.
* `Decoder.every_record_accounted`: what all calls come to, under either policy. -/

namespace TypedCsv

namespace Decoder

/-! ## Outcomes and answers -/

/-- Whether a record cannot be read: it is malformed, too wide, or a cell cannot be read. -/
def rejects (d : Decoder) : Framing.Outcome → Bool
  | .record _ cells => decide (d.width < cells.length) || ! (d.cells.read cells).isOk
  | .malformed _ _ => true
  | _ => false

/-- The failure that an outcome tells, if it is none of a record. -/
def failure? : Framing.Outcome → Option IoFault
  | .failed fault => some fault
  | _ => none

/-- Whether the strict policy goes no further than an outcome. -/
def stops (d : Decoder) (outcome : Framing.Outcome) : Bool :=
  d.rejects outcome || (failure? outcome).isSome

/-- The row that an outcome is converted to. -/
def row? (d : Decoder) (outcome : Framing.Outcome) : Option Row :=
  match d.convert outcome with
  | .row row => some row
  | _ => none

/-- The row or the error that an outcome is converted to; the end is neither. -/
def item? (d : Decoder) (outcome : Framing.Outcome) : Option (Except Error Row) :=
  match d.convert outcome with
  | .row row => some (.ok row)
  | .rejected error => some (.error error)
  | .failed fault => some (.error (.io fault))
  | .finished => none

/-- Whether a record is passed over and counted. -/
def passes (d : Decoder) (outcome : Framing.Outcome) : Bool :=
  decide (d.policy = .lenient) && d.rejects outcome

/-- What is answered for an outcome. -/
def answer? (d : Decoder) (outcome : Framing.Outcome) : Option (Except Error Row) :=
  if d.passes outcome then none else d.item? outcome

section Outcomes

variable {d : Decoder} {outcome : Framing.Outcome}

/-- No record that gives a row is rejected. -/
theorem rejects_of_convert_row {row : Row} (h : d.convert outcome = .row row) :
    d.rejects outcome = false := by
  obtain ⟨line, cells, rfl, hwidth, hread⟩ := exists_read_of_convert h
  simp [rejects, hread, hwidth]

/-- A record that gives an error is rejected. -/
theorem rejects_of_convert_rejected {error : Error} (h : d.convert outcome = .rejected error) :
    d.rejects outcome = true := by
  cases outcome with
  | record line cells =>
    by_cases hwidth : cells.length ≤ d.width
    · cases hread : d.cells.read cells with
      | ok row =>
        rw [convert_record hwidth hread] at h
        cases h
      | error fault => simp [rejects, hread]
    · simp [rejects, Nat.lt_of_not_le hwidth]
  | malformed line fault => rfl
  | failed fault => cases h
  | finished => cases h

/-- A record that gives a row has no failure. -/
theorem failure?_of_convert_row {row : Row} (h : d.convert outcome = .row row) :
    failure? outcome = none := by
  obtain ⟨line, cells, rfl, -⟩ := exists_read_of_convert h
  rfl

/-- A strict decoder passes over no record. -/
theorem passes_strict (hp : d.policy = .strict) (outcome : Framing.Outcome) :
    d.passes outcome = false := by
  simp [passes, hp]

/-- A lenient decoder passes over exactly the records that it rejects. -/
theorem passes_lenient (hp : d.policy = .lenient) : d.passes = d.rejects := by
  funext outcome
  simp [passes, hp]

end Outcomes

/-- Whatever is converted to more than the end of the rows is not the end of the records. -/
theorem ne_finished_of_convert {d : Decoder} {outcome : Framing.Outcome}
    (h : d.convert outcome ≠ .finished) : outcome ≠ .finished := by
  rintro rfl
  exact h rfl

namespace Rows

variable {s : Rows}

/-! ## One call -/

/-- An outcome that is not passed over is taken and answered by itself. -/
theorem accounts_of_answered (hc : s.decoder.convert s.records.next.1 ≠ .finished)
    (hpasses : s.decoder.passes s.records.next.1 = false) :
    s.records.outcomes = [s.records.next.1] ++ s.records.next.2.outcomes ∧
      (s.decoder.item? s.records.next.1).toList =
        [s.records.next.1].filterMap s.decoder.answer? ∧
      s.skipped = s.skipped + [s.records.next.1].countP s.decoder.passes := by
  refine ⟨Framing.Reader.outcomes_of_ne_finished (ne_finished_of_convert hc), ?_, ?_⟩
  · cases hitem : s.decoder.item? s.records.next.1 <;> simp [answer?, hpasses, hitem]
  · simp [hpasses]

/-- **One call accounts for what it takes.** It takes some outcomes, counts those that are passed
over, and answers with the row or the error of the one that is not; without one it answers that the
end has come. Any answer but a row is the last. -/
theorem next_accounts (s : Rows) :
    ∃ taken, s.records.outcomes = taken ++ s.next.2.records.outcomes ∧
      s.next.1.toList = taken.filterMap s.decoder.answer? ∧
      s.next.2.skipped = s.skipped + taken.countP s.decoder.passes ∧
      ((∀ row, s.next.1 ≠ some (.ok row)) → s.next.2.finished = true) := by
  fun_induction next s with
  | case1 s hf => exact ⟨[], rfl, rfl, rfl, fun _ => hf⟩
  | case2 s hf row hc =>
    -- the row of a record
    have hpasses : s.decoder.passes s.records.next.1 = false := by
      simp [passes, rejects_of_convert_row hc]
    obtain ⟨houtcomes, hanswer, hskipped⟩ := accounts_of_answered (by simp [hc]) hpasses
    rw [item?, hc] at hanswer
    exact ⟨_, houtcomes, hanswer, hskipped, fun h => absurd rfl (h row)⟩
  | case3 s hf error hc hp ih =>
    -- a record that is passed over, before what the rest of the call takes
    have hpasses : s.decoder.passes s.records.next.1 = true := by
      simp [passes, hp, rejects_of_convert_rejected hc]
    obtain ⟨taken, houtcomes, hanswer, hskipped, hlast⟩ := ih
    refine ⟨s.records.next.1 :: taken, ?_, ?_, ?_, hlast⟩
    · have hne : s.decoder.convert s.records.next.1 ≠ .finished := by simp [hc]
      rw [Framing.Reader.outcomes_of_ne_finished (ne_finished_of_convert hne)]
      exact congrArg _ houtcomes
    · rw [hanswer, List.filterMap_cons_none (by simp [answer?, hpasses])]
    · rw [hskipped, List.countP_cons_of_pos hpasses, Nat.add_assoc, Nat.add_comm 1]
  | case4 s hf error hc hp =>
    -- the error of a record
    have hpasses : s.decoder.passes s.records.next.1 = false := by simp [passes, hp]
    obtain ⟨houtcomes, hanswer, hskipped⟩ := accounts_of_answered (by simp [hc]) hpasses
    rw [item?, hc] at hanswer
    exact ⟨_, houtcomes, hanswer, hskipped, fun _ => rfl⟩
  | case5 s hf fault hc =>
    -- the failure of the input
    have hpasses : s.decoder.passes s.records.next.1 = false := by
      simp [passes, eq_failed_of_convert hc, rejects]
    obtain ⟨houtcomes, hanswer, hskipped⟩ := accounts_of_answered (by simp [hc]) hpasses
    rw [item?, hc] at hanswer
    exact ⟨_, houtcomes, hanswer, hskipped, fun _ => rfl⟩
  | case6 s hf hc =>
    have hfinished := eq_finished_of_convert hc
    refine ⟨[], ?_, rfl, rfl, fun _ => rfl⟩
    rw [Framing.Reader.outcomes_of_finished hfinished]
    exact (Framing.Reader.outcomes_next_of_finished hfinished).symm

/-- Finished rows give nothing more and stay as they are. -/
theorem next_of_finished_eq_true (hf : s.finished = true) : s.next = (none, s) := by
  rw [next.eq_def, if_pos hf]

/-! ## Any number of calls -/

/-- The rows after some calls. -/
def after (s : Rows) : Nat → Rows
  | 0 => s
  | n + 1 => (s.after n).next.2

/-- The answer of a call, the first one having the number 0. -/
def call (s : Rows) (n : Nat) : Option (Except Error Row) :=
  (s.after n).next.1

/-- Without a call the rows stay as they are. -/
@[simp] theorem after_zero (s : Rows) : s.after 0 = s := rfl

/-- One call more is made on what the calls before it leave. -/
theorem after_succ (s : Rows) (n : Nat) : s.after (n + 1) = (s.after n).next.2 := rfl

/-- The calls behind a first one continue from it. -/
theorem after_next (s : Rows) (n : Nat) : s.next.2.after n = s.after (n + 1) := by
  induction n with
  | zero => rfl
  | succ n ih => rw [after_succ, ih, ← after_succ]

/-- Calls do not change the decoder. -/
theorem decoder_after (s : Rows) (n : Nat) : (s.after n).decoder = s.decoder := by
  induction n with
  | zero => rfl
  | succ n ih => rw [after_succ, decoder_next, ih]

/-- **What some calls have taken is answered or counted, each outcome once.** -/
theorem after_accounts (s : Rows) (n : Nat) :
    ∃ taken, s.records.outcomes = taken ++ (s.after n).records.outcomes ∧
      (List.range n).filterMap s.call = taken.filterMap s.decoder.answer? ∧
      (s.after n).skipped = s.skipped + taken.countP s.decoder.passes := by
  induction n with
  | zero => exact ⟨[], rfl, rfl, rfl⟩
  | succ n ih =>
    obtain ⟨before, hbefore, hcalls, hskipped⟩ := ih
    obtain ⟨taken, houtcomes, hanswer, hcount, -⟩ := (s.after n).next_accounts
    rw [decoder_after] at hanswer hcount
    refine ⟨before ++ taken, ?_, ?_, ?_⟩
    · rw [List.append_assoc, after_succ, ← houtcomes, hbefore]
    · rw [List.range_succ, List.filterMap_append, List.filterMap_append, hcalls, ← hanswer]
      cases hcall : (s.after n).next.1 <;> simp [call, hcall]
    · rw [after_succ, hcount, hskipped, List.countP_append, Nat.add_assoc]

/-- **Behind the first end or error every call answers that the end has come**, and changes
nothing: it neither reads nor counts. -/
theorem after_of_ended {n : Nat} (h : ∀ row, s.call n ≠ some (.ok row)) {m : Nat} (hm : n < m) :
    s.call m = none ∧ s.after m = s.after (n + 1) := by
  obtain ⟨-, -, -, -, hlast⟩ := (s.after n).next_accounts
  have hnext := next_of_finished_eq_true (hlast h)
  obtain ⟨k, rfl⟩ := Nat.exists_eq_add_of_lt hm
  have hafter : s.after (n + k + 1) = s.after (n + 1) := by
    clear hm
    induction k with
    | zero => rfl
    | succ k ih => rw [after_succ, Nat.add_succ, ih, after_succ, hnext]
  exact ⟨by rw [call, hafter, after_succ, hnext], hafter⟩

/-- The answers of all calls are the items in order, and then the end. -/
theorem call_eq_getElem? (s : Rows) (n : Nat) : s.call n = (s.items.1.map Prod.fst)[n]? := by
  fun_induction items s generalizing n with
  | case1 s hnone =>
    cases n with
    | zero => exact hnone
    | succ n =>
      have hended : ∀ row, s.call 0 ≠ some (.ok row) := by simp [call, hnone]
      exact (after_of_ended hended (Nat.succ_pos n)).1
  | case2 s item hitem rest last hrest ih =>
    rw [hrest] at ih
    cases n with
    | zero => exact hitem
    | succ n =>
      rw [List.map_cons, List.getElem?_cons_succ, ← ih n, call, call, after_next]

end Rows

/-! ## All calls -/

section Items

variable {d : Decoder} {skipped : Nat}

/-- Under the strict policy the items are what the outcomes are converted to, as far as the first
that is no row. -/
theorem map_fst_decoded_strict (hp : d.policy = .strict) {outcomes : List Framing.Outcome}
    (h : ∀ outcome ∈ outcomes, outcome ≠ .finished) :
    (d.decoded skipped outcomes).1.map Prod.fst =
      (outcomes.take (outcomes.findIdx d.stops + 1)).filterMap d.item? := by
  induction outcomes with
  | nil => rfl
  | cons outcome outcomes ih =>
    obtain ⟨hne, houtcomes⟩ := List.forall_mem_cons.1 h
    cases hc : d.convert outcome with
    | row row =>
      have hstops : d.stops outcome = false := by
        simp [stops, rejects_of_convert_row hc, failure?_of_convert_row hc]
      have hitem : d.item? outcome = some (.ok row) := by rw [item?, hc]
      rw [decoded_of_row hc, List.findIdx_cons, hstops, cond_false, List.take_succ_cons,
        List.filterMap_cons_some hitem, List.map_cons, ih houtcomes]
    | rejected error =>
      have hstops : d.stops outcome = true := by simp [stops, rejects_of_convert_rejected hc]
      have hitem : d.item? outcome = some (.error error) := by rw [item?, hc]
      rw [decoded_of_rejected hc, if_neg (by simp [hp]), List.findIdx_cons, hstops, cond_true,
        List.take_succ_cons, List.filterMap_cons_some hitem]
      rfl
    | failed fault =>
      have hstops : d.stops outcome = true := by
        simp [stops, eq_failed_of_convert hc, failure?]
      have hitem : d.item? outcome = some (.error (.io fault)) := by rw [item?, hc]
      rw [decoded_of_failed hc, List.findIdx_cons, hstops, cond_true, List.take_succ_cons,
        List.filterMap_cons_some hitem]
      rfl
    | finished => exact absurd (Rows.eq_finished_of_convert hc) hne

/-- Under the lenient policy the items are the rows, and then the failure if there is one. -/
theorem map_fst_decoded_lenient (hp : d.policy = .lenient) {records ending : List Framing.Outcome}
    (hrecords : ∀ outcome ∈ records, outcome.isRecord = true)
    (hending : ending = [] ∨ ∃ fault, ending = [.failed fault]) :
    (d.decoded skipped (records ++ ending)).1.map Prod.fst =
      (records.filterMap d.row?).map .ok ++ (ending.filterMap failure?).map (.error ∘ .io) := by
  induction records generalizing skipped with
  | nil =>
    obtain rfl | ⟨fault, rfl⟩ := hending
    · rfl
    · rfl
  | cons outcome records ih =>
    obtain ⟨houtcome, hrecords⟩ := List.forall_mem_cons.1 hrecords
    rw [List.cons_append]
    cases hc : d.convert outcome with
    | row row =>
      have hrow : d.row? outcome = some row := by rw [row?, hc]
      rw [decoded_of_row hc, List.filterMap_cons_some hrow, List.map_cons, ih hrecords]
      rfl
    | rejected error =>
      have hrow : d.row? outcome = none := by rw [row?, hc]
      rw [decoded_of_rejected hc, if_pos hp, List.filterMap_cons_none hrow, ih hrecords]
    | failed fault =>
      rw [eq_failed_of_convert hc] at houtcome
      cases houtcome
    | finished =>
      rw [Rows.eq_finished_of_convert hc] at houtcome
      cases houtcome

/-- Of the outcomes of an input only the last can be a failure. -/
theorem filterMap_failure? {records : List Framing.Outcome} (ending : List Framing.Outcome)
    (hrecords : ∀ outcome ∈ records, outcome.isRecord = true) :
    (records ++ ending).filterMap failure? = ending.filterMap failure? := by
  rw [List.filterMap_append, List.filterMap_eq_nil_iff.2, List.nil_append]
  intro outcome hmem
  have hrecord := hrecords outcome hmem
  cases outcome with
  | record line cells => rfl
  | malformed line fault => rfl
  | failed fault => cases hrecord
  | finished => cases hrecord

/-- A failure is converted to no row. -/
theorem filterMap_row? (records : List Framing.Outcome) {ending : List Framing.Outcome}
    (hending : ending = [] ∨ ∃ fault, ending = [.failed fault]) :
    (records ++ ending).filterMap d.row? = records.filterMap d.row? := by
  obtain rfl | ⟨fault, rfl⟩ := hending
  · rw [List.append_nil]
  · rw [List.filterMap_append]
    exact List.append_nil _

end Items

/-- **Every record is accounted for once.** Under the strict policy the items are what the outcomes
of the input are converted to, up to the first that is no row, and nothing is skipped; under the
lenient policy they are the rows and then the failure of the input, if there is one, and at each
point the records that have been taken and cannot be read are the ones skipped. The calls answer
these items one after the other and then the end. What a call takes is a list of outcomes, of which
it answers at most one and counts the others, and after an end or an error nothing more is read or
counted. -/
theorem every_record_accounted (d : Decoder) (source : Source) :
    (d.policy = .strict →
      (d.rows source).items.1.map Prod.fst =
          ((d.outcomes source).take ((d.outcomes source).findIdx d.stops + 1)).filterMap d.item? ∧
        ∀ n, ((d.rows source).after n).skipped = 0) ∧
    (d.policy = .lenient →
      (d.rows source).items.1.map Prod.fst =
          ((d.outcomes source).filterMap d.row?).map .ok ++
            ((d.outcomes source).filterMap failure?).map (.error ∘ .io) ∧
        ((d.outcomes source).filterMap failure?).length ≤ 1 ∧
        ∀ n, ∃ taken, d.outcomes source = taken ++ ((d.rows source).after n).records.outcomes ∧
          ((d.rows source).after n).skipped = taken.countP d.rejects) ∧
    (∀ n, (d.rows source).call n = ((d.rows source).items.1.map Prod.fst)[n]?) ∧
    (∀ n, ∃ taken, ((d.rows source).after n).records.outcomes =
        taken ++ ((d.rows source).after (n + 1)).records.outcomes ∧
      ((d.rows source).call n).toList = taken.filterMap d.answer? ∧
      ((d.rows source).after (n + 1)).skipped =
        ((d.rows source).after n).skipped + taken.countP d.passes) ∧
    ∀ n, (∀ row, (d.rows source).call n ≠ some (.ok row)) → ∀ m, n < m →
      (d.rows source).call m = none ∧
        (d.rows source).after m = (d.rows source).after (n + 1) := by
  obtain ⟨records, ending, houtcomes, hrecords, hending⟩ :=
    Framing.Reader.exists_records (.ofSource d.dialect source)
  change d.outcomes source = records ++ ending at houtcomes
  have hrun (n : Nat) : ∃ taken,
      d.outcomes source = taken ++ ((d.rows source).after n).records.outcomes ∧
        ((d.rows source).after n).skipped = taken.countP d.passes := by
    obtain ⟨taken, htaken, -, hskipped⟩ := (d.rows source).after_accounts n
    exact ⟨taken, htaken, hskipped.trans (Nat.zero_add _)⟩
  refine ⟨fun hp => ⟨?_, fun n => ?_⟩, fun hp => ⟨?_, ?_, fun n => ?_⟩,
    (d.rows source).call_eq_getElem?, fun n => ?_, fun n h m hm => Rows.after_of_ended h hm⟩
  · rw [items_rows]
    refine map_fst_decoded_strict hp fun outcome hmem => ?_
    rw [houtcomes] at hmem
    rintro rfl
    rcases List.mem_append.1 hmem with hmem | hmem
    · cases hrecords _ hmem
    · obtain rfl | ⟨fault, rfl⟩ := hending <;> simp at hmem
  · obtain ⟨taken, -, hskipped⟩ := hrun n
    rw [hskipped, List.countP_eq_zero]
    simp [passes_strict hp]
  · rw [items_rows, houtcomes, map_fst_decoded_lenient hp hrecords hending,
      filterMap_failure? ending hrecords, filterMap_row? records hending]
  · rw [houtcomes, filterMap_failure? ending hrecords]
    obtain rfl | ⟨fault, rfl⟩ := hending
    · exact Nat.zero_le 1
    · exact Nat.le_refl 1
  · obtain ⟨taken, htaken, hskipped⟩ := hrun n
    exact ⟨taken, htaken, by rw [hskipped, passes_lenient hp]⟩
  · obtain ⟨taken, htaken, hanswer, hskipped, -⟩ := ((d.rows source).after n).next_accounts
    rw [Rows.decoder_after] at hanswer hskipped
    exact ⟨taken, htaken, hanswer, hskipped⟩

/-- Under the lenient policy three of five records are passed over, and the failure of the input
ends the calls; under the strict one the second record does. -/
theorem every_record_accounted_survey :
    (survey.withPolicy .lenient).policy = .lenient ∧
      ((survey.withPolicy .lenient).rows surveySource).call 1 = some (.ok [some (.integer 8), none]) ∧
      ((survey.withPolicy .lenient).rows surveySource).call 2 = some (.error (.io ⟨"gone"⟩)) ∧
      ((survey.withPolicy .lenient).rows surveySource).call 9 = none ∧
      survey.policy = .strict ∧ (survey.rows surveySource).call 2 = none ∧
      ((survey.rows surveySource).after 9).skipped = 0 := by
  obtain ⟨-, hlenient, hcall, -, hended⟩ :=
    every_record_accounted (survey.withPolicy .lenient) surveySource
  obtain ⟨hstrict, -, hcallStrict, -⟩ := every_record_accounted survey surveySource
  obtain ⟨hitems, -⟩ := hlenient rfl
  obtain ⟨hitemsStrict, hskipped⟩ := hstrict rfl
  have houtcomes : survey.outcomes surveySource = [.record 1 ["7", ""], .record 2 ["8", "tall"],
      .record 3 ["none", "1"], .record 4 ["9", "", "9"],
      .malformed 5 (.quotedText ⟨22, 5, 4⟩ 1 0), .failed ⟨"gone"⟩] := by decide +kernel
  have hsame : (survey.withPolicy .lenient).outcomes surveySource =
      survey.outcomes surveySource := rfl
  rw [hsame, houtcomes] at hitems
  rw [houtcomes] at hitemsStrict
  have hlast : ((survey.withPolicy .lenient).rows surveySource).call 2 =
      some (.error (.io ⟨"gone"⟩)) := by
    rw [hcall, hitems]
    cbv
  refine ⟨rfl, ?_, hlast, (hended 2 (by simp [hlast]) 9 (by omega)).1, rfl, ?_, hskipped 9⟩
  · rw [hcall, hitems]
    cbv
  · rw [hcallStrict, hitemsStrict]
    cbv

end Decoder

end TypedCsv
