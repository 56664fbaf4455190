import Mathlib.Data.List.Basic
import TypedCsv.Proofs.Decoder

/-! # What is decoded is settled by the records

The rows of an input come from its outcomes alone: `Decoder.decoded` goes through a list of
outcomes, and the rows of an input are what it finds in the outcomes of that input
(`Rows.items_eq_decoded`). So statements on whole inputs are inductions on lists of outcomes.

* `Framing.Reader.exists_records`: the outcomes of an input are records, and a failure at most at
  the end.
* `Rows.found`: the rows of an input without the numbers and the errors.
* `Decoder.decoded_strict`: the strict policy skips nothing and ends with at most one error. -/

namespace TypedCsv

namespace Framing

/-- Whether an outcome stands for a record, be it malformed or not. -/
def Outcome.isRecord : Outcome → Bool
  | record _ _ => true
  | malformed _ _ => true
  | _ => false

namespace Reader

/-- The outcomes of an input are records up to its end or its failure. -/
theorem exists_records (r : Reader) :
    ∃ records ending, r.outcomes = records ++ ending ∧
      (∀ outcome ∈ records, outcome.isRecord = true) ∧
      (ending = [] ∨ ∃ fault, ending = [.failed fault]) := by
  fun_induction outcomes r with
  | case1 r h => exact ⟨[], [], rfl, by simp, Or.inl rfl⟩
  | case2 r fault h => exact ⟨[], _, rfl, by simp, Or.inr ⟨fault, rfl⟩⟩
  | case3 r line fault h ih =>
    obtain ⟨records, ending, heq, hrecords, hending⟩ := ih
    exact ⟨.malformed line fault :: records, ending, by rw [heq]; rfl,
      List.forall_mem_cons.2 ⟨rfl, hrecords⟩, hending⟩
  | case4 r line cells h ih =>
    obtain ⟨records, ending, heq, hrecords, hending⟩ := ih
    exact ⟨.record line cells :: records, ending, by rw [heq]; rfl,
      List.forall_mem_cons.2 ⟨rfl, hrecords⟩, hending⟩

end Reader

end Framing

namespace Decoder

/-- A record is read or rejected, and never rejected for a failure of the input. -/
theorem convert_record_cases (d : Decoder) (line : Nat) (cells : List String) :
    (∃ row, d.convert (.record line cells) = .row row) ∨
      ∃ error, d.convert (.record line cells) = .rejected error ∧ ∀ fault, error ≠ .io fault := by
  rw [convert]
  split
  · exact Or.inr ⟨_, rfl, by simp⟩
  · split
    · exact Or.inl ⟨_, rfl⟩
    · exact Or.inr ⟨_, rfl, by simp⟩

/-- Only a failure of the input is converted to a failure. -/
theorem eq_failed_of_convert {d : Decoder} {outcome : Framing.Outcome} {fault : IoFault}
    (h : d.convert outcome = .failed fault) : outcome = .failed fault := by
  cases outcome with
  | record line cells =>
    obtain ⟨row, hc⟩ | ⟨error, hc, -⟩ := d.convert_record_cases line cells
    · rw [hc] at h
      cases h
    · rw [hc] at h
      cases h
  | malformed line fault => cases h
  | failed fault =>
    cases h
    rfl
  | finished => cases h

/-- A failure of the input is never a rejected record. -/
theorem convert_ne_rejected_io {d : Decoder} (outcome : Framing.Outcome) (fault : IoFault) :
    d.convert outcome ≠ .rejected (.io fault) := by
  intro h
  cases outcome with
  | record line cells =>
    obtain ⟨row, hc⟩ | ⟨error, hc, hio⟩ := d.convert_record_cases line cells
    · rw [hc] at h
      cases h
    · rw [hc] at h
      cases h
      exact hio fault rfl
  | malformed line fault => cases h
  | failed fault => cases h
  | finished => cases h

/-- What is decoded from some outcomes after a number of records have been skipped: the items, each
with the number of records skipped before it, and the number of records skipped in all. -/
def decoded (d : Decoder) (skipped : Nat) :
    List Framing.Outcome → List (Except Error Row × Nat) × Nat
  | [] => ([], skipped)
  | outcome :: outcomes =>
    match d.convert outcome with
    | .row row =>
      ((.ok row, skipped) :: (d.decoded skipped outcomes).1, (d.decoded skipped outcomes).2)
    | .rejected error =>
      if d.policy = .lenient then d.decoded (skipped + 1) outcomes
      else ([(.error error, skipped)], skipped)
    | .failed fault => ([(.error (.io fault), skipped)], skipped)
    | .finished => ([], skipped)

/-- The rows among some items. -/
def rowsOf (items : List (Except Error Row × Nat)) : List Row :=
  items.filterMap fun item => item.1.toOption

/-- Without items there are no rows. -/
@[simp] theorem rowsOf_nil : rowsOf [] = [] := rfl

/-- An item that is a row is the first row. -/
@[simp] theorem rowsOf_cons_ok (row : Row) (skipped : Nat)
    (items : List (Except Error Row × Nat)) :
    rowsOf ((.ok row, skipped) :: items) = row :: rowsOf items := rfl

/-- An error holds no row. -/
@[simp] theorem rowsOf_cons_error (error : Error) (skipped : Nat)
    (items : List (Except Error Row × Nat)) :
    rowsOf ((.error error, skipped) :: items) = rowsOf items := rfl

/-- The rows of an input. -/
def Rows.found (s : Rows) : List Row :=
  rowsOf s.items.1

section Outcomes

variable {d : Decoder} {skipped : Nat} {outcome : Framing.Outcome}
  {outcomes : List Framing.Outcome}

/-- Without outcomes nothing is decoded. -/
@[simp] theorem decoded_nil : d.decoded skipped [] = ([], skipped) := rfl

/-- A row is given before what is decoded from the outcomes behind it. -/
theorem decoded_of_row {row : Row} (h : d.convert outcome = .row row) :
    d.decoded skipped (outcome :: outcomes) =
      ((.ok row, skipped) :: (d.decoded skipped outcomes).1, (d.decoded skipped outcomes).2) := by
  rw [decoded, h]

/-- A rejected record is counted and passed over by a lenient decoder, and is the last item of a
strict one. -/
theorem decoded_of_rejected {error : Error} (h : d.convert outcome = .rejected error) :
    d.decoded skipped (outcome :: outcomes) =
      if d.policy = .lenient then d.decoded (skipped + 1) outcomes
      else ([(.error error, skipped)], skipped) := by
  rw [decoded, h]

/-- A failure of the input is the last item under both policies. -/
theorem decoded_of_failed {fault : IoFault} (h : d.convert outcome = .failed fault) :
    d.decoded skipped (outcome :: outcomes) = ([(.error (.io fault), skipped)], skipped) := by
  rw [decoded, h]

/-- Nothing is decoded behind the end of the records. -/
theorem decoded_of_finished (h : d.convert outcome = .finished) :
    d.decoded skipped (outcome :: outcomes) = ([], skipped) := by
  rw [decoded, h]

/-- The strict policy skips nothing: its items are rows, and then at most one error. -/
theorem decoded_strict (hp : d.policy = .strict) (skipped : Nat)
    (outcomes : List Framing.Outcome) :
    (d.decoded skipped outcomes).2 = skipped ∧
      ∃ ending, (d.decoded skipped outcomes).1 =
          (rowsOf (d.decoded skipped outcomes).1).map (fun row => (.ok row, skipped)) ++ ending ∧
        (ending = [] ∨ ∃ error, ending = [(.error error, skipped)]) := by
  induction outcomes with
  | nil => exact ⟨rfl, [], rfl, Or.inl rfl⟩
  | cons outcome outcomes ih =>
    cases hc : d.convert outcome with
    | row row =>
      obtain ⟨htotal, ending, hitems, hending⟩ := ih
      rw [decoded_of_row hc]
      refine ⟨htotal, ending, ?_, hending⟩
      rw [rowsOf_cons_ok, List.map_cons, List.cons_append, ← hitems]
    | rejected error =>
      rw [decoded_of_rejected hc, if_neg (by simp [hp])]
      exact ⟨rfl, _, rfl, Or.inr ⟨error, rfl⟩⟩
    | failed fault =>
      rw [decoded_of_failed hc]
      exact ⟨rfl, _, rfl, Or.inr ⟨_, rfl⟩⟩
    | finished =>
      rw [decoded_of_finished hc]
      exact ⟨rfl, [], rfl, Or.inl rfl⟩

/-- An error under the strict policy is the last item. -/
theorem decoded_strict_of_mem (hp : d.policy = .strict) {error : Error} {n : Nat}
    (h : (.error error, n) ∈ (d.decoded skipped outcomes).1) :
    (d.decoded skipped outcomes).1 =
      (rowsOf (d.decoded skipped outcomes).1).map (fun row => (.ok row, skipped)) ++
        [(.error error, skipped)] := by
  obtain ⟨-, ending, hitems, hending⟩ := decoded_strict hp skipped outcomes
  rw [hitems] at h
  rcases List.mem_append.1 h with h | h
  · obtain ⟨row, -, hrow⟩ := List.mem_map.1 h
    cases hrow
  · obtain rfl | ⟨error', rfl⟩ := hending
    · cases h
    · cases List.mem_singleton.1 h
      exact hitems

end Outcomes

namespace Rows

variable {s : Rows} {outcome : Framing.Outcome}

/-! ## One step -/

/-- A call that meets a rejected record goes on to the next one if the decoder is lenient, and gives
its error and finishes the rows if it is strict. -/
theorem next_of_rejected (hf : s.finished = false) {error : Error}
    (h : s.decoder.convert s.records.next.1 = .rejected error) :
    s.next = if s.decoder.policy = .lenient then
        next { s with records := s.records.next.2, skipped := s.skipped + 1 }
      else (some (.error error), { s with records := s.records.next.2, finished := true }) := by
  rw [next.eq_def, if_neg (by simp [hf])]
  split <;> simp_all

/-- A call that meets a failure of the input gives it and finishes the rows. -/
theorem next_of_failed (hf : s.finished = false) {fault : IoFault}
    (h : s.decoder.convert s.records.next.1 = .failed fault) :
    s.next =
      (some (.error (.io fault)), { s with records := s.records.next.2, finished := true }) := by
  rw [next.eq_def, if_neg (by simp [hf])]
  split <;> simp_all

/-- Finished rows have no items. -/
theorem items_of_finished (hf : s.finished = true) : s.items = ([], s) := by
  have hnext : s.next = (none, s) := by rw [next.eq_def, if_pos hf]
  rw [items_of_next_none (by rw [hnext]), hnext]

/-- The items of an input depend on what comes next alone. -/
theorem items_congr {t : Rows} (h : s.next = t.next) : s.items = t.items := by
  cases hn : t.next.1 with
  | none => rw [items_of_next_none hn, items_of_next_none (h ▸ hn), h]
  | some item => rw [items_of_next_some hn, items_of_next_some (h ▸ hn), h]

/-- What is decoded if the input goes on with an outcome. -/
theorem items_eq_of_next {rest : List Framing.Outcome} (hf : s.finished = false)
    (h : s.records.next.1 = outcome)
    (ih : ∀ t : Rows, t.finished = false → t.records = s.records.next.2 →
      (t.items.1, t.items.2.skipped) = t.decoder.decoded t.skipped rest) :
    (s.items.1, s.items.2.skipped) = s.decoder.decoded s.skipped (outcome :: rest) := by
  subst h
  cases hc : s.decoder.convert s.records.next.1 with
  | row row =>
    have hs := next_of_row hf hc
    have hrest := Prod.ext_iff.1 (ih { s with records := s.records.next.2 } hf rfl)
    rw [decoded_of_row hc, ← hrest.1, ← hrest.2, items_of_next_some (by rw [hs]), hs]
  | rejected error =>
    have hs := next_of_rejected hf hc
    rw [decoded_of_rejected hc]
    split
    · -- the record is skipped
      next hp =>
      rw [if_pos hp] at hs
      rw [items_congr hs]
      exact ih { s with records := s.records.next.2, skipped := s.skipped + 1 } hf rfl
    · -- the rows end with an error
      next hp =>
      rw [if_neg hp] at hs
      rw [items_of_next_some (by rw [hs]), hs, items_of_finished rfl]
  | failed fault =>
    have hs := next_of_failed hf hc
    rw [decoded_of_failed hc, items_of_next_some (by rw [hs]), hs, items_of_finished rfl]
  | finished =>
    have hs := next_of_finished hf (eq_finished_of_convert hc)
    rw [decoded_of_finished hc, items_of_next_none (by rw [hs]), hs]

/-! ## Whole inputs -/

/-- **The rows of an input are those of its outcomes.** -/
theorem items_eq_decoded (hf : s.finished = false) :
    (s.items.1, s.items.2.skipped) = s.decoder.decoded s.skipped s.records.outcomes := by
  generalize hr : s.records = r
  fun_induction Framing.Reader.outcomes r generalizing s with
  | case1 r h =>
    have hs := next_of_finished hf (by rw [hr, h])
    rw [items_of_next_none (by rw [hs]), hs, decoded_nil]
  | case2 r fault h =>
    have hc : s.decoder.convert (.failed fault) = .failed fault := rfl
    have hs := next_of_failed hf (by rw [hr, h]; exact hc)
    rw [items_of_next_some (by rw [hs]), hs, items_of_finished rfl, decoded_of_failed hc]
  | case3 r line fault h ih =>
    exact items_eq_of_next hf (by rw [hr, h]) fun t ht hrecords => ih ht (by rw [hrecords, hr])
  | case4 r line cells h ih =>
    exact items_eq_of_next hf (by rw [hr, h]) fun t ht hrecords => ih ht (by rw [hrecords, hr])

end Rows

/-- The outcomes of an input in the framing of a decoder. -/
def outcomes (d : Decoder) (source : Source) : List Framing.Outcome :=
  (Framing.Reader.ofSource d.dialect source).outcomes

/-- The items of an input are those decoded from its outcomes. -/
theorem items_rows (d : Decoder) (source : Source) :
    (d.rows source).items.1 = (d.decoded 0 (d.outcomes source)).1 :=
  congrArg Prod.fst (Rows.items_eq_decoded (s := d.rows source) rfl)

/-- The rows of an input are those decoded from its outcomes. -/
theorem found_rows (d : Decoder) (source : Source) :
    (d.rows source).found = rowsOf (d.decoded 0 (d.outcomes source)).1 := by
  rw [Rows.found, items_rows]

/-- The records skipped in an input are those skipped among its outcomes. -/
theorem skipped_rows (d : Decoder) (source : Source) :
    (d.rows source).items.2.skipped = (d.decoded 0 (d.outcomes source)).2 :=
  congrArg Prod.snd (Rows.items_eq_decoded (s := d.rows source) rfl)

end Decoder

end TypedCsv
