import TypedCsv.Proofs.Decoding

/-! # What is decoded, wherever it stands

The lines of records and the places in faults take no part in decoding: an outcome that is told
elsewhere comes to the same row or the same error, told elsewhere (`Decoder.decoded_map_seen`).

* `Framing.Outcome.seen`, `Error.seen`: without lines, and with as much of a fault as a view of it
  leaves.
* `Framing.Fault.unplaced`: the view that leaves all but places.
* `Decoder.seen`: the items of an input in the same way. -/

namespace TypedCsv

namespace Framing

/-- A fault without the place of its record. -/
def Fault.unplaced : Fault → Fault
  | quotedText _ cell validBytes => quotedText Position.start cell validBytes
  | fault => fault

/-- An outcome without its line, and with what a view leaves of its fault. -/
def Outcome.seen (view : Fault → Fault) : Outcome → Outcome
  | record _ cells => record 0 cells
  | malformed _ fault => malformed 0 (view fault)
  | outcome => outcome

/-- A record is one without its place too. -/
@[simp] theorem Outcome.isRecord_seen (view : Fault → Fault) (outcome : Outcome) :
    (outcome.seen view).isRecord = outcome.isRecord := by
  cases outcome <;> rfl

end Framing

/-- An error without its line, and with what a view leaves of the fault of a malformed record. -/
def Error.seen (view : Framing.Fault → Framing.Fault) : Error → Error
  | cell _ fault => cell 0 fault
  | malformed _ fault => malformed 0 (view fault)
  | error => error

namespace Decoder

open Framing (Outcome)

variable {d other : Decoder} {view : Framing.Fault → Framing.Fault} {skipped : Nat}

/-- Items without lines, and with what a view leaves of the faults of malformed records. -/
def seen (view : Framing.Fault → Framing.Fault) (items : List (Except Error Row × Nat)) :
    List (Except Error Row × Nat) :=
  items.map fun item => (item.1.mapError (Error.seen view), item.2)

/-- Without items nothing is seen. -/
@[simp] theorem seen_nil : seen view [] = [] := rfl

/-- Rows are seen as they are. -/
@[simp] theorem seen_cons_ok (row : Row) (n : Nat) (items : List (Except Error Row × Nat)) :
    seen view ((.ok row, n) :: items) = (.ok row, n) :: seen view items := rfl

/-- An error is seen without its place. -/
@[simp] theorem seen_cons_error (error : Error) (n : Nat)
    (items : List (Except Error Row × Nat)) :
    seen view ((.error error, n) :: items) = (.error (error.seen view), n) :: seen view items := rfl

/-- The rows are the same without places. -/
@[simp] theorem rowsOf_seen (items : List (Except Error Row × Nat)) :
    rowsOf (seen view items) = rowsOf items := by
  rw [rowsOf, seen, List.filterMap_map, rowsOf]
  refine List.filterMap_congr fun item _ => ?_
  obtain ⟨⟨error⟩ | ⟨row⟩, n⟩ := item <;> rfl

/-- Items without an error have none without places either. -/
theorem isOk_of_mem_seen {items : List (Except Error Row × Nat)}
    (h : ∀ item ∈ items, item.1.isOk = true) :
    ∀ item ∈ seen view items, item.1.isOk = true := by
  intro item hmem
  obtain ⟨⟨result, n⟩, hitem, rfl⟩ := List.mem_map.1 hmem
  have hok := h _ hitem
  cases result with
  | error error => cases hok
  | ok row => rfl

/-- What a conversion comes to, in the same way. -/
def Conversion.seen (view : Framing.Fault → Framing.Fault) : Conversion → Conversion
  | rejected error => rejected (error.seen view)
  | conversion => conversion

/-- The place of an outcome and the text of its fault do not decide what it comes to. -/
theorem convert_seen (hview : ∀ expected found, view (.tooWide expected found) =
    .tooWide expected found) (d : Decoder) (outcome : Outcome) :
    d.convert (outcome.seen view) = (d.convert outcome).seen view := by
  cases outcome with
  | record line cells =>
    simp only [Outcome.seen, convert]
    split
    · simp only [Conversion.seen, Error.seen, hview]
    · split <;> rfl
  | malformed line fault => rfl
  | failed fault => rfl
  | finished => rfl

/-- **What is decoded does not depend on places.** -/
theorem decoded_map_seen (hview : ∀ expected found, view (.tooWide expected found) =
    .tooWide expected found) (d : Decoder) (skipped : Nat) (outcomes : List Outcome) :
    d.decoded skipped (outcomes.map (Outcome.seen view)) =
      (seen view (d.decoded skipped outcomes).1, (d.decoded skipped outcomes).2) := by
  induction outcomes generalizing skipped with
  | nil => rfl
  | cons outcome outcomes ih =>
    rw [List.map_cons]
    have hseen := convert_seen hview d outcome
    cases hc : d.convert outcome with
    | row row =>
      rw [hc] at hseen
      rw [decoded_of_row hc, decoded_of_row hseen, ih]
      rfl
    | rejected error =>
      rw [hc] at hseen
      rw [decoded_of_rejected hc, decoded_of_rejected hseen]
      split
      · exact ih (skipped + 1)
      · rfl
    | failed fault =>
      rw [hc] at hseen
      rw [decoded_of_failed hc, decoded_of_failed hseen]
      rfl
    | finished =>
      rw [hc] at hseen
      rw [decoded_of_finished hc, decoded_of_finished hseen]
      rfl

/-- Two decoders that convert alike decode alike. -/
theorem decoded_congr (hpolicy : d.policy = other.policy)
    (hconvert : ∀ outcome, d.convert outcome = other.convert outcome) (skipped : Nat)
    (outcomes : List Outcome) : d.decoded skipped outcomes = other.decoded skipped outcomes := by
  induction outcomes generalizing skipped with
  | nil => rfl
  | cons outcome outcomes ih => simp only [decoded, hconvert, hpolicy, ih]

/-- **Decoders that convert alike decode alike** what a view takes for the same outcomes. -/
theorem decoded_congr_seen (hview : ∀ expected found, view (.tooWide expected found) =
    .tooWide expected found) (hpolicy : d.policy = other.policy)
    (hconvert : ∀ outcome, d.convert outcome = other.convert outcome)
    {outcomes outcomes' : List Outcome}
    (h : outcomes.map (Outcome.seen view) = outcomes'.map (Outcome.seen view)) (skipped : Nat) :
    rowsOf (d.decoded skipped outcomes).1 = rowsOf (other.decoded skipped outcomes').1 ∧
      seen view (d.decoded skipped outcomes).1 = seen view (other.decoded skipped outcomes').1 ∧
      (d.decoded skipped outcomes).2 = (other.decoded skipped outcomes').2 := by
  have hdecoded := decoded_map_seen hview d skipped outcomes
  rw [h, decoded_congr hpolicy hconvert, decoded_map_seen hview, Prod.mk.injEq] at hdecoded
  obtain ⟨hitems, hskipped⟩ := hdecoded
  refine ⟨?_, hitems.symm, hskipped.symm⟩
  rw [← rowsOf_seen (d.decoded skipped outcomes).1, ← hitems, rowsOf_seen]

/-! ## One part after another -/

/-- A record is read or rejected. -/
theorem convert_cases_of_isRecord {outcome : Outcome} (h : outcome.isRecord = true) :
    (∃ row, d.convert outcome = .row row) ∨ ∃ error, d.convert outcome = .rejected error := by
  cases outcome with
  | record line cells =>
    obtain hrow | ⟨error, herror, -⟩ := d.convert_record_cases line cells
    · exact Or.inl hrow
    · exact Or.inr ⟨error, herror⟩
  | malformed line fault => exact Or.inr ⟨_, rfl⟩
  | failed fault => cases h
  | finished => cases h

/-- Behind records that leave no error the decoding goes on. -/
theorem decoded_append {outcomes : List Outcome}
    (hrecords : ∀ outcome ∈ outcomes, outcome.isRecord = true)
    (hok : ∀ item ∈ (d.decoded skipped outcomes).1, item.1.isOk = true) (others : List Outcome) :
    d.decoded skipped (outcomes ++ others) =
      ((d.decoded skipped outcomes).1 ++
          (d.decoded (d.decoded skipped outcomes).2 others).1,
        (d.decoded (d.decoded skipped outcomes).2 others).2) := by
  induction outcomes generalizing skipped with
  | nil => rfl
  | cons outcome outcomes ih =>
    obtain ⟨hrecord, hrecords⟩ := List.forall_mem_cons.1 hrecords
    rw [List.cons_append]
    obtain ⟨row, hc⟩ | ⟨error, hc⟩ := convert_cases_of_isRecord (d := d) hrecord
    · rw [decoded_of_row hc] at hok ⊢
      rw [decoded_of_row hc, ih hrecords (List.forall_mem_cons.1 hok).2]
      rfl
    · rw [decoded_of_rejected hc] at hok ⊢
      rw [decoded_of_rejected hc]
      split
      · next hlenient =>
        rw [if_pos hlenient] at hok
        exact ih hrecords hok
      · -- the error would be an item
        next hstrict =>
        rw [if_neg hstrict] at hok
        cases (List.forall_mem_cons.1 hok).1

/-- Behind an error there is nothing. -/
theorem decoded_append_of_error {outcomes : List Outcome} {error : Error} {n : Nat}
    (hp : d.policy = .strict) (h : (.error error, n) ∈ (d.decoded skipped outcomes).1)
    (others : List Outcome) :
    d.decoded skipped (outcomes ++ others) = d.decoded skipped outcomes := by
  induction outcomes with
  | nil => cases h
  | cons outcome outcomes ih =>
    rw [List.cons_append]
    cases hc : d.convert outcome with
    | row row =>
      rw [decoded_of_row hc] at h ⊢
      rw [decoded_of_row hc]
      obtain h | h := List.mem_cons.1 h
      · cases h
      · rw [ih h]
    | rejected found => rw [decoded_of_rejected hc, decoded_of_rejected hc, if_neg (by simp [hp]),
        if_neg (by simp [hp])]
    | failed fault => rw [decoded_of_failed hc, decoded_of_failed hc]
    | finished => rw [decoded_of_finished hc, decoded_of_finished hc]

/-- The lenient policy finds no error in records. -/
theorem isOk_of_lenient (hp : d.policy = .lenient) {outcomes : List Outcome}
    (hrecords : ∀ outcome ∈ outcomes, outcome.isRecord = true) :
    ∀ item ∈ (d.decoded skipped outcomes).1, item.1.isOk = true := by
  induction outcomes generalizing skipped with
  | nil => simp
  | cons outcome outcomes ih =>
    obtain ⟨hrecord, hrecords⟩ := List.forall_mem_cons.1 hrecords
    obtain ⟨row, hc⟩ | ⟨error, hc⟩ := convert_cases_of_isRecord (d := d) hrecord
    · rw [decoded_of_row hc]
      exact List.forall_mem_cons.2 ⟨rfl, ih hrecords⟩
    · rw [decoded_of_rejected hc, if_pos hp]
      exact ih hrecords

/-- Records that have been skipped before only add to the number of those skipped. -/
theorem decoded_add (d : Decoder) (skipped : Nat) (outcomes : List Outcome) :
    rowsOf (d.decoded skipped outcomes).1 = rowsOf (d.decoded 0 outcomes).1 ∧
      (d.decoded skipped outcomes).2 = skipped + (d.decoded 0 outcomes).2 := by
  induction outcomes generalizing skipped with
  | nil => exact ⟨rfl, rfl⟩
  | cons outcome outcomes ih =>
    cases hc : d.convert outcome with
    | row row =>
      rw [decoded_of_row hc, decoded_of_row hc, rowsOf_cons_ok, rowsOf_cons_ok, (ih skipped).1]
      exact ⟨rfl, (ih skipped).2⟩
    | rejected error =>
      rw [decoded_of_rejected hc, decoded_of_rejected hc]
      split
      · rw [(ih (skipped + 1)).1, (ih (0 + 1)).1, (ih (skipped + 1)).2, (ih (0 + 1)).2]
        exact ⟨rfl, by omega⟩
      · exact ⟨rfl, rfl⟩
    | failed fault =>
      rw [decoded_of_failed hc, decoded_of_failed hc]
      exact ⟨rfl, rfl⟩
    | finished =>
      rw [decoded_of_finished hc, decoded_of_finished hc]
      exact ⟨rfl, rfl⟩

end Decoder

end TypedCsv
