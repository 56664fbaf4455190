import TypedCsv.CellReader
import TypedCsv.CellWriter
import TypedCsv.Proofs.Dialect

/-! # Rows fit their columns

A row fits a row type if each of its cells fits its field (`RowType.Admits`). Rows that are read
fit the columns that are read (`CellReader.admits_of_read`), and the rows that are written are
those that fit (`CellWriter.write_isOk_iff`). -/

namespace TypedCsv

/-- The cells of a row fit the columns one by one. -/
def RowType.Admits (rowType : RowType) (row : Row) : Prop :=
  List.Forall₂ (fun cell field => field.admits cell = true) row rowType

/-- A row that fits is as wide as the table. -/
theorem RowType.Admits.length_eq {rowType : RowType} {row : Row} (h : rowType.Admits row) :
    row.length = rowType.length :=
  List.Forall₂.length_eq h

/-- The members of a nested row fit its fields as cells fit columns. -/
theorem membersMatch_iff {items : List Cell} {fields : List Field} :
    membersMatch items fields = true ↔ RowType.Admits fields items := by
  induction items generalizing fields with
  | nil => cases fields <;> simp [membersMatch, RowType.Admits]
  | cons item items ih =>
    rw [RowType.Admits] at *
    cases fields with
    | nil => cases item <;> simp [membersMatch]
    | cons field fields =>
      rw [List.forall₂_cons, ← RowType.Admits, ← ih]
      cases item <;> simp [membersMatch, Field.admits]

/-! ## Reading -/

/-- A value is taken where there is one. -/
theorem Scalar.orFault_eq_ok_iff {fault : Fault} {found : Option Value} {value : Value} :
    orFault fault found = .ok value ↔ found = some value := by
  cases found <;> simp [orFault]

/-- What is read as a scalar type is of that type. -/
theorem Value.matches_of_read {type : DataType} {text : String} {value : Value}
    (h : Value.read type text = .ok value) : value.matches type = true := by
  cases type with
  | string =>
    cases h
    rfl
  | boolean | date | time | timestamp =>
    obtain ⟨a, -, rfl⟩ := Option.map_eq_some_iff.1 (Scalar.orFault_eq_ok_iff.1 h)
    rfl
  | integer | float | decimal | guid =>
    simp only [Value.read, Except.mapError_eq_ok_iff, Except.map_eq_ok_iff] at h
    obtain ⟨a, -, rfl⟩ := h
    rfl
  | array element => cases h
  | row fields => cases h

namespace CellReader

variable {d : Dialect} {name : String} {field : Field} {cell : Cell}

/-- What is read of the text of a scalar is of its type. -/
theorem matches_of_readScalar {type : DataType} {text : String} {value : Value}
    (h : readScalar name type text = .ok value) : value.matches type = true :=
  Value.matches_of_read (Except.mapError_eq_ok_iff.1 h)

/-- The elements of an array are null or of its type. -/
theorem elementsMatch_of_readElements {type : DataType} {texts : List (Option String)}
    {items : List Cell} (h : texts.mapM (readElement name type) = .ok items) :
    elementsMatch items type = true := by
  rw [Except.mapM_eq_ok_iff] at h
  induction h with
  | nil => rfl
  | @cons text item texts items hitem _ ih =>
    cases text with
    | none =>
      cases hitem
      rw [elementsMatch, ih]
    | some text =>
      obtain ⟨value, hvalue, rfl⟩ := Except.map_eq_ok_iff.1 hitem
      rw [elementsMatch, matches_of_readScalar hvalue, ih]
      rfl

/-- A member that is read fits its field. -/
theorem admits_of_readMember {text : Option String} (h : readMember d name field text = .ok cell) :
    field.admits cell = true := by
  cases text with
  | none =>
    rw [readMember] at h
    split at h
    · next hnull =>
      cases h
      exact hnull
    · cases h
  | some text =>
    obtain ⟨value, hvalue, rfl⟩ := Except.map_eq_ok_iff.1 h
    exact matches_of_readScalar hvalue

/-- The members of a nested row are read one by one. -/
theorem admits_of_readMembers {fields : List Field} {members : List (Option String)}
    {items : List Cell} (hlength : members.length = fields.length)
    (h : (members.zip fields).mapM (fun (member, field) =>
      readMember d (name ++ "." ++ field.name) field member) = .ok items) :
    RowType.Admits fields items := by
  rw [Except.mapM_eq_ok_iff] at h
  rw [RowType.Admits]
  induction members generalizing fields items with
  | nil =>
    obtain rfl : fields = [] := List.length_eq_zero_iff.1 hlength.symm
    cases h
    exact .nil
  | cons member members ih =>
    cases fields with
    | nil => cases hlength
    | cons field fields =>
      rw [List.zip_cons_cons] at h
      cases h with
      | cons hitem hitems =>
        exact .cons (admits_of_readMember hitem) (ih (Nat.succ.inj hlength) hitems)

/-- The members of a nested row are those of its text, of which there are as many as fields. -/
theorem of_unpackRow {token : String} {width : Nat} {members : List (Option String)}
    (h : unpackRow d name token width = .ok members) :
    unpackToken d token = members ∧ members.length = width := by
  simp only [unpackRow] at h
  split at h
  · next hlength =>
    cases h
    exact ⟨rfl, hlength⟩
  · cases h

/-- What is read as a type is of that type, whatever its members are. -/
theorem matches_of_readValue {type : DataType} {token : String} {value : Value}
    (h : readValue d name type token = .ok value) : value.matches type = true := by
  cases type with
  | array element =>
    rw [readValue] at h
    split at h
    · cases h
      rfl
    · obtain ⟨items, hitems, hv⟩ := Except.bind_eq_ok_iff.1 h
      cases hv
      exact elementsMatch_of_readElements hitems
  | row fields =>
    obtain ⟨members, hmembers, h⟩ := Except.bind_eq_ok_iff.1 h
    obtain ⟨items, hitems, hv⟩ := Except.bind_eq_ok_iff.1 h
    cases hv
    rw [Value.matches, membersMatch_iff]
    exact admits_of_readMembers (of_unpackRow hmembers).2 hitems
  | boolean | integer | float | decimal | string | date | time | timestamp | guid =>
    exact matches_of_readScalar h

/-- A column is null only where it may be: where the record is too short, and where the text of
null stands. -/
theorem admits_of_readToken {token : Option String} (h : readToken d field token = .ok cell) :
    field.admits cell = true := by
  cases token with
  | none =>
    -- the record ends before the column
    rw [readToken] at h
    split at h
    · next hnull =>
      cases h
      exact hnull
    · cases h
  | some token =>
    rw [readToken] at h
    split at h
    · next hnull =>
      cases h
      rw [Bool.and_eq_true] at hnull
      exact hnull.2
    · -- a text of null that may not stand here is a fault
      split at h
      · cases h
      · obtain ⟨value, hvalue, rfl⟩ := Except.map_eq_ok_iff.1 h
        exact matches_of_readValue hvalue

/-- The member of a null row is null, so it is read as a null member. -/
theorem admits_of_readSlot {slot : Projection.Slot} {token : Option String}
    (h : readSlot d field slot token = .ok cell) : field.admits cell = true := by
  rw [readSlot.eq_def] at h
  split at h
  · have hnull : readMember d field.name field none = .ok cell := h
    exact admits_of_readMember hnull
  · split at h
    · have hnull : readMember d field.name field none = .ok cell := h
      exact admits_of_readMember hnull
    · obtain ⟨members, -, hmember⟩ := Except.bind_eq_ok_iff.1 h
      exact admits_of_readMember hmember

/-- A column that is read fits its field. -/
theorem admits_of_readColumn {column : Projection.Column} {record : List String}
    (h : readColumn d column record = .ok cell) : column.field.admits cell = true := by
  rw [readColumn] at h
  split at h
  · exact admits_of_readToken h
  · exact admits_of_readSlot h

/-- The lenient policy puts null only where it may stand. -/
theorem admits_of_readCell {r : CellReader} {column : Projection.Column} {record : List String}
    (h : r.readCell column record = .ok cell) : column.field.admits cell = true := by
  rw [readCell] at h
  split at h
  · next hcolumn =>
    cases h
    exact admits_of_readColumn hcolumn
  · -- a fault becomes null only in a column that may be null
    split at h
    · next hnull =>
      cases h
      exact hnull.2
    · cases h

/-- A row that is read fits the columns that are read. -/
theorem admits_of_read {r : CellReader} {record : List String} {row : Row}
    (h : r.read record = .ok row) : r.rowType.Admits row := by
  rw [read, Except.mapM_eq_ok_iff] at h
  rw [RowType.Admits, rowType, List.forall₂_map_right_iff]
  exact List.Forall₂.flip (h.imp fun _ _ => admits_of_readCell)

end CellReader

/-! ## Writing -/

namespace CellWriter

variable {d : Dialect} {rowType : RowType} {row : Row}

/-- A cell can be written exactly if its field admits it. -/
theorem writeCell_isOk_iff {field : Field} {cell : Cell} :
    (∃ text, writeCell d field cell = .ok text) ↔ field.admits cell = true := by
  cases cell with
  | none => cases h : field.nullable <;> simp [writeCell, Field.admits, h]
  | some value => cases h : value.matches field.type <;> simp [writeCell, Field.admits, h]

/-- The rows that have texts are those that fit. -/
theorem write_isOk_iff : (∃ texts, write d rowType row = .ok texts) ↔ rowType.Admits row := by
  rw [write]
  split
  · next hlength =>
    rw [Except.exists_mapM_eq_ok_iff, RowType.Admits, List.forall₂_iff_zip]
    simp only [writeCell_isOk_iff, hlength, Prod.forall, true_and]
  · next hlength =>
    constructor
    · rintro ⟨texts, h⟩
      cases h
    · intro h
      exact absurd h.length_eq hlength

end CellWriter

end TypedCsv
