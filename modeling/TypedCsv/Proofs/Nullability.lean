import TypedCsv.Proofs.Projection

/-! # Null members on their own

A nested row and its members say each for itself whether they may be null. A member that is a column
of its own has one flag left, which allows null if either did. So it is read as null in two more
cases than are declared (`CellReader.NullConcealed`), in which the row that is read as a whole is at
fault (`CellReader.member_null_iff`).

* `CellReader.NullDeclared`: a null that the row, or the member, declares.
* `CellReader.NullConcealed`: a null that only the other one of the two declares. -/

namespace TypedCsv.CellReader

variable {d : Dialect} {top inner field : Field} {slot : Projection.Slot} {token : Option String}

/-! ## Two kinds of null -/

/-- A record has no text for a column, or that of null. -/
def IsAbsent (d : Dialect) (token : Option String) : Prop :=
  token = none ∨ token = some d.nullToken

/-- A cell is a nested row whose member in the given place is null. Such a cell is not taken for
null as a whole. -/
def HoldsNullMember (d : Dialect) (top : Field) (slot : Projection.Slot) (token : Option String) :
    Prop :=
  ∃ text, token = some text ∧ ¬ TakenForNull d top text ∧
    (unpackToken d text).length = slot.width ∧ (unpackToken d text)[slot.index]? = some none

/-- A null that is declared where it stands: the row is null and may be, or the member is null and
may be. -/
def NullDeclared (d : Dialect) (top inner : Field) (slot : Projection.Slot)
    (token : Option String) : Prop :=
  IsAbsent d token ∧ top.nullable = true ∨
    HoldsNullMember d top slot token ∧ inner.nullable = true

/-- A null that is declared elsewhere only: the row is null, where only the member may be, or the
member is null, where only the row may be. -/
def NullConcealed (d : Dialect) (top inner : Field) (slot : Projection.Slot)
    (token : Option String) : Prop :=
  IsAbsent d token ∧ ¬ HoldsNullMember d top slot token ∧
      top.nullable = false ∧ inner.nullable = true ∨
    HoldsNullMember d top slot token ∧ top.nullable = true ∧ inner.nullable = false

/-- A text is absent if it is that of null. -/
theorem isAbsent_some {text : String} : IsAbsent d (some text) ↔ d.isNullToken text = true := by
  simp [IsAbsent, Dialect.isNullToken]

/-- No text but that of null stands where a column is absent. -/
theorem isAbsent_iff :
    IsAbsent d token ↔ ∀ text, token = some text → d.isNullToken text = true := by
  cases token <;> simp [IsAbsent, Dialect.isNullToken]

/-- A row that may be null has no null member where its text is that of null. -/
theorem not_isAbsent_of_holdsNullMember (h : HoldsNullMember d top slot token)
    (hnull : top.nullable = true) : ¬ IsAbsent d token := by
  obtain ⟨text, rfl, htaken, -⟩ := h
  intro habsent
  exact htaken ⟨eq_of_beq (isAbsent_some.1 habsent), Or.inl hnull⟩

/-- A null is not both declared where it stands and concealed. -/
theorem NullDeclared.not_nullConcealed (h : NullDeclared d top inner slot token) :
    ¬ NullConcealed d top inner slot token := by
  rintro (⟨-, hholds, htop, -⟩ | ⟨hholds, htop, hinner⟩)
  · obtain ⟨-, hnull⟩ | ⟨hother, -⟩ := h
    · rw [htop] at hnull
      cases hnull
    · exact hholds hother
  · obtain ⟨habsent, -⟩ | ⟨-, hnull⟩ := h
    · exact not_isAbsent_of_holdsNullMember hholds htop habsent
    · rw [hinner] at hnull
      cases hnull

/-- A null is concealed only where one of the two flags is set and the other is not. -/
theorem NullConcealed.nullable_ne (h : NullConcealed d top inner slot token) :
    top.nullable ≠ inner.nullable := by
  obtain ⟨-, -, htop, hinner⟩ | ⟨-, htop, hinner⟩ := h <;> rw [htop, hinner] <;> decide

/-- Both together are the nulls that either flag allows. -/
theorem nullDeclared_or_nullConcealed_iff :
    NullDeclared d top inner slot token ∨ NullConcealed d top inner slot token ↔
      (top.nullable || inner.nullable) = true ∧
        (IsAbsent d token ∨ HoldsNullMember d top slot token) := by
  unfold NullDeclared NullConcealed
  by_cases hholds : HoldsNullMember d top slot token <;>
    cases top.nullable <;> cases inner.nullable <;> simp [hholds]

/-! ## The member on its own -/

/-- A member is read as null if it is null and may be. -/
theorem readMember_eq_none_iff {name : String} {member : Option String} :
    readMember d name field member = .ok none ↔ member = none ∧ field.nullable = true := by
  cases member with
  | none =>
    rw [readMember]
    split <;> simp_all
  | some text =>
    -- a text is read as a value, or not at all
    simp [readMember, Except.map_eq_ok_iff]

/-- A row with too few or too many members does not give any of them. -/
theorem readSlot_of_length_ne {text : String} (h : ¬ d.isNullToken text = true)
    (hlength : (unpackToken d text).length ≠ slot.width) :
    ∃ fault, readSlot d field slot (some text) = .error fault := by
  rw [readSlot, if_neg h, unpackRow, if_neg hlength]
  exact ⟨_, rfl⟩

/-- A member on its own is read as null from a null row and from a null member, if it may be null
at all. -/
theorem readSlot_eq_none_iff (top : Field) (hindex : slot.index < slot.width) :
    readSlot d field slot token = .ok none ↔
      field.nullable = true ∧ (IsAbsent d token ∨ HoldsNullMember d top slot token) := by
  by_cases habsent : IsAbsent d token
  · rw [readSlot_of_null slot (isAbsent_iff.1 habsent), readMember_eq_none_iff]
    simp [habsent]
  · cases token with
    | none => exact absurd (Or.inl rfl) habsent
    | some text =>
      -- the text is not that of null, and so it is not taken for null either
      have htoken : ¬ d.isNullToken text = true := fun h => habsent (isAbsent_some.2 h)
      have htaken : ¬ TakenForNull d top text := fun h => htoken (beq_iff_eq.2 h.1)
      have hholds : HoldsNullMember d top slot (some text) ↔
          (unpackToken d text).length = slot.width ∧
            (unpackToken d text)[slot.index]? = some none := by
        simp [HoldsNullMember, htaken]
      rw [hholds]
      by_cases hlength : (unpackToken d text).length = slot.width
      · have hmember : (unpackToken d text)[slot.index]?.join = none ↔
            (unpackToken d text)[slot.index]? = some none := by
          rw [List.getElem?_eq_getElem (by omega)]
          simp
        rw [readSlot_of_length htoken hlength, readMember_eq_none_iff, hmember]
        simp [habsent, hlength, and_comm]
      · obtain ⟨fault, hfault⟩ : ∃ fault, readSlot d field slot (some text) = .error fault :=
          readSlot_of_length_ne htoken hlength
        simp [hfault, habsent, hlength]

/-! ## The row as a whole -/

/-- Where the text of null is a row, it is that of one null member. -/
theorem holdsNullMember_of_empty (htop : top.nullable = false) (hempty : d.nullToken = "")
    (hlength : (unpackToken d "").length = slot.width) (hindex : slot.index < slot.width) :
    HoldsNullMember d top slot (some "") := by
  have htaken : ¬ TakenForNull d top "" := by
    rintro ⟨-, hnull | hne⟩
    · rw [htop] at hnull
      cases hnull
    · exact hne hempty
  have hzero : slot.index = 0 := by
    rw [unpackToken_empty hempty, List.length_singleton] at hlength
    omega
  refine ⟨"", rfl, htaken, hlength, ?_⟩
  rw [unpackToken_empty hempty, hzero]
  rfl

/-- **The row that is read as a whole is at fault where a null is concealed.** -/
theorem exists_error_of_nullConcealed {fields : List Field} (hrow : top.type = .row fields)
    (hinner : fields[slot.index]? = some inner) (hwidth : slot.width = fields.length)
    (h : NullConcealed d top inner slot token) :
    ∃ fault, readToken d top token = .error fault := by
  cases hread : readToken d top token with
  | error fault => exact ⟨fault, rfl⟩
  | ok cell =>
    exfalso
    cases cell with
    | none =>
      -- a row is read as null where it is absent and may be null
      obtain ⟨htop, htext⟩ := nullable_of_readToken_none hread
      obtain ⟨-, -, hnull, -⟩ | ⟨hholds, -, -⟩ := h
      · rw [htop] at hnull
        cases hnull
      · exact not_isAbsent_of_holdsNullMember hholds htop (isAbsent_iff.2 htext)
    | some value =>
      obtain ⟨text, rfl, hempty, hvalue⟩ := exists_readValue_of_readToken hread
      rw [hrow] at hvalue
      obtain ⟨items, member, -, -, hlength, hmember⟩ :=
        exists_readMember_of_readValue hvalue hinner
      obtain ⟨habsent, hholds, htop, -⟩ | ⟨⟨other, hother, -, -, hnull⟩, -, hnullable⟩ := h
      · -- the text of null has been read as a row
        have htoken := isAbsent_some.1 habsent
        obtain rfl : text = "" := (eq_of_beq htoken).trans (hempty htoken)
        obtain ⟨hindex, -⟩ := List.getElem?_eq_some_iff.1 hinner
        exact hholds (holdsNullMember_of_empty htop (hempty htoken) (hlength.trans hwidth.symm)
          (hwidth ▸ hindex))
      · -- a null member has been read
        cases hother
        rw [hnull, Option.join_some, readMember, if_neg (by simp [hnullable])] at hmember
        cases hmember

/-! ## Columns -/

variable {rowType : RowType} {position index : Nat} {column : Projection.Column}

/-- The first number of a point, which may not be null. -/
def firstField : Field :=
  ⟨"x", .integer, false⟩

/-- A point, which may be null. -/
def pointField : Field :=
  ⟨"point", .row [firstField, ⟨"y", .integer, true⟩], true⟩

/-- The first numbers of points. -/
def firstNumber : Projection.Column :=
  ⟨0, some ⟨0, 2⟩, ⟨"point_x", .integer, true⟩⟩

/-- Reads the first numbers of points. -/
def firstNumbers : CellReader :=
  ⟨⟨Dialect.comma, some Dialect.doubleQuote, none, none, ";", none⟩, [firstNumber], .strict⟩

/-- A point without a first number has a null member, which only the point declares. -/
theorem nullConcealed_point :
    NullConcealed firstNumbers.dialect pointField firstField ⟨0, 2⟩ (some ";2") := by
  have hmembers : unpackToken firstNumbers.dialect ";2" = [none, some "2"] := by cbv
  have htaken : ¬ TakenForNull firstNumbers.dialect pointField ";2" := by
    intro htaken
    exact absurd htaken.1 (by decide)
  refine Or.inr ⟨⟨";2", rfl, htaken, ?_, ?_⟩, rfl, rfl⟩ <;> rw [hmembers] <;> rfl

/-- **A member that is a column of its own is read as null in the places where null is declared, and
in those where it is concealed.** The latter are no nulls of the row that is read as a whole, which
is at fault there; they need a row and a member of which exactly one may be null. -/
theorem member_null_iff (hpath : Projection.resolvePath rowType [position, index] = .ok column) :
    ∃ top fields inner, rowType[position]? = some top ∧ top.type = .row fields ∧
      fields[index]? = some inner ∧
      ∀ (r : CellReader) (record : List String), r.policy = .strict →
        (r.readCell column record = .ok none ↔
          NullDeclared r.dialect top inner ⟨index, fields.length⟩ record[position]? ∨
            NullConcealed r.dialect top inner ⟨index, fields.length⟩ record[position]?) ∧
        (NullConcealed r.dialect top inner ⟨index, fields.length⟩ record[position]? →
          ¬ NullDeclared r.dialect top inner ⟨index, fields.length⟩ record[position]? ∧
          top.nullable ≠ inner.nullable ∧
          ∃ fault, readToken r.dialect top record[position]? = .error fault) := by
  obtain ⟨position', top, htop, ⟨hother, -⟩ | ⟨index', fields, inner, hsame, hrow, hinner, rfl⟩⟩ :=
    Projection.exists_of_resolvePath hpath
  · simp at hother
  obtain ⟨rfl, rfl⟩ : position = position' ∧ index = index' := by simpa using hsame
  refine ⟨top, fields, inner, htop, hrow, hinner, fun r record hstrict => ⟨?_, fun h => ?_⟩⟩
  · obtain ⟨hindex, -⟩ := List.getElem?_eq_some_iff.1 hinner
    rw [readCell_strict hstrict]
    exact (readSlot_eq_none_iff top hindex).trans nullDeclared_or_nullConcealed_iff.symm
  · exact ⟨fun hdeclared => hdeclared.not_nullConcealed h, h.nullable_ne,
      exists_error_of_nullConcealed hrow hinner rfl h⟩

/-- A missing point has no first number, as it may. A point without a first number has none on its
own, but is at fault as a whole. -/
theorem member_null_iff_points :
    firstNumbers.readCell firstNumber [] = .ok none ∧
      firstNumbers.readCell firstNumber [";2"] = .ok none ∧
      ∃ fault, readToken firstNumbers.dialect pointField (some ";2") = .error fault := by
  have hpath : Projection.resolvePath [pointField] [0, 0] = .ok firstNumber := by rfl
  obtain ⟨top, fields, inner, htop, hrow, hinner, hcells⟩ := member_null_iff hpath
  cases htop
  cases hrow
  cases hinner
  obtain ⟨hmissing, -⟩ := hcells firstNumbers [] rfl
  obtain ⟨hmember, hwhole⟩ := hcells firstNumbers [";2"] rfl
  exact ⟨hmissing.2 (Or.inl (Or.inl ⟨Or.inl rfl, rfl⟩)), hmember.2 (Or.inr nullConcealed_point),
    (hwhole nullConcealed_point).2.2⟩

/-- **A null that is not declared is read**: the first number of a point that has none. -/
theorem member_null_undeclared :
    ¬ ∀ record : List String, firstNumbers.readCell firstNumber record = .ok none →
      NullDeclared firstNumbers.dialect pointField firstField ⟨0, 2⟩ record[0]? := by
  intro h
  have hnull : firstNumbers.readCell firstNumber [";2"] = .ok none := by cbv
  exact (h [";2"] hnull).not_nullConcealed nullConcealed_point

end TypedCsv.CellReader
