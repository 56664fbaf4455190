import TypedCsv.Proofs.Appending
import TypedCsv.Proofs.RoundTrip.Encoded

/-! # Cells that have been read are normal

A cell may be read from many texts, but the text it is written as is read as the cell again: where
null has no text it collapses only if it has an empty string among its members
(`CellReader.isReadBack_iff_of_readToken`). Whatever is read of such a text is written as that text
(`CellReader.text_of_readToken`), and it holds no character beyond ASCII that the text before did
not hold (`CellReader.mem_of_mem_text`).

* `CellReader.ReadAs`: how a text is read as a value of a type. -/

namespace TypedCsv

/-! ## Cells that are not read back alike -/

/-- An array or a nested row has an empty string among its members. -/
def Cell.HoldsEmpty : Cell → Prop
  | some (.array items) => some (.string "") ∈ items
  | some (.row items) => some (.string "") ∈ items
  | _ => False

/-- A cell is a zero with a sign, or has one among its members. -/
def Cell.HoldsNegativeZero : Cell → Prop
  | none => False
  | some (.array items) => ∃ value, some value ∈ items ∧ value.IsNegativeZero
  | some (.row items) => ∃ value, some value ∈ items ∧ value.IsNegativeZero
  | some value => value.IsNegativeZero

namespace CellReader

open CellWriter (text)
open CellWriter.render (packItems)

variable {d : Dialect} {field : Field} {token : String} {cell : Cell} {value : Value}

/-! ## What is read of a text -/

/-- A member of a nested row is read like an element. -/
theorem readElement_of_readMember {name : String} {text : Option String}
    (h : readMember d name field text = .ok cell) :
    readElement name field.type text = .ok cell := by
  cases text with
  | none =>
    rw [readMember] at h
    split at h
    · exact h
    · cases h
  | some text => exact h

/-- The members of a composite are read from those of its text as scalars of the given types. -/
structure ReadFrom (d : Dialect) (token : String) (types : List DataType) (items : List Cell) :
    Prop where
  types_exact : ∀ type ∈ types, type.IsExact
  length_eq : (unpackToken d token).length = types.length
  members : List.Forall₂ (fun entry item => ∃ name, readElement name entry.2 entry.1 = .ok item)
    ((unpackToken d token).zip types) items

/-- How a text is read as a value of a type. -/
inductive ReadAs (d : Dialect) (token : String) : DataType → Value → Prop
  | scalar {type : DataType} {value : Value} (name : String) (hexact : type.IsExact)
      (h : readScalar name type token = .ok value) : ReadAs d token type value
  | emptyArray (element : DataType) (hempty : token = "") :
      ReadAs d token (.array element) (.array [])
  | array {element : DataType} {items : List Cell} (hne : token ≠ "")
      (h : ReadFrom d token (List.replicate items.length element) items) :
      ReadAs d token (.array element) (.array items)
  | row {fields : List Field} {items : List Cell}
      (h : ReadFrom d token (fields.map Field.type) items) :
      ReadAs d token (.row fields) (.row items)

/-- What is read as an array is read in one of these ways. -/
theorem readAs_of_readElements {name : String} {element : DataType} (hexact : element.IsExact)
    (h : readValue d name (.array element) token = .ok value) :
    ReadAs d token (.array element) value := by
  rw [readValue] at h
  split at h
  · next hempty =>
    cases h
    exact .emptyArray element (by simpa using hempty)
  · next hempty =>
    obtain ⟨items, hitems, heq⟩ := Except.bind_eq_ok_iff.1 h
    cases heq
    rw [Except.mapM_eq_ok_iff] at hitems
    refine .array (by simpa using hempty) ⟨?_, ?_, ?_⟩
    · exact fun type hmem => List.eq_of_mem_replicate hmem ▸ hexact
    · rw [List.length_replicate, hitems.length_eq]
    · clear h
      generalize unpackToken d token = texts at hitems
      induction hitems with
      | nil => exact .nil
      | cons hitem _ ih => exact .cons ⟨name, hitem⟩ ih

/-- What is read as a nested row is read from its members. -/
theorem readAs_of_readMembers {name : String} {fields : List Field}
    (hexact : ∀ field ∈ fields, field.type.IsExact)
    (h : readValue d name (.row fields) token = .ok value) :
    ReadAs d token (.row fields) value := by
  obtain ⟨members, hmembers, hread⟩ := Except.bind_eq_ok_iff.1 h
  obtain ⟨items, hitems, heq⟩ := Except.bind_eq_ok_iff.1 hread
  cases heq
  obtain ⟨rfl, hlength⟩ := of_unpackRow hmembers
  refine .row ⟨by simpa using hexact, by rw [List.length_map, hlength], ?_⟩
  rw [Except.mapM_eq_ok_iff] at hitems
  rw [List.zip_map_right, List.forall₂_map_left_iff]
  exact hitems.imp fun _ _ hitem => ⟨_, readElement_of_readMember hitem⟩

/-- What is read as a type is read in one of these ways. -/
theorem readAs_of_readValue {name : String} {type : DataType} (htype : type.IsRecoverable)
    (h : readValue d name type token = .ok value) : ReadAs d token type value := by
  cases type with
  | array element => exact readAs_of_readElements htype h
  | row fields => exact readAs_of_readMembers htype.2 h
  | _ => first | exact htype.elim | exact .scalar name htype h

/-- Every text has a member. -/
theorem unpackToken_ne_nil (d : Dialect) (token : String) : unpackToken d token ≠ [] := by
  rw [unpackToken, Packing.unpack_eq]
  exact List.cons_ne_nil _ _

/-- A value is read only in a column whose values are read back: no column of empty rows has one, as
a text has a member. -/
theorem isRecoverable_of_readToken (hflat : Dialect.isFlat field.type = true)
    (hfloat : ¬ field.type.HoldsFloat) {text : Option String}
    (h : readToken d field text = .ok (some value)) : field.type.IsRecoverable := by
  refine DataType.isRecoverable_of_isFlat hflat hfloat fun htype => ?_
  obtain ⟨token, -, -, hread⟩ := of_readToken_eq_some h
  rw [htype] at hread
  obtain ⟨members, hmembers, -⟩ := Except.bind_eq_ok_iff.1 hread
  obtain ⟨rfl, hlength⟩ := of_unpackRow hmembers
  exact unpackToken_ne_nil d token (List.length_eq_zero_iff.1 hlength)

/-- Scalars have no members. -/
theorem holds_iff_of_isExact {type : DataType} (htype : type.IsExact)
    (h : value.matches type = true) :
    ¬ Cell.HoldsEmpty (some value) ∧
      (Cell.HoldsNegativeZero (some value) ↔ value.IsNegativeZero) ∧
      (Cell.HoldsStrayLeap (some value) ↔ value.HasStrayLeap) := by
  cases value with
  | array items | row items => cases type <;> first | exact htype.elim | cases h
  | _ => exact ⟨id, Iff.rfl, Iff.rfl⟩

/-- An element has been read from the text of a scalar, or is null. -/
theorem of_readElement_eq_some {name : String} {type : DataType} {text : Option String}
    (h : readElement name type text = .ok (some value)) :
    ∃ member, text = some member ∧ readScalar name type member = .ok value := by
  cases text with
  | none => cases h
  | some member =>
    obtain ⟨found, hfound, heq⟩ := Except.map_eq_ok_iff.1 h
    cases heq
    exact ⟨member, rfl, hfound⟩

/-- A member has been read from a text among those of its cell. -/
theorem ReadFrom.exists_of_mem {types : List DataType} {items : List Cell}
    (h : ReadFrom d token types items) (hmem : some value ∈ items) :
    ∃ name type member, type.IsExact ∧ some member ∈ unpackToken d token ∧
      readScalar name type member = .ok value := by
  obtain ⟨⟨text, type⟩, hentry, name, hread⟩ := Except.exists_of_mem_forall₂ h.members hmem
  obtain ⟨htext, htype⟩ := List.of_mem_zip hentry
  obtain ⟨member, rfl, hscalar⟩ := of_readElement_eq_some hread
  exact ⟨name, type, member, h.types_exact type htype, htext, hscalar⟩

/-- What is read of the text of a scalar has no stray leap second. -/
theorem not_hasStrayLeap_of_readScalar {name : String} {type : DataType}
    (h : readScalar name type token = .ok value) : ¬ value.HasStrayLeap :=
  Value.not_hasStrayLeap_of_read (Except.mapError_eq_ok_iff.1 h)

/-- No member that has been read has a stray leap second. -/
theorem ReadFrom.not_hasStrayLeap {types : List DataType} {items : List Cell}
    (h : ReadFrom d token types items) : ¬ ∃ value, some value ∈ items ∧ value.HasStrayLeap := by
  rintro ⟨value, hmem, hleap⟩
  obtain ⟨name, type, member, -, -, hread⟩ := h.exists_of_mem hmem
  exact not_hasStrayLeap_of_readScalar hread hleap

/-- **No cell that has been read holds a stray leap second.** -/
theorem not_holdsStrayLeap_of_readToken (htype : cell.isSome = true → field.type.IsRecoverable)
    {text : Option String} (h : readToken d field text = .ok cell) : ¬ cell.HoldsStrayLeap := by
  cases cell with
  | none => exact id
  | some value =>
    obtain ⟨token, -, -, hvalue⟩ := of_readToken_eq_some h
    have hread := readAs_of_readValue (htype rfl) hvalue
    clear h hvalue htype
    generalize field.type = type at hread
    cases hread with
    | scalar name hexact hscalar =>
      rw [(holds_iff_of_isExact hexact (matches_of_readScalar hscalar)).2.2]
      exact not_hasStrayLeap_of_readScalar hscalar
    | emptyArray element => simp [Cell.HoldsStrayLeap]
    | array _ hitems | row hitems => exact hitems.not_hasStrayLeap

/-! ## What collapses -/

/-- A text that is not that of null has a member, and not a single null. -/
theorem ReadFrom.ne {types : List DataType} {items : List Cell}
    (h : ReadFrom d token types items) (hne : token ≠ d.nullToken) :
    items ≠ [] ∧ items ≠ [none] := by
  obtain ⟨-, hlength, hmembers⟩ := h
  have hnil := unpackToken_ne_nil d token
  constructor
  · rintro rfl
    have hzip := congrArg List.length (List.forall₂_nil_right_iff.1 hmembers)
    rw [List.length_zip, ← hlength, Nat.min_self] at hzip
    exact hnil (List.length_eq_zero_iff.1 hzip)
  · rintro rfl
    have hzip := hmembers.length_eq
    rw [List.length_zip, ← hlength, Nat.min_self] at hzip
    obtain ⟨text, hunpack⟩ := List.length_eq_one_iff.1 hzip
    obtain ⟨type, rfl⟩ := List.length_eq_one_iff.1 (hlength.symm.trans hzip)
    rw [hunpack] at hmembers
    obtain ⟨⟨name, htext⟩, -⟩ := List.forall₂_cons.1 hmembers
    obtain rfl : text = none := by
      cases text with
      | none => rfl
      | some text =>
        obtain ⟨value, -, heq⟩ := Except.map_eq_ok_iff.1 htext
        cases heq
    -- a single null is found in the text of null alone
    rw [unpackToken, List.map_eq_singleton_iff] at hunpack
    obtain ⟨member, hmember, hnone⟩ := hunpack
    rw [Option.map_eq_none_iff.1 hnone] at hmember
    exact hne (String.toList_inj.1 (Packing.eq_nullToken_of_unpack hmember))

/-- A scalar without a text is read from no text. -/
theorem eq_empty_of_readScalar {name : String} {type : DataType} (htype : type.IsExact)
    (h : readScalar name type token = .ok value) (hempty : value.display = "") : token = "" := by
  have hvalue := Value.eq_string_of_display_eq htype (matches_of_readScalar h) hempty
  subst hvalue
  have hread := Except.mapError_eq_ok_iff.1 h
  cases type with
  | string =>
    cases hread
    rfl
  | _ => cases Value.matches_of_read hread

/-- A scalar collapses if its text is taken for null. -/
theorem collapses_iff_of_isExact (d : Dialect) (field : Field) {type : DataType}
    (htype : type.IsExact) (h : value.matches type = true) :
    Collapses d field (some value) ↔ TakenForNull d field value.display := by
  cases value with
  | array items | row items => cases type <;> first | exact htype.elim | cases h
  | _ => exact Iff.rfl

/-- **What has been read collapses only by an empty string among its members**, where null has no
text. -/
theorem collapses_iff_of_readToken (hnull : d.nullToken = "")
    (htype : cell.isSome = true → field.type.IsRecoverable) {text : Option String}
    (h : readToken d field text = .ok cell) : Collapses d field cell ↔ cell.HoldsEmpty := by
  cases cell with
  | none => exact Iff.rfl
  | some value =>
    obtain ⟨token, -, htaken, hvalue⟩ := of_readToken_eq_some h
    -- where null may stand there is a text
    have hempty (htoken : token = "") : ¬ field.nullable = true :=
      fun hnullable => htaken ⟨htoken.trans hnull.symm, Or.inl hnullable⟩
    have hread := readAs_of_readValue (htype rfl) hvalue
    clear h hvalue htype
    generalize field.type = type at hread
    cases hread with
    | scalar name hexact hscalar =>
      have hmatches := matches_of_readScalar hscalar
      refine iff_of_false (fun h => ?_) (holds_iff_of_isExact hexact hmatches).1
      obtain ⟨hdisplay, hnullable⟩ := (collapses_iff_of_isExact d field hexact hmatches).1 h
      have htoken := eq_empty_of_readScalar hexact hscalar (hdisplay.trans hnull)
      exact htaken ⟨htoken.trans hnull.symm, hnullable⟩
    | emptyArray element htoken => simp [Collapses, Cell.HoldsEmpty, hempty htoken]
    | @array element items htoken hitems =>
      obtain ⟨hnil, hlone⟩ := hitems.ne (hnull.symm ▸ htoken)
      simp only [Collapses, Cell.HoldsEmpty, hnil, hlone, hnull, false_and, true_and, false_or]
      exact or_iff_right_of_imp fun hsingle => by simp [hsingle]
    | @row fields items hitems =>
      simp only [Collapses, Cell.HoldsEmpty, hnull, ne_eq, not_true_eq_false, or_false, true_and]
      apply or_iff_right_of_imp
      rintro ⟨hlone, hnullable⟩
      exact absurd hlone (hitems.ne fun htoken => hempty (htoken.trans hnull) hnullable).2

/-- **A cell that has been read is read back exactly if it has no empty string among its members**,
where null has no text. -/
theorem isReadBack_iff_of_readToken (hwf : d.WellFormed) (hnull : d.nullToken = "")
    (htype : cell.isSome = true → field.type.IsRecoverable) {token : Option String}
    (h : readToken d field token = .ok cell) :
    IsReadBack d field (text d cell) cell ↔ ¬ cell.HoldsEmpty := by
  have hadmits := admits_of_readToken h
  cases cell with
  | none => exact iff_of_true (isReadBack_none hadmits) id
  | some value =>
    have ht := Dialect.plainToken_of_nullToken hnull
    rw [isReadBack_writeCell_iff hwf ht (htype rfl)
        (CellWriter.writeCell_eq_ok_iff.2 ⟨hadmits, rfl⟩),
      collapses_iff_of_readToken hnull htype h]
    exact and_iff_left (not_holdsStrayLeap_of_readToken htype h)

/-! ## What is written of it -/

/-- What is read of a member that has been written is written like the member, unless it is a zero
with a sign. A member that is lost is written like a null. -/
theorem packMember_of_readElement {name : String} {type : DataType} (htype : type.IsExact)
    {item found : Cell} (hitem : ∀ value, item = some value →
      value.matches type = true ∧ ¬ value.IsNegativeZero)
    (h : readElement name type (memberText d item) = .ok found) :
    d.packing.packMember (found.map fun value => value.display.toList) =
      d.packing.packMember (item.map fun value => value.display.toList) := by
  cases item with
  | none =>
    cases h
    rfl
  | some value =>
    obtain ⟨hmatches, hsign⟩ := hitem value rfl
    rw [memberText] at h
    split at h
    · next hlost =>
      cases h
      obtain ⟨hnull, hempty⟩ := hlost
      simp [Packing.packMember, Dialect.packing, hnull, hempty]
    · obtain ⟨value', hvalue, rfl⟩ := Except.map_eq_ok_iff.1 h
      have hread := Except.mapError_eq_ok_iff.1 hvalue
      rw [Value.read_display_eq htype hmatches] at hread
      cases hread
      simp only [Option.map_some, Value.display_shown hsign]

/-- Members of the given types, none of them a zero with a sign. -/
def Steady (items : List Cell) (types : List DataType) : Prop :=
  List.Forall₂ (fun item type => ∀ value, item = some value →
    value.matches type = true ∧ ¬ value.IsNegativeZero) items types

/-- The elements of an array are steady if none of them is a zero with a sign. -/
theorem steady_of_elementsMatch {items : List Cell} {type : DataType}
    (h : elementsMatch items type = true)
    (hsign : ¬ ∃ value, some value ∈ items ∧ value.IsNegativeZero) :
    Steady items (List.replicate items.length type) := by
  induction items with
  | nil => exact .nil
  | cons item items ih =>
    have hlater : ¬ ∃ value, some value ∈ items ∧ value.IsNegativeZero := by
      rintro ⟨value, hmem, hzero⟩
      exact hsign ⟨value, List.mem_cons_of_mem _ hmem, hzero⟩
    cases item with
    | none =>
      rw [elementsMatch] at h
      exact .cons (fun value hvalue => by cases hvalue) (ih h hlater)
    | some first =>
      rw [elementsMatch, Bool.and_eq_true] at h
      refine .cons (fun value hvalue => ?_) (ih h.2 hlater)
      cases hvalue
      exact ⟨h.1, fun hzero => hsign ⟨first, List.mem_cons_self, hzero⟩⟩

/-- The members of a nested row are steady if none of them is a zero with a sign. -/
theorem steady_of_admits {items : List Cell} {fields : List Field}
    (h : RowType.Admits fields items)
    (hsign : ¬ ∃ value, some value ∈ items ∧ value.IsNegativeZero) :
    Steady items (fields.map Field.type) := by
  rw [RowType.Admits] at h
  rw [Steady, List.forall₂_map_right_iff]
  induction h with
  | nil => exact .nil
  | cons hadmits _ ih =>
    refine .cons (fun value hvalue => ?_) (ih ?_)
    · subst hvalue
      exact ⟨hadmits, fun hzero => hsign ⟨value, List.mem_cons_self, hzero⟩⟩
    · rintro ⟨value, hmem, hzero⟩
      exact hsign ⟨value, List.mem_cons_of_mem _ hmem, hzero⟩

/-- The members that are read of a packed cell are packed as the cell. -/
theorem packItems_of_readFrom (hwf : d.WellFormed) (ht : d.packing.PlainToken)
    {types : List DataType} {items found : List Cell} (hne : items ≠ [])
    (hitems : Steady items types) (h : ReadFrom d (packItems d items) types found) :
    packItems d found = packItems d items := by
  have hforms : (found.map (Option.map fun value => value.display.toList)).map
        d.packing.packMember =
      (items.map (Option.map fun value => value.display.toList)).map d.packing.packMember := by
    obtain ⟨htypes, -, hmembers⟩ := h
    rw [unpackToken_packItems hwf ht hne] at hmembers
    rw [Steady] at hitems
    clear hne
    induction hitems generalizing found with
    | nil =>
      cases hmembers
      rfl
    | cons hitem _ ih =>
      obtain ⟨htype, htypes⟩ := List.forall_mem_cons.1 htypes
      cases hmembers with
      | cons hfound hmembers =>
        obtain ⟨name, hfound⟩ := hfound
        simp only [List.map_cons, ih htypes hmembers, packMember_of_readElement htype hitem hfound]
  rw [packItems, packItems, Packing.pack, Packing.pack, hforms]

/-- What is read of the text of a value is written as that text, unless the value holds a zero with
a sign. -/
theorem render_of_readAs (hwf : d.WellFormed) (ht : d.packing.PlainToken) {type : DataType}
    (htype : type.IsRecoverable) (hmatches : value.matches type = true)
    (hsign : ¬ Cell.HoldsNegativeZero (some value)) {found : Value}
    (h : ReadAs d (CellWriter.render d value) type found) :
    CellWriter.render d found = CellWriter.render d value := by
  cases h with
  | scalar name hexact hscalar =>
    rw [(holds_iff_of_isExact hexact hmatches).2.1] at hsign
    rw [CellWriter.render_eq_display hexact hmatches] at hscalar ⊢
    have hread := Except.mapError_eq_ok_iff.1 hscalar
    rw [Value.read_display_eq hexact hmatches] at hread
    rw [CellWriter.render_eq_display hexact (matches_of_readScalar hscalar), ← Except.ok.inj hread,
      Value.display_shown hsign]
  | emptyArray element hempty => exact hempty.symm
  | @array element items hne hfound =>
    cases value with
    | array written =>
      have hnil : written ≠ [] := by
        rintro rfl
        exact hne rfl
      have hlength : written.length = items.length := by
        have hlength := hfound.length_eq
        rw [CellWriter.render, unpackToken_packItems hwf ht hnil] at hlength
        simpa using hlength
      rw [← hlength] at hfound
      exact packItems_of_readFrom hwf ht hnil (steady_of_elementsMatch hmatches hsign) hfound
    | _ => cases hmatches
  | @row fields items hfound =>
    cases value with
    | row written =>
      have hadmits := membersMatch_iff.1 hmatches
      have hnil : written ≠ [] := by
        rintro rfl
        exact htype.1 (List.length_eq_zero_iff.1 hadmits.length_eq.symm)
      exact packItems_of_readFrom hwf ht hnil (steady_of_admits hadmits hsign) hfound
    | _ => cases hmatches

/-- **Whatever is read of the text of a cell is written as that text**, unless the cell holds a zero
with a sign. -/
theorem text_of_readToken (hwf : d.WellFormed) (ht : d.packing.PlainToken)
    (htype : cell.isSome = true → field.type.IsRecoverable) (hadmits : field.admits cell = true)
    (hsign : ¬ cell.HoldsNegativeZero) {found : Cell}
    (h : readToken d field (some (text d cell)) = .ok found) : text d found = text d cell := by
  cases found with
  | none =>
    -- null is read from the text of null alone
    by_contra hne
    rw [readToken_of_not_takenForNull fun htaken => hne htaken.1.symm] at h
    obtain ⟨value, -, heq⟩ := Except.map_eq_ok_iff.1 h
    cases heq
  | some value =>
    obtain ⟨token, htoken, htaken, hvalue⟩ := of_readToken_eq_some h
    cases htoken
    cases cell with
    | none => exact absurd ⟨rfl, Or.inl hadmits⟩ htaken
    | some written =>
      have hfound := readAs_of_readValue (htype rfl) hvalue
      exact render_of_readAs hwf ht (htype rfl) hadmits hsign hfound

/-! ## Characters beyond ASCII -/

/-- The characters of a packing are those of ASCII. -/
def AsciiPacking (d : Dialect) : Prop :=
  ∀ c, c ∈ d.packing.delimiter ∨ c = d.packing.escape ∨ c ∈ d.packing.nullToken → c.toNat < 128

/-- A character beyond ASCII comes into the text of a scalar only from the text it was read
from. -/
theorem mem_of_mem_display {name : String} {type : DataType} (htype : type.IsExact)
    (h : readScalar name type token = .ok value) {c : Char} (hc : c ∈ value.display.toList)
    (hbeyond : 128 ≤ c.toNat) : c ∈ token.toList := by
  by_cases hstring : type = .string
  · subst hstring
    cases Except.mapError_eq_ok_iff.1 h
    exact hc
  · have := Value.toNat_lt_of_mem_display htype hstring (matches_of_readScalar h) hc
    omega

/-- A packed cell has a character beyond ASCII only from the cell it was read from. -/
theorem ReadFrom.mem_of_mem_packItems {types : List DataType} {items : List Cell}
    (h : ReadFrom d token types items) (hpacking : AsciiPacking d) {c : Char}
    (hc : c ∈ (packItems d items).toList) (hbeyond : 128 ≤ c.toNat) : c ∈ token.toList := by
  -- the character stands in the text of a member
  obtain ⟨value, hvalue, hc⟩ : ∃ value, some value ∈ items ∧ c ∈ value.display.toList := by
    have hascii := hpacking c
    rw [packItems, String.toList_ofList] at hc
    obtain hc | hc | hc | ⟨text, htext, hc⟩ := Packing.mem_of_mem_pack hc
    · exact absurd (hascii (Or.inl hc)) (by omega)
    · exact absurd (hascii (Or.inr (Or.inl hc))) (by omega)
    · exact absurd (hascii (Or.inr (Or.inr hc))) (by omega)
    · obtain ⟨item, hitem, hmap⟩ := List.mem_map.1 htext
      obtain ⟨value, rfl, rfl⟩ := Option.map_eq_some_iff.1 hmap
      exact ⟨value, hitem, hc⟩
  -- and the member has been read from a part of the token
  obtain ⟨name, type, text, htype, htext, hread⟩ := h.exists_of_mem hvalue
  have hc := mem_of_mem_display htype hread hc hbeyond
  rw [unpackToken] at htext
  obtain ⟨member, hmember, hmap⟩ := List.mem_map.1 htext
  obtain ⟨text, rfl, rfl⟩ := Option.map_eq_some_iff.1 hmap
  rw [String.toList_ofList] at hc
  exact (Packing.sublist_of_mem_unpack hmember).subset hc

/-- **A character beyond ASCII comes into the text of a cell only from the text it was read
from.** -/
theorem mem_of_mem_text (hpacking : AsciiPacking d)
    (htype : cell.isSome = true → field.type.IsRecoverable) {token : Option String}
    (h : readToken d field token = .ok cell) {c : Char}
    (hc : c ∈ (text d cell).toList) (hbeyond : 128 ≤ c.toNat) :
    ∃ before, token = some before ∧ c ∈ before.toList := by
  cases cell with
  | none =>
    have := hpacking c (Or.inr (Or.inr hc))
    omega
  | some value =>
    obtain ⟨token, rfl, -, hvalue⟩ := of_readToken_eq_some h
    have hvalue := readAs_of_readValue (htype rfl) hvalue
    refine ⟨token, rfl, ?_⟩
    clear h htype
    generalize field.type = type at hvalue
    cases hvalue with
    | scalar name hexact hscalar =>
      refine mem_of_mem_display hexact hscalar ?_ hbeyond
      rwa [text, CellWriter.render_eq_display hexact (matches_of_readScalar hscalar)]
        at hc
    | emptyArray element => cases hc
    | array _ hitems => exact hitems.mem_of_mem_packItems hpacking hc hbeyond
    | row hitems => exact hitems.mem_of_mem_packItems hpacking hc hbeyond

end CellReader

end TypedCsv
