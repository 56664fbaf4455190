import TypedCsv.CellReader
import TypedCsv.CellWriter
import TypedCsv.Proofs.Packing
import TypedCsv.Proofs.Scalar
import TypedCsv.Proofs.Typing

/-! # Cells are read back

A cell that is written is read back as an equal cell exactly if it does not collapse and holds no
stray leap second (`CellReader.isReadBack_writeCell_iff`). A cell collapses (`CellReader.Collapses`)
if its text is taken for null, or if an array has the text of an empty one; without a text for null,
a member collapses that has no text either. The texts that are packed into a cell are found again in
it (`CellReader.packed_texts_found`), empty ones apart where null has no text. -/

namespace TypedCsv

variable {d : Dialect}

/-! ## Equality of cells -/

/-- Both cells are null, or both hold equal values. -/
def Cell.Same (found cell : Cell) : Prop :=
  itemsEqual [found] [cell] = true

/-- Null is the same as null. -/
@[simp] theorem Cell.same_none : Cell.Same none none := rfl

/-- Two values are the same cell if they are equal. -/
@[simp] theorem Cell.same_some {a b : Value} :
    Cell.Same (some a) (some b) ↔ a.equal b = true := by
  simp [Same, itemsEqual]

/-- Null is no value. -/
@[simp] theorem Cell.not_same_none_some {b : Value} : ¬ Cell.Same none (some b) := by
  simp [Same, itemsEqual]

/-- No value is null. -/
@[simp] theorem Cell.not_same_some_none {a : Value} : ¬ Cell.Same (some a) none := by
  simp [Same, itemsEqual]

/-- Cells are compared one by one. -/
theorem itemsEqual_iff {found cells : List Cell} :
    itemsEqual found cells = true ↔ List.Forall₂ Cell.Same found cells := by
  induction found generalizing cells with
  | nil => cases cells <;> simp [itemsEqual]
  | cons a found ih =>
    cases cells with
    | nil => cases a <;> simp [itemsEqual]
    | cons b cells =>
      rw [List.forall₂_cons, ← ih]
      cases a <;> cases b <;> simp [itemsEqual]

/-! ## Types whose values are read back -/

/-- The members of a type are no composites and no rounded numbers, and a nested row has some. -/
def DataType.IsRecoverable : DataType → Prop
  | .array element => element.IsExact
  | .row fields => fields ≠ [] ∧ ∀ field ∈ fields, field.type.IsExact
  | type => type.IsExact

/-- A cell is a time of day or a timestamp with a stray leap second, or has one among its
members. -/
def Cell.HoldsStrayLeap : Cell → Prop
  | none => False
  | some (.array items) => ∃ value, some value ∈ items ∧ value.HasStrayLeap
  | some (.row items) => ∃ value, some value ∈ items ∧ value.HasStrayLeap
  | some value => value.HasStrayLeap

/-- Only an empty string has no text. -/
theorem Value.eq_string_of_display_eq {value : Value} {type : DataType} (htype : type.IsExact)
    (h : value.matches type = true) (hempty : value.display = "") : value = .string "" := by
  have hread := Value.read_display_eq htype h
  rw [hempty] at hread
  cases type with
  | string =>
    cases value with
    | string s =>
      rw [display] at hempty
      rw [hempty]
    | _ => cases h
  | _ => first | exact htype.elim | cases hread

/-- A value of an exact type is written as its canonical text. -/
theorem CellWriter.render_eq_display {value : Value} {type : DataType} (htype : type.IsExact)
    (h : value.matches type = true) : render d value = value.display := by
  cases value with
  | array items => cases type <;> first | cases h | exact htype.elim
  | row items => cases type <;> first | cases h | exact htype.elim
  | _ => rfl

/-! ## Members -/

/-- The packing of a well-formed dialect is well-formed. -/
theorem Dialect.packing_wellFormed (h : d.WellFormed) : d.packing.WellFormed :=
  ⟨h.elementDelimiter_ne_nil, h.elementEscape_notMem⟩

/-- The text of null has no characters if it is the empty one. -/
theorem Dialect.nullToken_toList_eq_nil_iff : d.packing.nullToken = [] ↔ d.nullToken = "" := by
  rw [packing, String.toList_eq_nil_iff]

/-- A null without a text does not get in the way of packing. -/
theorem Dialect.plainToken_of_nullToken (h : d.nullToken = "") : d.packing.PlainToken := by
  constructor <;> simp [packing, h]

/-- Null has no text if there is no null literal, or an empty one. -/
theorem Dialect.nullToken_eq_empty_iff_of_compile {rowType : RowType} {options : Options}
    (h : compile rowType options = .ok d) :
    d.nullToken = "" ↔ options.nullLiteral = none ∨ options.nullLiteral = some "" := by
  obtain ⟨-, -, -, -, hliteral⟩ := of_compile h
  rw [nullToken, hliteral]
  cases options.nullLiteral <;> simp

/-- The members of a composite are of exact types. -/
def ExactItems (items : List Cell) : Prop :=
  ∀ value, some value ∈ items → ∃ type : DataType, type.IsExact ∧ value.matches type = true

/-- The elements of an array of scalars are of an exact type. -/
theorem exactItems_of_elementsMatch {items : List Cell} {type : DataType} (htype : type.IsExact)
    (h : elementsMatch items type = true) : ExactItems items := by
  induction items with
  | nil =>
    intro value hvalue
    cases hvalue
  | cons item items ih =>
    intro value hvalue
    cases item with
    | none =>
      rw [elementsMatch] at h
      exact ih h value ((List.mem_cons.1 hvalue).resolve_left (by simp))
    | some first =>
      rw [elementsMatch, Bool.and_eq_true] at h
      rcases List.mem_cons.1 hvalue with heq | hvalue
      · cases heq
        exact ⟨type, htype, h.1⟩
      · exact ih h.2 value hvalue

/-- The members of a nested row are of the exact types of its fields. -/
theorem exactItems_of_admits {items : List Cell} {fields : List Field}
    (htypes : ∀ field ∈ fields, field.type.IsExact) (h : RowType.Admits fields items) :
    ExactItems items := by
  rw [RowType.Admits] at h
  induction h with
  | nil =>
    intro value hvalue
    cases hvalue
  | cons hitem _ ih =>
    rw [List.forall_mem_cons] at htypes
    intro value hvalue
    rcases List.mem_cons.1 hvalue with heq | hvalue
    · cases heq
      exact ⟨_, htypes.1, hitem⟩
    · exact ih htypes.2 value hvalue

/-- Only an empty string is a single member without a text. -/
theorem ExactItems.map_eq_iff {items : List Cell} (h : ExactItems items) :
    items.map (Option.map fun item => item.display.toList) = [some []] ↔
      items = [some (.string "")] := by
  constructor
  · intro hmap
    obtain ⟨item, rfl, hitem⟩ := List.map_eq_singleton_iff.1 hmap
    obtain ⟨value, rfl, hvalue⟩ := Option.map_eq_some_iff.1 hitem
    obtain ⟨type, htype, hmatches⟩ := h value List.mem_cons_self
    rw [Value.eq_string_of_display_eq htype hmatches (String.toList_eq_nil_iff.1 hvalue)]
  · rintro rfl
    rfl

namespace CellReader

open CellWriter.render (packItems)

/-- The cell of some members, given by their texts. -/
def packTexts (d : Dialect) (texts : List (Option String)) : String :=
  String.ofList (d.packing.pack (texts.map (Option.map String.toList)))

/-- What is found of the text of a member. -/
def foundText (d : Dialect) (text : Option String) : Option String :=
  if d.nullToken = "" ∧ text = some "" then none else text

/-- A text is found as it was unless it is empty where null has no text. -/
theorem foundText_eq_iff {text : Option String} :
    foundText d text = text ↔ ¬ (d.nullToken = "" ∧ text = some "") := by
  rw [foundText]
  split
  · next hlost => simp [hlost.1, hlost.2]
  · next hkept => simpa using hkept

/-- The texts of members are found unless one of them is empty where null has no text. -/
theorem map_foundText_eq_iff {texts : List (Option String)} :
    texts.map (foundText d) = texts ↔ ¬ (d.nullToken = "" ∧ some "" ∈ texts) := by
  have hmap : texts.map (foundText d) = texts ↔ ∀ text ∈ texts, foundText d text = text := by
    simpa using List.map_inj_left (l := texts) (f := foundText d) (g := id)
  rw [hmap]
  simp only [foundText_eq_iff]
  constructor
  · rintro hkept ⟨hempty, hmem⟩
    exact hkept _ hmem ⟨hempty, rfl⟩
  · rintro hkept text hmem ⟨hempty, rfl⟩
    exact hkept ⟨hempty, hmem⟩

/-- The members of a packed cell are found one by one. -/
theorem unpackToken_packTexts (hwf : d.WellFormed) (ht : d.packing.PlainToken)
    {texts : List (Option String)} (hne : texts ≠ []) :
    unpackToken d (packTexts d texts) = texts.map (foundText d) := by
  rw [unpackToken, packTexts, String.toList_ofList,
    Packing.unpack_pack (Dialect.packing_wellFormed hwf) ht (by simpa using hne), List.map_map,
    List.map_map]
  apply List.map_congr_left
  intro text _
  cases text with
  | none => simp [Packing.restore, foundText]
  | some text =>
    simp only [Function.comp_apply, Option.map_some, Packing.restore, foundText,
      Dialect.nullToken_toList_eq_nil_iff, Option.some.injEq, String.toList_eq_nil_iff]
    split <;> simp

/-- **The texts of members are found again in their cell**, as many as there were. Only where null
has no text, an empty text is found as null. The delimiter may have any length and may overlap
itself. -/
theorem packed_texts_found {rowType : RowType} {options : Options}
    (hd : Dialect.compile rowType options = .ok d)
    (ht : options.nullLiteral = none ∨ options.nullLiteral = some "" ∨ d.packing.PlainToken)
    {texts : List (Option String)} (hne : texts ≠ []) :
    (unpackToken d (packTexts d texts)).length = texts.length ∧
      (∀ (i : Nat) (text : Option String), texts[i]? = some text →
        (unpackToken d (packTexts d texts))[i]? =
          some (if (options.nullLiteral = none ∨ options.nullLiteral = some "") ∧ text = some ""
            then none else text)) ∧
      (unpackToken d (packTexts d texts) = texts ↔
        ¬ ((options.nullLiteral = none ∨ options.nullLiteral = some "") ∧ some "" ∈ texts)) := by
  have hempty := Dialect.nullToken_eq_empty_iff_of_compile hd
  have hplain : d.packing.PlainToken := by
    rcases ht with hnone | hnone | hplain
    · exact Dialect.plainToken_of_nullToken (hempty.2 (Or.inl hnone))
    · exact Dialect.plainToken_of_nullToken (hempty.2 (Or.inr hnone))
    · exact hplain
  simp only [← hempty]
  rw [unpackToken_packTexts (Dialect.WellFormed.of_compile hd) hplain hne]
  refine ⟨List.length_map _, ?_, map_foundText_eq_iff⟩
  intro i text htext
  rw [List.getElem?_map, htext]
  rfl

/-- Options with a delimiter of members that overlaps itself, and a null that starts with the
escape. -/
def colonsOptions : Options :=
  { Options.default with
    arrayElementDelimiter := some "::", escapeCharacter := some "^", nullLiteral := some "^N" }

/-- The dialect of `colonsOptions`. -/
def colonsDialect : Dialect :=
  ⟨Dialect.comma, some Dialect.doubleQuote, some 0x5E, none, "::", some "^N"⟩

/-- Texts that hold the delimiter, or a part of it at their end, or look like null, are found. -/
theorem packed_texts_found_colons :
    let texts := [some ":", none, some "N", some "^N", some "", some "x:::y:"]
    packTexts colonsDialect texts = "^:::^N::N::^^N::::x^:^::y^:" ∧
      unpackToken colonsDialect (packTexts colonsDialect texts) = texts := by
  intro texts
  have hcompile : Dialect.compile [] colonsOptions = .ok colonsDialect := by rfl
  have hplain : colonsDialect.packing.PlainToken := by
    have hpacking : colonsDialect.packing = ⟨[':', ':'], '^', ['^', 'N']⟩ := by rfl
    rw [hpacking]
    constructor <;> simp
  obtain ⟨-, -, hfound⟩ :=
    @packed_texts_found _ _ _ hcompile (Or.inr (Or.inr hplain)) texts (by decide)
  exact ⟨by rfl, hfound.2 (by decide)⟩

/-- A member that is not read back: it has no text where null has none, or it has a stray leap
second. -/
def Lost (d : Dialect) (item : Cell) : Prop :=
  d.nullToken = "" ∧ item = some (.string "") ∨ ∃ value, item = some value ∧ value.HasStrayLeap

/-- A null is never lost. -/
theorem not_lost_none (d : Dialect) : ¬ Lost d none := by
  simp [Lost]

/-- A member that has a text is lost by a stray leap second alone. -/
theorem lost_some_iff {value : Value} (h : ¬ (d.nullToken = "" ∧ value.display = "")) :
    Lost d (some value) ↔ value.HasStrayLeap := by
  rw [Lost, or_iff_right]
  · simp
  · rintro ⟨hnull, heq⟩
    cases heq
    exact h ⟨hnull, rfl⟩

/-- What is found of a member. -/
def memberText (d : Dialect) : Cell → Option String
  | none => none
  | some value => if d.nullToken = "" ∧ value.display = "" then none else some value.display

/-- A composite is packed as the canonical texts of its members. -/
theorem packItems_eq_packTexts (d : Dialect) (items : List Cell) :
    packItems d items = packTexts d (items.map (Option.map Value.display)) := by
  simp only [packItems, packTexts, List.map_map, Function.comp_def, Option.map_map]

/-- The members of a composite are found one by one. -/
theorem unpackToken_packItems (hwf : d.WellFormed) (ht : d.packing.PlainToken) {items : List Cell}
    (hne : items ≠ []) : unpackToken d (packItems d items) = items.map (memberText d) := by
  rw [packItems_eq_packTexts, unpackToken_packTexts hwf ht (by simpa using hne), List.map_map]
  apply List.map_congr_left
  intro item _
  cases item <;> simp [foundText, memberText]

/-- The composites whose cell looks like null. -/
theorem packItems_eq_nullToken_iff (hwf : d.WellFormed) (ht : d.packing.PlainToken)
    {items : List Cell} (h : ExactItems items) :
    packItems d items = d.nullToken ↔
      items = [none] ∨ d.nullToken = "" ∧ (items = [] ∨ items = [some (.string "")]) := by
  rw [← String.toList_inj, packItems, String.toList_ofList]
  have hpack := Packing.pack_eq_nullToken_iff (Dialect.packing_wellFormed hwf) ht
    (items.map (Option.map fun item => item.display.toList))
  rw [h.map_eq_iff, Dialect.nullToken_toList_eq_nil_iff, List.map_eq_nil_iff] at hpack
  refine Iff.trans hpack (or_congr_left ?_)
  rw [List.map_eq_singleton_iff]
  simp

/-- The composites whose cell has no text. -/
theorem packItems_eq_empty_iff (hwf : d.WellFormed) {items : List Cell} (h : ExactItems items) :
    packItems d items = "" ↔
      items = [] ∨ items = [some (.string "")] ∨ d.nullToken = "" ∧ items = [none] := by
  rw [← String.toList_inj, packItems, String.toList_ofList]
  have hpack := Packing.pack_eq_nil_iff (Dialect.packing_wellFormed hwf)
    (items.map (Option.map fun item => item.display.toList))
  rw [h.map_eq_iff, Dialect.nullToken_toList_eq_nil_iff, List.map_eq_nil_iff] at hpack
  refine Iff.trans hpack (or_congr_right (or_congr_right (and_congr_right fun _ => ?_)))
  rw [List.map_eq_singleton_iff]
  simp

/-! ## Reading members -/

/-- The text of a scalar is read as an equal one exactly if it has no stray leap second. -/
theorem exists_readScalar_display_iff (name : String) {value : Value} {type : DataType}
    (htype : type.IsExact) (h : value.matches type = true) :
    (∃ found, readScalar name type value.display = .ok found ∧ found.equal value = true) ↔
      ¬ value.HasStrayLeap := by
  simp only [readScalar, Except.mapError_eq_ok_iff]
  exact Value.exists_read_display_iff htype h

/-- An element is read back unless it is lost. -/
theorem exists_readElement_iff (name : String) {type : DataType} (htype : type.IsExact)
    {item : Cell} (h : ∀ value, item = some value → value.matches type = true) :
    (∃ found, readElement name type (memberText d item) = .ok found ∧ found.Same item) ↔
      ¬ Lost d item := by
  cases item with
  | none => exact iff_of_true ⟨none, rfl, Cell.same_none⟩ (not_lost_none d)
  | some value =>
    have hmatches := h value rfl
    by_cases hlost : d.nullToken = "" ∧ value.display = ""
    · -- an empty string is found as null
      have hvalue := Value.eq_string_of_display_eq htype hmatches hlost.2
      rw [memberText, if_pos hlost]
      constructor
      · rintro ⟨found, hread, hsame⟩
        cases hread
        exact absurd hsame Cell.not_same_none_some
      · intro hkept
        exact absurd (Or.inl ⟨hlost.1, congrArg some hvalue⟩) hkept
    · rw [memberText, if_neg hlost, lost_some_iff hlost,
        ← exists_readScalar_display_iff name htype hmatches]
      constructor
      · rintro ⟨_, hread, hsame⟩
        obtain ⟨found, hvalue, rfl⟩ := Except.map_eq_ok_iff.1 hread
        exact ⟨found, hvalue, Cell.same_some.1 hsame⟩
      · rintro ⟨found, hread, hequal⟩
        exact ⟨some found, Except.map_eq_ok_iff.2 ⟨found, hread, rfl⟩, Cell.same_some.2 hequal⟩

/-- A member that is not null is read like an element. -/
theorem readMember_eq_readElement {name : String} {field : Field} {text : Option String}
    (h : text.isSome ∨ field.nullable = true) :
    readMember d name field text = readElement name field.type text := by
  cases text with
  | none =>
    rw [readMember, if_pos (h.resolve_left (by simp))]
    rfl
  | some text => rfl

/-- A member of a nested row is read back unless it is lost. -/
theorem exists_readMember_iff (name : String) {field : Field} (htype : field.type.IsExact)
    {item : Cell} (h : field.admits item = true) :
    (∃ found, readMember d name field (memberText d item) = .ok found ∧ found.Same item) ↔
      ¬ Lost d item := by
  by_cases hread : (memberText d item).isSome ∨ field.nullable = true
  · rw [readMember_eq_readElement hread]
    apply exists_readElement_iff name htype
    rintro value rfl
    exact h
  · -- a lost member of a field that is never null
    rw [not_or] at hread
    cases item with
    | none => exact absurd h hread.2
    | some value =>
      rw [memberText] at hread ⊢
      by_cases hlost : d.nullToken = "" ∧ value.display = ""
      · have hvalue := Value.eq_string_of_display_eq htype h hlost.2
        rw [if_pos hlost]
        constructor
        · rintro ⟨found, hfound, -⟩
          rw [readMember, if_neg hread.2] at hfound
          cases hfound
        · intro hkept
          exact absurd (Or.inl ⟨hlost.1, congrArg some hvalue⟩) hkept
      · rw [if_neg hlost] at hread
        exact absurd rfl hread.1

/-- The elements of an array are read back unless one is lost. -/
theorem exists_readElements_iff (name : String) {type : DataType} (htype : type.IsExact)
    {items : List Cell} (h : elementsMatch items type = true) :
    (∃ found, (items.map (memberText d)).mapM (readElement name type) = .ok found ∧
        List.Forall₂ Cell.Same found items) ↔ ∀ item ∈ items, ¬ Lost d item := by
  rw [Except.exists_mapM_eq_ok_forall₂_iff, List.forall₂_map_left_iff]
  induction items with
  | nil => simp
  | cons item items ih =>
    have hitems : elementsMatch items type = true := by
      cases item with
      | none => exact h
      | some value =>
        rw [elementsMatch, Bool.and_eq_true] at h
        exact h.2
    have hitem : ∀ value, item = some value → value.matches type = true := by
      rintro value rfl
      rw [elementsMatch, Bool.and_eq_true] at h
      exact h.1
    rw [List.forall₂_cons, List.forall_mem_cons, ih hitems, exists_readElement_iff name htype hitem]

/-- The members of a nested row are read back unless one is lost. -/
theorem exists_readMembers_iff (name : String) {fields : List Field} {items : List Cell}
    (htypes : ∀ field ∈ fields, field.type.IsExact) (h : RowType.Admits fields items) :
    (∃ found, ((items.map (memberText d)).zip fields).mapM (fun entry =>
          readMember d (name ++ "." ++ entry.2.name) entry.2 entry.1) = .ok found ∧
        List.Forall₂ Cell.Same found items) ↔ ∀ item ∈ items, ¬ Lost d item := by
  rw [Except.exists_mapM_eq_ok_forall₂_iff]
  rw [RowType.Admits] at h
  induction h with
  | nil => simp
  | cons hitem _ ih =>
    rw [List.forall_mem_cons] at htypes
    rw [List.map_cons, List.zip_cons_cons, List.forall₂_cons, List.forall_mem_cons, ih htypes.2,
      exists_readMember_iff _ htypes.1 hitem]

/-! ## Reading cells -/

section Cells

variable {field : Field} {token : String} {value : Value}

/-- The text of a cell is taken for null, or refused as a null that may not stand here. -/
def TakenForNull (d : Dialect) (field : Field) (token : String) : Prop :=
  token = d.nullToken ∧ (field.nullable = true ∨ d.nullToken ≠ "")

/-- A text that is not taken for null is read as a value. -/
theorem readToken_of_not_takenForNull (h : ¬ TakenForNull d field token) :
    readToken d field (some token) = (readValue d field.name field.type token).map some := by
  rw [readToken, Dialect.isNullToken]
  by_cases htoken : token = d.nullToken
  · -- the empty text is no null in a column that is never null
    rw [TakenForNull, not_and, not_or, not_not] at h
    obtain ⟨hnullable, hempty⟩ := h htoken
    simp [hnullable, hempty]
  · simp [htoken]

/-- A text that is taken for null is read as no value. -/
theorem readToken_ne_of_takenForNull (h : TakenForNull d field token) :
    readToken d field (some token) ≠ .ok (some value) := by
  obtain ⟨htoken, hnull⟩ := h
  rw [readToken, Dialect.isNullToken]
  by_cases hnullable : field.nullable = true
  · simp [htoken, hnullable]
  · simp [htoken, hnullable, hnull.resolve_left hnullable]

/-- A value is read from a text that is not taken for null. -/
theorem of_readToken_eq_some {text : Option String}
    (h : readToken d field text = .ok (some value)) :
    ∃ token, text = some token ∧ ¬ TakenForNull d field token ∧
      readValue d field.name field.type token = .ok value := by
  cases text with
  | none =>
    rw [readToken] at h
    split at h <;> cases h
  | some token =>
    have hnull : ¬ TakenForNull d field token := fun hnull => readToken_ne_of_takenForNull hnull h
    rw [readToken_of_not_takenForNull hnull] at h
    obtain ⟨found, hfound, heq⟩ := Except.map_eq_ok_iff.1 h
    cases heq
    exact ⟨token, rfl, hnull, hfound⟩

/-- The text of a cell is read as an equal cell. -/
def IsReadBack (d : Dialect) (field : Field) (token : String) (cell : Cell) : Prop :=
  ∃ found, readToken d field (some token) = .ok found ∧ found.Same cell

/-- The text of a cell is read as an equal value, whether or not it looks like null. -/
def IsValueReadBack (d : Dialect) (field : Field) (token : String) (value : Value) : Prop :=
  ∃ found, readValue d field.name field.type token = .ok found ∧ found.equal value = true

/-- A value is read back if its text is not taken for null and gives an equal value. -/
theorem isReadBack_some_iff :
    IsReadBack d field token (some value) ↔
      ¬ TakenForNull d field token ∧ IsValueReadBack d field token value := by
  constructor
  · rintro ⟨found, hread, hsame⟩
    cases found with
    | none => exact absurd hsame Cell.not_same_none_some
    | some found =>
      obtain ⟨token, heq, htaken, hvalue⟩ := of_readToken_eq_some hread
      cases heq
      exact ⟨htaken, found, hvalue, Cell.same_some.1 hsame⟩
  · rintro ⟨htaken, found, hread, hequal⟩
    refine ⟨some found, ?_, Cell.same_some.2 hequal⟩
    rw [readToken_of_not_takenForNull htaken, hread]
    rfl

/-- Null is read back where it may stand. -/
theorem isReadBack_none (h : field.nullable = true) : IsReadBack d field d.nullToken none := by
  refine ⟨none, ?_, Cell.same_none⟩
  rw [readToken, Dialect.isNullToken, if_pos]
  simp [h]

/-! ### Cells that collapse -/

/-- A cell whose text is read as something else. A value collapses if its text is taken for null.
So does an array of one null, of which nothing else is left, or of one empty string, which has the
text of an empty array. Where null has no text, empty arrays do in columns that may be null, and
composites with an empty string in them everywhere. -/
def Collapses (d : Dialect) (field : Field) : Cell → Prop
  | none => False
  | some (.array items) =>
    items = [none] ∨ items = [some (.string "")] ∨
      items = [] ∧ d.nullToken = "" ∧ field.nullable = true ∨
      d.nullToken = "" ∧ some (.string "") ∈ items
  | some (.row items) =>
    items = [none] ∧ (field.nullable = true ∨ d.nullToken ≠ "") ∨
      d.nullToken = "" ∧ some (.string "") ∈ items
  | some value => value.display = d.nullToken ∧ (field.nullable = true ∨ d.nullToken ≠ "")

/-- No member is lost if none is an empty string where null has no text and none has a stray leap
second. -/
theorem forall_not_lost_iff {items : List Cell} :
    (∀ item ∈ items, ¬ Lost d item) ↔
      ¬ (d.nullToken = "" ∧ some (.string "") ∈ items) ∧
        ¬ ∃ value, some value ∈ items ∧ value.HasStrayLeap := by
  constructor
  · intro h
    constructor
    · rintro ⟨hnull, hitem⟩
      exact h _ hitem (Or.inl ⟨hnull, rfl⟩)
    · rintro ⟨value, hitem, hleap⟩
      exact h _ hitem (Or.inr ⟨value, rfl, hleap⟩)
  · rintro ⟨hempty, hleaps⟩ item hitem (⟨hnull, rfl⟩ | ⟨value, rfl, hleap⟩)
    · exact hempty ⟨hnull, hitem⟩
    · exact hleaps ⟨value, hitem, hleap⟩

/-- A scalar is read of its text exactly if it has no stray leap second. -/
theorem isValueReadBack_scalar_iff (htype : field.type.IsExact)
    (h : value.matches field.type = true) :
    IsValueReadBack d field value.display value ↔ ¬ value.HasStrayLeap := by
  have hread : readValue d field.name field.type value.display =
      readScalar field.name field.type value.display := by
    cases hfield : field.type with
    | array element =>
      rw [hfield] at htype
      exact htype.elim
    | row fields =>
      rw [hfield] at htype
      exact htype.elim
    | _ => rfl
  rw [IsValueReadBack, hread]
  exact exists_readScalar_display_iff field.name htype h

/-- A cell without a text is an empty array; any other gives its elements. -/
theorem isValueReadBack_array_iff (hwf : d.WellFormed) (ht : d.packing.PlainToken)
    {element : DataType} (htype : field.type = .array element) (hexact : element.IsExact)
    {items : List Cell} (h : elementsMatch items element = true) :
    IsValueReadBack d field (packItems d items) (.array items) ↔
      items = [] ∨ packItems d items ≠ "" ∧
        ¬ (d.nullToken = "" ∧ some (.string "") ∈ items) ∧
        ¬ ∃ value, some value ∈ items ∧ value.HasStrayLeap := by
  rw [IsValueReadBack, htype]
  by_cases hempty : packItems d items = ""
  · -- the text of the empty array, whatever the elements have been
    have hread : readValue d field.name (.array element) (packItems d items) = .ok (.array []) := by
      rw [hempty]
      rfl
    rw [hread]
    constructor
    · rintro ⟨found, hfound, hequal⟩
      cases hfound
      cases items with
      | nil => exact Or.inl rfl
      | cons item items => simp [Value.equal, itemsEqual] at hequal
    · rintro (rfl | ⟨hne, -⟩)
      · exact ⟨_, rfl, rfl⟩
      · exact absurd hempty hne
  · have hne : items ≠ [] := by
      rintro rfl
      exact hempty rfl
    have hread : readValue d field.name (.array element) (packItems d items) =
        ((items.map (memberText d)).mapM (readElement field.name element)).map .array := by
      rw [readValue, if_neg (by simpa using hempty), unpackToken_packItems hwf ht hne]
      rfl
    rw [hread, ← forall_not_lost_iff, ← exists_readElements_iff field.name hexact h]
    simp only [Except.map_eq_ok_iff, hne, false_or, hempty, not_false_eq_true, true_and, ne_eq]
    constructor
    · rintro ⟨_, ⟨found, hfound, rfl⟩, hequal⟩
      exact ⟨found, hfound, itemsEqual_iff.1 (by simpa [Value.equal] using hequal)⟩
    · rintro ⟨found, hfound, hsame⟩
      exact ⟨_, ⟨found, hfound, rfl⟩, by simpa [Value.equal] using itemsEqual_iff.2 hsame⟩

/-- The cell of a nested row gives its members. -/
theorem isValueReadBack_row_iff (hwf : d.WellFormed) (ht : d.packing.PlainToken)
    {fields : List Field} (htype : field.type = .row fields) (hfields : fields ≠ [])
    (hexact : ∀ member ∈ fields, member.type.IsExact) {items : List Cell}
    (h : RowType.Admits fields items) :
    IsValueReadBack d field (packItems d items) (.row items) ↔
      ¬ (d.nullToken = "" ∧ some (.string "") ∈ items) ∧
        ¬ ∃ value, some value ∈ items ∧ value.HasStrayLeap := by
  have hlength := h.length_eq
  have hne : items ≠ [] := by
    rintro rfl
    exact hfields (List.length_eq_zero_iff.1 hlength.symm)
  have hmembers : unpackRow d field.name (packItems d items) fields.length =
      .ok (items.map (memberText d)) := by
    rw [unpackRow, unpackToken_packItems hwf ht hne, if_pos]
    rw [List.length_map, hlength]
  have hread : readValue d field.name (.row fields) (packItems d items) =
      (((items.map (memberText d)).zip fields).mapM fun entry =>
        readMember d (field.name ++ "." ++ entry.2.name) entry.2 entry.1).map .row := by
    rw [readValue, hmembers]
    rfl
  rw [IsValueReadBack, htype, hread, ← forall_not_lost_iff,
    ← exists_readMembers_iff field.name hexact h]
  simp only [Except.map_eq_ok_iff]
  constructor
  · rintro ⟨_, ⟨found, hfound, rfl⟩, hequal⟩
    exact ⟨found, hfound, itemsEqual_iff.1 (by simpa [Value.equal] using hequal)⟩
  · rintro ⟨found, hfound, hsame⟩
    exact ⟨_, ⟨found, hfound, rfl⟩, by simpa [Value.equal] using itemsEqual_iff.2 hsame⟩

/-- A scalar is read back exactly if its text is not taken for null and it has no stray leap
second. -/
theorem isReadBack_scalar_iff (htype : field.type.IsExact)
    (h : value.matches field.type = true) :
    IsReadBack d field value.display (some value) ↔
      ¬ TakenForNull d field value.display ∧ ¬ value.HasStrayLeap := by
  rw [isReadBack_some_iff, isValueReadBack_scalar_iff htype h]

/-- An array is read back exactly if it does not collapse and holds no stray leap second. -/
theorem isReadBack_array_iff (hwf : d.WellFormed) (ht : d.packing.PlainToken)
    {element : DataType} (htype : field.type = .array element) (hexact : element.IsExact)
    {items : List Cell} (h : elementsMatch items element = true) :
    IsReadBack d field (packItems d items) (some (.array items)) ↔
      ¬ Collapses d field (some (.array items)) ∧
        ¬ Cell.HoldsStrayLeap (some (.array items)) := by
  have hitems := exactItems_of_elementsMatch hexact h
  rw [isReadBack_some_iff, isValueReadBack_array_iff hwf ht htype hexact h, TakenForNull,
    ne_eq (packItems d items), packItems_eq_nullToken_iff hwf ht hitems,
    packItems_eq_empty_iff hwf hitems, Collapses, Cell.HoldsStrayLeap]
  -- the empty array and the two of one member stand out
  by_cases hnil : items = []
  · subst hnil
    simp
    tauto
  by_cases hnull : items = [none]
  · subst hnull
    simp
  by_cases hempty : items = [some (.string "")]
  · subst hempty
    simp
  · simp [hnil, hnull, hempty]

/-- A nested row is read back exactly if it does not collapse and holds no stray leap second. -/
theorem isReadBack_row_iff (hwf : d.WellFormed) (ht : d.packing.PlainToken)
    {fields : List Field} (htype : field.type = .row fields) (hfields : fields ≠ [])
    (hexact : ∀ member ∈ fields, member.type.IsExact) {items : List Cell}
    (h : RowType.Admits fields items) :
    IsReadBack d field (packItems d items) (some (.row items)) ↔
      ¬ Collapses d field (some (.row items)) ∧ ¬ Cell.HoldsStrayLeap (some (.row items)) := by
  have hitems := exactItems_of_admits hexact h
  have hnil : items ≠ [] := by
    rintro rfl
    exact hfields (List.length_eq_zero_iff.1 h.length_eq.symm)
  rw [isReadBack_some_iff, isValueReadBack_row_iff hwf ht htype hfields hexact h, TakenForNull,
    packItems_eq_nullToken_iff hwf ht hitems, Collapses, Cell.HoldsStrayLeap]
  -- a row has members, so the two of one member stand out
  by_cases hnull : items = [none]
  · subst hnull
    simp
  by_cases hempty : items = [some (.string "")]
  · subst hempty
    simp
    tauto
  · simp [hnil, hnull, hempty]

/-- **A cell that is written is read back exactly if it does not collapse and holds no stray leap
second.** -/
theorem isReadBack_writeCell_iff (hwf : d.WellFormed) (ht : d.packing.PlainToken)
    (htype : field.type.IsRecoverable) {cell : Cell}
    (h : CellWriter.writeCell d field cell = .ok token) :
    IsReadBack d field token cell ↔ ¬ Collapses d field cell ∧ ¬ cell.HoldsStrayLeap := by
  cases cell with
  | none =>
    rw [CellWriter.writeCell] at h
    split at h
    · next hnullable =>
      cases h
      exact iff_of_true (isReadBack_none hnullable) ⟨id, id⟩
    · cases h
  | some value =>
    rw [CellWriter.writeCell] at h
    split at h
    · next hmatches =>
      cases h
      cases hfield : field.type with
      | array element =>
        rw [hfield] at htype hmatches
        cases value with
        | array items => exact isReadBack_array_iff hwf ht hfield htype hmatches
        | _ => cases hmatches
      | row fields =>
        rw [hfield] at htype hmatches
        cases value with
        | row items =>
          exact isReadBack_row_iff hwf ht hfield htype.1 htype.2 (membersMatch_iff.1 hmatches)
        | _ => cases hmatches
      | _ =>
        -- a scalar stands in its cell by itself
        have hexact : field.type.IsExact := by
          rw [hfield] at htype ⊢
          exact htype
        rw [CellWriter.render_eq_display hexact hmatches, isReadBack_scalar_iff hexact hmatches]
        rw [hfield] at hmatches
        cases value <;> first | exact Iff.rfl | cases hmatches
    · cases h

end Cells

end CellReader

end TypedCsv
