import TypedCsv.Proofs.Leniency
import TypedCsv.Proofs.RoundTrip.Encoded

/-! # Selected columns

Selecting columns before the cells are read gives what selecting from the whole rows gives
(`Decoder.projection_commutes`): the member of a nested row that is read on its own is the member
of the row that is read as a whole, and nothing depends on the cells that are not selected.

* `Projection.cellAt?`: what a path selects from a row.
* `CellReader.exists_readSlot_of_readToken`: a member alone and inside its row.
* `Decoder.exists_decoded_of_convert`: two strict decoders, record by record. -/

namespace TypedCsv

/-! ## Selecting from rows -/

namespace Projection

/-- A member of the cell of a nested row. A null row has null members. -/
def memberAt? (index : Nat) : Cell → Option Cell
  | none => some none
  | some (.row items) => items[index]?
  | some _ => none

/-- The cell at the end of a path. -/
def cellAt? (row : Row) : List Nat → Option Cell
  | [position] => row[position]?
  | [position, index] => row[position]?.bind (memberAt? index)
  | _ => none

/-- A row consists of the selected cells of another row. -/
def IsImage (projection : Projection) (row image : Row) : Prop :=
  List.Forall₂ (fun path cell => cellAt? row path = some cell) projection.paths image

variable {rowType : RowType} {path : List Nat} {column : Column}

/-- A path that has a column leads to a field, or to a member of a field that is a nested row. -/
theorem exists_of_resolvePath (h : resolvePath rowType path = .ok column) :
    ∃ position top, rowType[position]? = some top ∧
      (path = [position] ∧ column = ⟨position, none, top⟩ ∨
        ∃ index fields inner, path = [position, index] ∧ top.type = .row fields ∧
          fields[index]? = some inner ∧
          column = ⟨position, some ⟨index, fields.length⟩,
            ⟨top.name ++ "_" ++ inner.name, inner.type, top.nullable || inner.nullable⟩⟩) := by
  rw [resolvePath.eq_def] at h
  split at h
  · cases h
  next position rest =>
  split at h
  · cases h
  next top htop =>
  refine ⟨position, top, htop, ?_⟩
  split at h
  · cases h
    exact Or.inl ⟨rfl, rfl⟩
  · -- the path goes on into the field
    next index =>
    split at h
    · next fields htype =>
      split at h
      · cases h
      · next inner hinner =>
        cases h
        exact Or.inr ⟨index, fields, inner, rfl, htype, hinner, rfl⟩
    · cases h
  · cases h

end Projection

/-! ## Reading selected cells -/

namespace CellReader

variable {d : Dialect} {name other : String} {field top inner : Field} {fields : List Field}
  {token : Option String} {text : String} {cell : Cell} {index : Nat}

/-- Whether a member is read, and as what, depends on its type alone, and it may be null wherever
it could be null before. -/
theorem readMember_of_readMember {member : Option String}
    (h : readMember d name inner member = .ok cell) (htype : field.type = inner.type)
    (hnull : inner.nullable = true → field.nullable = true) :
    readMember d other field member = .ok cell := by
  cases member with
  | none =>
    rw [readMember] at h ⊢
    split at h
    · next hinner => rwa [if_pos (hnull hinner)]
    · cases h
  | some text =>
    -- the name of the column only shows in a fault
    rw [readMember, readScalar, Except.map_eq_ok_iff] at h ⊢
    obtain ⟨value, hvalue, hcell⟩ := h
    rw [Except.mapError_eq_ok_iff] at hvalue
    exact ⟨value, by rw [Except.mapError_eq_ok_iff, htype, hvalue], hcell⟩

/-- A nested row is unpacked exactly if it has as many members as it should have. -/
theorem unpackRow_eq_ok_iff {width : Nat} {members : List (Option String)} :
    unpackRow d name text width = .ok members ↔
      members = unpackToken d text ∧ (unpackToken d text).length = width := by
  rw [unpackRow]
  split
  · next hlength => simp [hlength, eq_comm]
  · next hlength => simp [hlength]

/-- Each member of a row that is read has been read from the part in its place. -/
theorem exists_readMember_of_readValue {value : Value}
    (h : readValue d name (.row fields) text = .ok value) (hinner : fields[index]? = some inner) :
    ∃ items member, value = .row items ∧ items[index]? = some member ∧
      (unpackToken d text).length = fields.length ∧
      readMember d (name ++ "." ++ inner.name) inner (unpackToken d text)[index]?.join =
        .ok member := by
  obtain ⟨members, hmembers, h⟩ := Except.bind_eq_ok_iff.1 h
  obtain ⟨items, hitems, hvalue⟩ := Except.bind_eq_ok_iff.1 h
  obtain ⟨rfl, hlength⟩ := unpackRow_eq_ok_iff.1 hmembers
  obtain ⟨hindex, rfl⟩ := List.getElem?_eq_some_iff.1 hinner
  -- there are as many parts as fields, so the member is where its field is
  rw [Except.mapM_eq_ok_iff, List.forall₂_iff_get] at hitems
  obtain ⟨hsame, hread⟩ := hitems
  rw [List.length_zip, hlength, Nat.min_self] at hsame
  have hmember := hread index (by rw [List.length_zip]; omega) (by omega)
  refine ⟨items, items[index], (Except.ok.inj hvalue).symm, List.getElem?_eq_getElem _, hlength, ?_⟩
  rw [List.getElem?_eq_getElem (by omega), Option.join_some]
  simpa using hmember

/-! ### Null cells -/

/-- A column is null where it may be, and no text but that of null stands there. -/
theorem nullable_of_readToken_none (h : readToken d field token = .ok none) :
    field.nullable = true ∧ ∀ text, token = some text → d.isNullToken text = true := by
  refine ⟨admits_of_readToken h, ?_⟩
  rintro text rfl
  rw [readToken] at h
  split at h
  · next hnull => exact (Bool.and_eq_true _ _ ▸ hnull).1
  · -- otherwise there is a fault or a value
    split at h
    · cases h
    · obtain ⟨value, -, hvalue⟩ := Except.map_eq_ok_iff.1 h
      cases hvalue

/-- A value is read from a text that is not taken for null. -/
theorem exists_readValue_of_readToken {value : Value}
    (h : readToken d field token = .ok (some value)) :
    ∃ text, token = some text ∧ (d.isNullToken text = true → d.nullToken = "") ∧
      readValue d field.name field.type text = .ok value := by
  obtain ⟨text, rfl, htaken, hvalue⟩ := of_readToken_eq_some h
  refine ⟨text, rfl, fun hnull => ?_, hvalue⟩
  by_contra hempty
  exact htaken ⟨eq_of_beq hnull, Or.inr hempty⟩

/-- A null row gives null to its member, as far as the member may be null. -/
theorem readSlot_of_null (slot : Projection.Slot)
    (h : ∀ text, token = some text → d.isNullToken text = true) :
    readSlot d field slot token = readMember d field.name field none := by
  rw [readSlot.eq_def]
  split
  · rfl
  · rw [if_pos (h _ rfl)]
    rfl

/-- A row of the right width gives its member in the given place. -/
theorem readSlot_of_length {slot : Projection.Slot} (h : ¬ d.isNullToken text = true)
    (hlength : (unpackToken d text).length = slot.width) :
    readSlot d field slot (some text) =
      readMember d field.name field (unpackToken d text)[slot.index]?.join := by
  have hmembers : unpackRow d field.name text slot.width = .ok (unpackToken d text) :=
    unpackRow_eq_ok_iff.2 ⟨rfl, hlength⟩
  rw [readSlot.eq_def]
  split
  · next hnone => cases hnone
  · next hsome =>
    cases hsome
    rw [if_neg h, hmembers]
    rfl

/-- Without a null literal all members of an empty cell are null. -/
theorem unpackToken_empty (h : d.nullToken = "") : unpackToken d "" = [none] := by
  simp [unpackToken, Packing.unpack, Packing.member, Dialect.packing, h]

/-! ### Members on their own -/

/-- **A member that is read on its own is the member of the row that is read as a whole**, and it
is null if that row is. -/
theorem exists_readSlot_of_readToken (field : Field) (h : readToken d top token = .ok cell)
    (hrow : top.type = .row fields) (hinner : fields[index]? = some inner)
    (htype : field.type = inner.type) (hnull : field.nullable = (top.nullable || inner.nullable)) :
    ∃ member, Projection.memberAt? index cell = some member ∧
      readSlot d field ⟨index, fields.length⟩ token = .ok member := by
  cases cell with
  | none =>
    -- the row is null where it may be, and so is every member that is read on its own
    obtain ⟨htop, htext⟩ := nullable_of_readToken_none h
    refine ⟨none, rfl, ?_⟩
    rw [readSlot_of_null _ htext, readMember, if_pos (by simp [hnull, htop])]
  | some value =>
    obtain ⟨text, rfl, hempty, hvalue⟩ := exists_readValue_of_readToken h
    rw [hrow] at hvalue
    obtain ⟨items, member, rfl, hmember, hlength, hread⟩ :=
      exists_readMember_of_readValue hvalue hinner
    have hread : readMember d field.name field (unpackToken d text)[index]?.join = .ok member :=
      readMember_of_readMember hread htype fun hnullable => by simp [hnull, hnullable]
    refine ⟨member, hmember, ?_⟩
    by_cases htoken : d.isNullToken text = true
    · -- an empty cell is a row of one null, and its member is read as null
      obtain rfl : text = "" := (eq_of_beq htoken).trans (hempty htoken)
      have hjoin : (unpackToken d "")[index]?.join = none := by
        rw [unpackToken_empty (hempty htoken)]
        cases index <;> rfl
      rw [hjoin] at hread
      rw [readSlot_of_null _ fun _ h => by rwa [← Option.some.inj h], hread]
    · rw [readSlot_of_length htoken hlength, hread]

/-- What a path selects from a row that is read as a whole is read from the record as well. -/
theorem exists_readColumn_of_whole {rowType : RowType} {record : List String} {row : Row}
    {path : List Nat} {column : Projection.Column} (h : (whole d rowType).read record = .ok row)
    (hpath : Projection.resolvePath rowType path = .ok column) :
    ∃ cell, Projection.cellAt? row path = some cell ∧ readColumn d column record = .ok cell := by
  rw [read, Except.mapM_eq_ok_iff, List.forall₂_iff_get] at h
  obtain ⟨hlength, hread⟩ := h
  obtain ⟨position, top, htop, hcolumn⟩ := Projection.exists_of_resolvePath hpath
  obtain ⟨hposition, rfl⟩ := List.getElem?_eq_some_iff.1 htop
  have hcolumns : (whole d rowType).columns = Projection.wholeColumns rowType := rfl
  have hwhole : position < (Projection.wholeColumns rowType).length := by
    rwa [Projection.wholeColumns, List.length_mapIdx]
  rw [hcolumns] at hlength hread
  have hcell := hread position hwhole (by omega)
  have hget : row[position]? = some (row.get ⟨position, by omega⟩) := List.getElem?_eq_getElem _
  rw [readCell_strict rfl] at hcell
  have hcell : readToken d rowType[position] record[position]? =
      .ok (row.get ⟨position, by omega⟩) := by
    simpa [Projection.wholeColumns, readColumn, whole] using hcell
  obtain ⟨rfl, rfl⟩ | ⟨index, fields, inner, rfl, hrow, hinner, rfl⟩ := hcolumn
  · exact ⟨_, hget, hcell⟩
  · -- the field of the column has a name of its own, and may be null if either may
    obtain ⟨member, hmember, hslot⟩ := exists_readSlot_of_readToken
      ⟨rowType[position].name ++ "_" ++ inner.name, inner.type,
        rowType[position].nullable || inner.nullable⟩ hcell hrow hinner rfl rfl
    exact ⟨member, by rw [Projection.cellAt?, hget, Option.bind_some, hmember], hslot⟩

/-- A record that is read as a whole is read column by column as the selected cells. -/
theorem exists_isImage_of_whole {rowType : RowType} {record : List String} {row : Row}
    {projection : Projection} {columns : List Projection.Column}
    (h : (whole d rowType).read record = .ok row)
    (hcolumns : projection.resolve rowType = .ok columns) :
    ∃ image, projection.IsImage row image ∧
      (⟨d, columns, .strict⟩ : CellReader).read record = .ok image := by
  rw [Projection.resolve, Except.mapM_eq_ok_iff] at hcolumns
  simp only [Projection.IsImage, read, Except.mapM_eq_ok_iff]
  generalize projection.paths = paths at hcolumns
  induction hcolumns with
  | nil => exact ⟨[], .nil, .nil⟩
  | cons hcolumn _ ih =>
    obtain ⟨image, himage, hread⟩ := ih
    obtain ⟨cell, hcell, hcolumn⟩ := exists_readColumn_of_whole h hcolumn
    exact ⟨cell :: image, .cons hcell himage, .cons (by rw [readCell_strict rfl, hcolumn]) hread⟩

/-! ### Cells that are not selected -/

/-- Only the cells where a column is are looked at. -/
theorem read_congr {r : CellReader} {record others : List String}
    (h : ∀ column ∈ r.columns, record[column.position]? = others[column.position]?) :
    r.read record = r.read others := by
  rw [read, read]
  generalize r.columns = columns at h
  induction columns with
  | nil => rfl
  | cons column columns ih =>
    obtain ⟨hcolumn, hcolumns⟩ := List.forall_mem_cons.1 h
    have hcell : r.readCell column record = r.readCell column others := by
      rw [readCell, readCell, readColumn, readColumn, hcolumn]
    rw [List.mapM_cons, List.mapM_cons, hcell, ih hcolumns]

end CellReader

/-- A column is in the place where its path starts. -/
theorem Projection.exists_head?_of_resolve {projection : Projection} {rowType : RowType}
    {columns : List Column} (h : projection.resolve rowType = .ok columns) {column : Column}
    (hmem : column ∈ columns) :
    ∃ path ∈ projection.paths, path.head? = some column.position := by
  rw [resolve, Except.mapM_eq_ok_iff] at h
  generalize projection.paths = paths at h
  induction h with
  | nil => cases hmem
  | @cons path column _ _ hcolumn _ ih =>
    rcases List.mem_cons.1 hmem with rfl | hmem
    · refine ⟨path, List.mem_cons_self, ?_⟩
      obtain ⟨position, top, -, ⟨rfl, rfl⟩ | ⟨index, fields, inner, rfl, -, -, rfl⟩⟩ :=
        exists_of_resolvePath hcolumn <;> rfl
    · obtain ⟨path, hpath, hhead⟩ := ih hmem
      exact ⟨path, List.mem_cons_of_mem _ hpath, hhead⟩

namespace Decoder

variable {rowType : RowType} {options : Options} {projection : Projection} {d : Dialect}
  {columns : List Projection.Column}

/-! ## Two strict decoders -/

section Pair

variable {first second : Decoder} {related : Row → Row → Prop} {outcomes : List Framing.Outcome}

/-- If every record that the first decoder reads is read by the second as a related row, its rows
are the first ones of the second, and the second ends where the first ends without an error. -/
theorem exists_decoded_of_convert
    (h : ∀ outcome row, first.convert outcome = .row row →
      ∃ image, related row image ∧ second.convert outcome = .row image)
    (hp : first.policy = .strict) (skipped : Nat) (outcomes : List Framing.Outcome) :
    ∃ images, List.Forall₂ related (rowsOf (first.decoded skipped outcomes).1) images ∧
      images.map (fun image => (.ok image, skipped)) <+: (second.decoded skipped outcomes).1 ∧
      ((∀ item ∈ (first.decoded skipped outcomes).1, item.1.isOk = true) →
        (second.decoded skipped outcomes).1 = images.map fun image => (.ok image, skipped)) := by
  induction outcomes with
  | nil => exact ⟨[], .nil, List.nil_prefix, fun _ => rfl⟩
  | cons outcome outcomes ih =>
    cases hc : first.convert outcome with
    | row row =>
      obtain ⟨images, himages, hfirst, hall⟩ := ih
      obtain ⟨image, himage, hsecond⟩ := h outcome row hc
      rw [decoded_of_row hc, decoded_of_row hsecond, rowsOf_cons_ok]
      refine ⟨image :: images, .cons himage himages, ?_, fun hok => ?_⟩
      · exact List.cons_prefix_cons.2 ⟨rfl, hfirst⟩
      · rw [hall (List.forall_mem_cons.1 hok).2, List.map_cons]
    | rejected error =>
      -- the first decoder stops here, whatever the second does
      rw [decoded_of_rejected hc, if_neg (by simp [hp])]
      exact ⟨[], .nil, List.nil_prefix, fun hok => by cases hok _ List.mem_cons_self⟩
    | failed fault =>
      rw [decoded_of_failed hc]
      exact ⟨[], .nil, List.nil_prefix, fun hok => by cases hok _ List.mem_cons_self⟩
    | finished =>
      obtain rfl := Rows.eq_finished_of_convert hc
      exact ⟨[], .nil, List.nil_prefix, fun _ => rfl⟩

end Pair

/-! ## Selecting before and after -/

/-- The decoder of the selected columns. -/
def selecting (d : Dialect) (rowType : RowType) (columns : List Projection.Column)
    (policy : Policy) : Decoder :=
  ⟨d, rowType.length, ⟨d, columns, policy⟩⟩

/-- A decoder with selected columns is compiled to one that reads exactly these. -/
theorem compile_selecting (hd : Dialect.compile rowType options = .ok d)
    (hcolumns : projection.resolve rowType = .ok columns) (policy : Policy) :
    compile rowType options (some projection) policy =
      .ok (selecting d rowType columns policy) := by
  simp only [compile, CellReader.ofProjection, Except.bind_eq_ok_iff, Except.mapError_eq_ok_iff]
  exact ⟨d, hd, _, ⟨columns, hcolumns, rfl⟩, rfl⟩

/-- A record that is converted as a whole is converted by the selected columns. -/
theorem exists_convert_selecting (hcolumns : projection.resolve rowType = .ok columns)
    {outcome : Framing.Outcome} {row : Row}
    (h : (whole d rowType).convert outcome = .row row) :
    ∃ image, projection.IsImage row image ∧
      (selecting d rowType columns .strict).convert outcome = .row image := by
  obtain ⟨line, cells, rfl, hwidth, hread⟩ := exists_read_of_convert h
  obtain ⟨image, himage, hselected⟩ := CellReader.exists_isImage_of_whole hread hcolumns
  exact ⟨image, himage, convert_record hwidth hselected⟩

/-- The texts of the cells that are not selected do not matter. -/
theorem convert_selecting_congr (hcolumns : projection.resolve rowType = .ok columns)
    {policy : Policy} {line : Nat} {cells others : List String}
    (hlength : cells.length = others.length)
    (h : ∀ path ∈ projection.paths, ∀ position, path.head? = some position →
      cells[position]? = others[position]?) :
    (selecting d rowType columns policy).convert (.record line cells) =
      (selecting d rowType columns policy).convert (.record line others) := by
  have hread : (selecting d rowType columns policy).cells.read cells =
      (selecting d rowType columns policy).cells.read others := by
    apply CellReader.read_congr
    intro column hmem
    obtain ⟨path, hpath, hhead⟩ := Projection.exists_head?_of_resolve hcolumns hmem
    exact h path hpath column.position hhead
  rw [convert, convert, hlength, hread]

/-- Reads the names of places, twice, and not their identifiers. -/
def placeNames : Decoder :=
  let dialect : Dialect := ⟨Dialect.comma, some Dialect.doubleQuote, none, none, ";", none⟩
  let column : Projection.Column := ⟨1, some ⟨0, 2⟩, ⟨"place_name", .string, true⟩⟩
  selecting dialect placesType [column, column] .strict

/-- A place, a null one, and one with an identifier that is no number. -/
def placesSource : Source :=
  Source.ofBytes (Utf8.encode "7,Oslo;12\n8,\nx,Rome;37\n".toList)

/-- **Selecting commutes with decoding.** The rows of a whole strict decoding, reduced to the
selected cells, are the first items of the strict decoding of the selected columns, and all of them
if the whole decoding ends without an error. Under either policy the cells of a record that no path
starts at change neither the row nor the error. -/
theorem projection_commutes (hd : Dialect.compile rowType options = .ok d)
    (hcolumns : projection.resolve rowType = .ok columns) :
    (∃ full part, compile rowType options none .strict = .ok full ∧
      compile rowType options (some projection) .strict = .ok part ∧
      ∀ source, ∃ images,
        List.Forall₂ projection.IsImage (full.rows source).found images ∧
        images.map (fun image => (.ok image, 0)) <+: (part.rows source).items.1 ∧
        ((∀ item ∈ (full.rows source).items.1, item.1.isOk = true) →
          (part.rows source).items.1 = images.map fun image => (.ok image, 0))) ∧
      ∀ policy, ∃ part, compile rowType options (some projection) policy = .ok part ∧
        ∀ (line : Nat) (cells others : List String), cells.length = others.length →
          (∀ path ∈ projection.paths, ∀ position, path.head? = some position →
            cells[position]? = others[position]?) →
          part.convert (.record line cells) = part.convert (.record line others) := by
  constructor
  · refine ⟨_, _, compile_whole hd, compile_selecting hd hcolumns .strict, fun source => ?_⟩
    have hsame : (selecting d rowType columns .strict).outcomes source =
        (whole d rowType).outcomes source := rfl
    rw [found_rows, items_rows, items_rows, hsame]
    exact exists_decoded_of_convert (fun _ _ => exists_convert_selecting hcolumns) rfl 0 _
  · intro policy
    exact ⟨_, compile_selecting hd hcolumns policy, fun line cells others =>
      convert_selecting_congr hcolumns⟩

/-- The names of the places are read up to where the whole decoding stops, and the identifier that
stops it does not matter to them. -/
theorem projection_commutes_placeNames :
    [(.ok [some (.string "Oslo"), some (.string "Oslo")], 0), (.ok [none, none], 0)] <+:
        (placeNames.rows placesSource).items.1 ∧
      placeNames.convert (.record 3 ["x", "Rome;37"]) =
        placeNames.convert (.record 3 ["9", "Rome;37"]) := by
  have hd : Dialect.compile placesType Options.default = .ok placeNames.dialect := by rfl
  have hcolumns : Projection.resolve ⟨[[1, 0], [1, 0]]⟩ placesType =
      .ok placeNames.cells.columns := by rfl
  obtain ⟨⟨full, part, hfull, hpart, hrows⟩, hcongr⟩ := projection_commutes hd hcolumns
  obtain rfl : full = whole placeNames.dialect placesType :=
    Except.ok.inj (hfull.symm.trans (by rfl))
  obtain rfl : part = placeNames := Except.ok.inj (hpart.symm.trans (by rfl))
  obtain ⟨images, himages, hfirst, -⟩ := hrows placesSource
  obtain ⟨part, hpart, hcells⟩ := hcongr .strict
  obtain rfl : part = placeNames := Except.ok.inj (hpart.symm.trans (by rfl))
  constructor
  · have houtcomes : (whole placeNames.dialect placesType).outcomes placesSource =
        [.record 1 ["7", "Oslo;12"], .record 2 ["8", ""], .record 3 ["x", "Rome;37"]] := by
      decide +kernel
    have hfound : ((whole placeNames.dialect placesType).rows placesSource).found =
        [[some (.integer 7),
            some (.row [some (.string "Oslo"),
              some (.decimal ⟨false, 12, 0, by decide, by decide⟩)])],
          [some (.integer 8), none]] := by
      rw [found_rows, houtcomes]
      cbv
    rw [hfound] at himages
    obtain rfl : images = [[some (.string "Oslo"), some (.string "Oslo")], [none, none]] := by
      simpa [Projection.IsImage, Projection.cellAt?, Projection.memberAt?,
        List.forall₂_cons_left_iff] using himages
    exact hfirst
  · refine hcells 3 _ _ rfl fun path hpath position hposition => ?_
    obtain rfl : path = [1, 0] := by simpa using hpath
    cases hposition
    rfl

end Decoder

end TypedCsv
