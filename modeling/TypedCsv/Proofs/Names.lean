import TypedCsv.Proofs.Projection
import TypedCsv.Proofs.Recoding

/-! # Columns by name

A name without a dot stands for the first column of that name, and `parent.child` for the first
member of the name `child` in the nested row that is the first column of the name `parent`
(`Projection.Selects`). These are all names that are found, and what is found has a column as a
path (`Projection.names_select`): names are walked through part by part, to any depth, and paths by
positions, but members of columns have no members themselves. The names of all columns, where they
are told apart, select the table as it is (`Projection.apply_ofNames_names`). -/

namespace TypedCsv

/-! ## Parts of a text -/

namespace Text

variable {separator : Char}

/-- A text without a separator has one part. -/
theorem split_of_not_mem {text : List Char} (h : separator ∉ text) :
    split separator text = [text] := by
  induction text with
  | nil => rfl
  | cons c text ih =>
    obtain ⟨hc, htext⟩ := not_or.1 (mt List.mem_cons.2 h)
    rw [split, if_neg (Ne.symm hc), ih htext, consFirst]

/-- The first separator ends the first part. -/
theorem split_append_cons {part : List Char} (h : separator ∉ part) (rest : List Char) :
    split separator (part ++ separator :: rest) = part :: split separator rest := by
  induction part with
  | nil => rw [List.nil_append, split, if_pos rfl]
  | cons c part ih =>
    obtain ⟨hc, hpart⟩ := not_or.1 (mt List.mem_cons.2 h)
    rw [List.cons_append, split, if_neg (Ne.symm hc), ih hpart, consFirst]

/-- No part of a text has a separator in it. -/
theorem not_mem_of_mem_split {text part : List Char} (h : part ∈ split separator text) :
    separator ∉ part := by
  induction text generalizing part with
  | nil =>
    rw [List.mem_singleton.1 h]
    exact List.not_mem_nil
  | cons c text ih =>
    rw [split] at h
    split at h
    · rcases List.mem_cons.1 h with rfl | h
      · exact List.not_mem_nil
      · exact ih h
    · next hc =>
      obtain ⟨first, parts, hparts⟩ := List.exists_cons_of_ne_nil (split_ne_nil separator text)
      rw [hparts] at h ih
      rcases List.mem_cons.1 h with rfl | h
      · rw [List.mem_cons, not_or]
        exact ⟨Ne.symm hc, ih List.mem_cons_self⟩
      · exact ih (List.mem_cons_of_mem _ h)

end Text

namespace Projection

variable {rowType : RowType} {name : String}

/-! ## What a name stands for -/

/-- The first field of a name. -/
def firstOf (fields : List Field) (name : String) : Option Field :=
  fields.find? fun field => field.name == name

/-- A name stands for a type, which may or may not be null: without a dot for that of a column, and
with one dot for that of a member of a column that is a nested row. The member may be null if it or
its row may be. -/
inductive Selects (rowType : RowType) : String → DataType → Bool → Prop where
  | column {name : String} {top : Field} (dotless : '.' ∉ name.toList)
      (first : firstOf rowType name = some top) : Selects rowType name top.type top.nullable
  | member {name parent child : String} {top inner : Field} {members : List Field}
      (parts : name = parent ++ "." ++ child) (dotless_parent : '.' ∉ parent.toList)
      (dotless_child : '.' ∉ child.toList) (first : firstOf rowType parent = some top)
      (row : top.type = .row members) (first_member : firstOf members child = some inner) :
      Selects rowType name inner.type (top.nullable || inner.nullable)

/-- A name with underscores in the places of its dots. -/
def flatName (name : String) : String :=
  String.ofList (name.toList.map fun c => if c = '.' then '_' else c)

/-- Without dots no character changes. -/
theorem map_underscore_of_not_mem {text : List Char} (h : '.' ∉ text) :
    text.map (fun c => if c = '.' then '_' else c) = text := by
  rw [List.map_congr_left (g := id)]
  · exact List.map_id text
  · intro c hc
    exact if_neg fun (heq : c = '.') => h (heq ▸ hc)

/-- A name without dots is flat. -/
theorem flatName_of_not_mem (h : '.' ∉ name.toList) : flatName name = name := by
  rw [flatName, map_underscore_of_not_mem h, String.ofList_toList]

/-- The dot between two flat names becomes an underscore. -/
theorem flatName_append {parent child : String} (hparent : '.' ∉ parent.toList)
    (hchild : '.' ∉ child.toList) : flatName (parent ++ "." ++ child) = parent ++ "_" ++ child := by
  rw [flatName, String.toList_append, String.toList_append, List.map_append, List.map_append,
    map_underscore_of_not_mem hparent, map_underscore_of_not_mem hchild, String.ofList_append,
    String.ofList_append, String.ofList_toList, String.ofList_toList]
  rfl

/-! ## Names and paths -/

/-- The first field of a name is the one at its position. -/
theorem firstOf_eq_bind (fields : RowType) (name : String) :
    firstOf fields name = (fields.indexOf? name).bind fun index => fields[index]? :=
  List.find?_eq_bind_findIdx?_getElem?

/-- The first field of a name stands at the first position of the name. -/
theorem firstOf_eq_some_iff {fields : RowType} {field : Field} :
    firstOf fields name = some field ↔
      ∃ index, fields.indexOf? name = some index ∧ fields[index]? = some field := by
  rw [firstOf_eq_bind, Option.bind_eq_some_iff]

/-- The position of a name leads to the first field of that name. -/
theorem exists_firstOf_of_indexOf {fields : RowType} {index : Nat}
    (h : fields.indexOf? name = some index) :
    ∃ field, fields[index]? = some field ∧ firstOf fields name = some field := by
  obtain ⟨hlt, -⟩ := List.findIdx?_eq_some_iff_getElem.1 h
  have hget := List.getElem?_eq_getElem hlt
  exact ⟨_, hget, firstOf_eq_some_iff.2 ⟨index, h, hget⟩⟩

/-- The field that is found has the name. -/
theorem name_of_firstOf {fields : List Field} {field : Field}
    (h : firstOf fields name = some field) : field.name = name := by
  simpa using List.find?_some h

/-- The last part of a name is a field. -/
theorem pathOfSegments_singleton_eq_ok_iff {part : List Char} {path : List Nat} :
    pathOfSegments name rowType [part] = .ok path ↔
      ∃ index, rowType.indexOf? (String.ofList part) = some index ∧ path = [index] := by
  rw [pathOfSegments]
  cases rowType.indexOf? (String.ofList part) with
  | none => simp
  | some index => simp [eq_comm]

/-- A part that others follow is a field that is a nested row. -/
theorem pathOfSegments_cons_eq_ok_iff {part : List Char} {parts : List (List Char)}
    (hne : parts ≠ []) {path : List Nat} :
    pathOfSegments name rowType (part :: parts) = .ok path ↔
      ∃ index top members rest, rowType.indexOf? (String.ofList part) = some index ∧
        rowType[index]? = some top ∧ top.type = .row members ∧
        pathOfSegments name members parts = .ok rest ∧ path = index :: rest := by
  rw [pathOfSegments.eq_def]
  cases hindex : rowType.indexOf? (String.ofList part) with
  | none => simp [hindex]
  | some index =>
    simp only [hindex, Option.some.injEq, exists_and_left, exists_eq_left']
    cases parts with
    | nil => exact absurd rfl hne
    | cons next parts =>
      cases htop : rowType[index]? with
      | none => simp
      | some top =>
        simp only [Option.map_some, Option.some.injEq, exists_eq_left']
        cases htype : top.type with
        | row members =>
          rw [Except.bind_eq_ok_iff]
          constructor
          · rintro ⟨rest, hrest, hpath⟩
            cases hpath
            exact ⟨members, rfl, rest, hrest, rfl⟩
          · rintro ⟨members', hmembers, rest, hrest, rfl⟩
            cases hmembers
            exact ⟨rest, hrest, rfl⟩
        | _ => simp

/-- A path of one position selects that column as it is. -/
theorem resolvePath_singleton {position : Nat} {top : Field} (h : rowType[position]? = some top) :
    resolvePath rowType [position] = .ok ⟨position, none, top⟩ := by
  rw [resolvePath, h]

/-- A path of two positions selects a member of a nested row; its name is made of both names, and it
may be null if either may. -/
theorem resolvePath_pair {position index : Nat} {top inner : Field} {members : List Field}
    (htop : rowType[position]? = some top) (hrow : top.type = .row members)
    (hinner : members[index]? = some inner) :
    resolvePath rowType [position, index] = .ok ⟨position, some ⟨index, members.length⟩,
      ⟨top.name ++ "_" ++ inner.name, inner.type, top.nullable || inner.nullable⟩⟩ := by
  simp [resolvePath, htop, hrow, hinner]

/-- A name that is found selects a column, which is that of its path. A name has one part or two: a
member of a nested row is no nested row, so no third part is found. -/
theorem selects_of_pathOfName (hflat : ∀ field ∈ rowType, Dialect.isFlat field.type = true)
    {path : List Nat} (h : pathOfName rowType name = .ok path) :
    ∃ column, resolvePath rowType path = .ok column ∧ column.field.name = flatName name ∧
      Selects rowType name column.field.type column.field.nullable := by
  have hjoined := Text.intercalate_split '.' name.toList
  have hdotless (part : List Char) (hpart : part ∈ Text.split '.' name.toList) :
      '.' ∉ (String.ofList part).toList := by
    rw [String.toList_ofList]
    exact Text.not_mem_of_mem_split hpart
  rw [pathOfName] at h
  match hparts : Text.split '.' name.toList with
  | [] => exact absurd hparts (Text.split_ne_nil _ _)
  | [part] =>
    rw [hparts] at h hjoined hdotless
    obtain rfl : name = String.ofList part := by
      rw [← String.ofList_toList (s := name), ← hjoined]
      simp
    have hpart := hdotless part (by simp)
    obtain ⟨position, hposition, rfl⟩ := pathOfSegments_singleton_eq_ok_iff.1 h
    obtain ⟨top, htop, hfirst⟩ := exists_firstOf_of_indexOf hposition
    refine ⟨_, resolvePath_singleton htop, ?_, .column hpart hfirst⟩
    rw [flatName_of_not_mem hpart]
    exact name_of_firstOf hfirst
  | [parent, child] =>
    rw [hparts] at h hjoined hdotless
    obtain rfl : name = String.ofList parent ++ "." ++ String.ofList child := by
      rw [← String.ofList_toList (s := name), ← hjoined]
      simp [List.intercalate, String.ofList_append, String.append_assoc]
    have hparent := hdotless parent (by simp)
    have hchild := hdotless child (by simp)
    obtain ⟨position, top, members, rest, hposition, htop, hrow, hrest, rfl⟩ :=
      (pathOfSegments_cons_eq_ok_iff (List.cons_ne_nil _ _)).1 h
    obtain ⟨index, hindex, rfl⟩ := pathOfSegments_singleton_eq_ok_iff.1 hrest
    obtain ⟨inner, hinner, hmember⟩ := exists_firstOf_of_indexOf hindex
    have hfirst := firstOf_eq_some_iff.2 ⟨position, hposition, htop⟩
    refine ⟨_, resolvePath_pair htop hrow hinner, ?_,
      .member rfl hparent hchild hfirst hrow hmember⟩
    rw [flatName_append hparent hchild, name_of_firstOf hfirst, name_of_firstOf hmember]
  | parent :: child :: next :: parts =>
    rw [hparts] at h
    obtain ⟨position, top, members, rest, -, htop, hrow, hrest, -⟩ :=
      (pathOfSegments_cons_eq_ok_iff (List.cons_ne_nil _ _)).1 h
    obtain ⟨index, inner, _, _, -, hinner, hcomposite, -, -⟩ :=
      (pathOfSegments_cons_eq_ok_iff (List.cons_ne_nil _ _)).1 hrest
    have htopFlat := hflat top (List.mem_of_getElem? htop)
    rw [hrow, Dialect.isFlat, List.all_eq_true] at htopFlat
    have hinnerFlat := htopFlat inner (List.mem_of_getElem? hinner)
    rw [hcomposite] at hinnerFlat
    cases hinnerFlat

/-- A name that selects something is found. -/
theorem exists_pathOfName_of_selects {type : DataType} {nullable : Bool}
    (h : Selects rowType name type nullable) : ∃ path, pathOfName rowType name = .ok path := by
  cases h with
  | column dotless first =>
    obtain ⟨position, hposition, -⟩ := firstOf_eq_some_iff.1 first
    refine ⟨[position], ?_⟩
    rw [pathOfName, Text.split_of_not_mem dotless, pathOfSegments_singleton_eq_ok_iff,
      String.ofList_toList]
    exact ⟨position, hposition, rfl⟩
  | @member parent child top inner members parts dotless_parent dotless_child first row
      first_member =>
    subst parts
    obtain ⟨position, hposition, htop⟩ := firstOf_eq_some_iff.1 first
    obtain ⟨index, hindex, -⟩ := firstOf_eq_some_iff.1 first_member
    have hparts : Text.split '.' (parent ++ "." ++ child).toList =
        [parent.toList, child.toList] := by
      rw [String.toList_append, String.toList_append, List.append_assoc]
      exact (Text.split_append_cons dotless_parent _).trans
        (congrArg _ (Text.split_of_not_mem dotless_child))
    refine ⟨[position, index], ?_⟩
    rw [pathOfName, hparts, pathOfSegments_cons_eq_ok_iff (List.cons_ne_nil _ _),
      String.ofList_toList]
    refine ⟨position, top, members, [index], hposition, htop, row, ?_, rfl⟩
    rw [pathOfSegments_singleton_eq_ok_iff, String.ofList_toList]
    exact ⟨index, hindex, rfl⟩

/-! ## Lists of names -/

/-- A list of names is found exactly if each name is, and then as their paths in order. -/
theorem ofNames_eq_ok_iff {names : List String} {projection : Projection} :
    ofNames rowType names = .ok projection ↔
      List.Forall₂ (fun name path => pathOfName rowType name = .ok path) names
        projection.paths := by
  rw [ofNames, Except.bind_eq_ok_iff]
  simp only [Except.mapM_eq_ok_iff]
  constructor
  · rintro ⟨paths, hpaths, hprojection⟩
    cases hprojection
    exact hpaths
  · exact fun hpaths => ⟨projection.paths, hpaths, rfl⟩

/-- **Names are found exactly if each of them selects something, and then their paths have
columns**, one for each name and in the same order, of the type that the name stands for, and null
where it may be. -/
theorem names_select {options : Options} {d : Dialect}
    (hd : Dialect.compile rowType options = .ok d) (names : List String) :
    ((∃ projection, ofNames rowType names = .ok projection) ↔
        ∀ name ∈ names, ∃ type nullable, Selects rowType name type nullable) ∧
      ∀ projection, ofNames rowType names = .ok projection →
        ∃ columns, projection.resolve rowType = .ok columns ∧
          projection.apply rowType = .ok (columns.map Column.field) ∧
          List.Forall₂ (fun name field => field.name = flatName name ∧
            Selects rowType name field.type field.nullable) names (columns.map Column.field) := by
  have hflat := Dialect.checkFlat_eq_ok_iff.1 (Dialect.compile_eq_ok_iff.1 hd).1
  constructor
  · have hfound : (∃ projection, ofNames rowType names = .ok projection) ↔
        ∃ paths, names.mapM (pathOfName rowType) = .ok paths := by
      simp only [ofNames_eq_ok_iff, Except.mapM_eq_ok_iff]
      exact ⟨fun ⟨projection, h⟩ => ⟨projection.paths, h⟩, fun ⟨paths, h⟩ => ⟨⟨paths⟩, h⟩⟩
    rw [hfound, Except.exists_mapM_eq_ok_iff]
    refine forall₂_congr fun name _ => ⟨fun ⟨path, hpath⟩ => ?_, fun ⟨type, nullable, h⟩ => ?_⟩
    · obtain ⟨column, -, -, hselects⟩ := selects_of_pathOfName hflat hpath
      exact ⟨_, _, hselects⟩
    · exact exists_pathOfName_of_selects h
  · intro projection hprojection
    -- name by name, the path has a column of the kind that the name stands for
    have hcolumns : List.Forall₂ (fun path name => ∃ column, resolvePath rowType path = .ok column ∧
        (column.field.name = flatName name ∧
          Selects rowType name column.field.type column.field.nullable)) projection.paths names :=
      ((ofNames_eq_ok_iff.1 hprojection).imp fun _ _ => selects_of_pathOfName hflat).flip
    obtain ⟨columns, hresolve, hselects⟩ := Except.exists_mapM_eq_ok_forall₂_iff.2 hcolumns
    have hresolve : projection.resolve rowType = .ok columns := hresolve
    refine ⟨columns, hresolve, ?_, ?_⟩
    · rw [apply, hresolve]
      rfl
    · rw [List.forall₂_map_right_iff]
      exact hselects.flip

/-- The members of a home; one of them has no name. -/
def homeMembers : List Field :=
  [⟨"city", .string, false⟩, ⟨"", .integer, true⟩]

/-- A column of homes. -/
def homeField : Field :=
  ⟨"home", .row homeMembers, true⟩

/-- A table with two columns of one name, and a column with a dot in its name. -/
def peopleType : RowType :=
  [⟨"name", .string, false⟩, homeField, ⟨"name", .integer, true⟩, ⟨"home.city", .date, true⟩]

/-- The first column of a name is found, a member rather than the column with a dot in its name,
and a member without a name. -/
theorem names_select_people :
    ∃ projection columns, ofNames peopleType ["home.city", "name", "home."] = .ok projection ∧
      projection.resolve peopleType = .ok columns ∧
      columns.map (fun column => column.field.name) = ["home_city", "name", "home_"] := by
  have hd : Dialect.compile peopleType Options.default =
      .ok ⟨Dialect.comma, some Dialect.doubleQuote, none, none, ";", none⟩ := by rfl
  have hname : firstOf peopleType "name" = some ⟨"name", .string, false⟩ := rfl
  have hhome : firstOf peopleType "home" = some homeField := rfl
  have hcity : firstOf homeMembers "city" = some ⟨"city", .string, false⟩ := rfl
  have hnameless : firstOf homeMembers "" = some ⟨"", .integer, true⟩ := rfl
  have hparent : '.' ∉ "home".toList := by decide
  obtain ⟨hfound, hcolumns⟩ := names_select hd ["home.city", "name", "home."]
  obtain ⟨projection, hprojection⟩ := hfound.2 (by
    simp only [List.forall_mem_cons]
    exact ⟨⟨_, _, .member rfl hparent (by decide) hhome rfl hcity⟩,
      ⟨_, _, .column (by decide) hname⟩,
      ⟨_, _, .member rfl hparent (by decide) hhome rfl hnameless⟩, by simp⟩)
  obtain ⟨columns, hresolve, -, hfields⟩ := hcolumns projection hprojection
  refine ⟨projection, columns, hprojection, hresolve, ?_⟩
  have hnames : columns.map (fun column => column.field.name) =
      ["home.city", "name", "home."].map flatName := by
    rw [List.forall₂_map_right_iff] at hfields
    have heq := hfields.imp fun _ _ h => h.1
    rw [← List.forall₂_eq_eq_eq, List.forall₂_map_left_iff, List.forall₂_map_right_iff]
    exact heq.flip
  rw [hnames]
  decide

/-! ## The names of all columns -/

section AllNames

variable (hdistinct : (RowType.names rowType).Nodup)
include hdistinct

/-- The name of a column leads to its position if no other column has it. -/
theorem indexOf_name {position : Nat} (h : position < rowType.length) :
    rowType.indexOf? rowType[position].name = some position := by
  refine List.findIdx?_eq_some_iff_getElem.2 ⟨h, beq_self_eq_true _, fun earlier hearlier => ?_⟩
  have hne := List.pairwise_iff_getElem.1 (List.pairwise_map.1 hdistinct) earlier position
    (hearlier.trans h) h hearlier
  simpa using hne

/-- Its path is the position if the name has no dot either. -/
theorem pathOfName_name {position : Nat} (h : position < rowType.length)
    (hdotless : '.' ∉ rowType[position].name.toList) :
    pathOfName rowType rowType[position].name = .ok [position] := by
  rw [pathOfName, Text.split_of_not_mem hdotless, pathOfSegments_singleton_eq_ok_iff,
    String.ofList_toList]
  exact ⟨position, indexOf_name hdistinct h, rfl⟩

/-- **The names of all columns select the whole table**, if no two of them are the same and none has
a dot. -/
theorem apply_ofNames_names (hdotless : ∀ field ∈ rowType, '.' ∉ field.name.toList) :
    ∃ projection, ofNames rowType (RowType.names rowType) = .ok projection ∧
      projection.apply rowType = .ok rowType := by
  let paths := (List.range rowType.length).map fun position => [position]
  have hpaths : List.Forall₂ (fun name path => pathOfName rowType name = .ok path)
      (RowType.names rowType) paths := by
    refine List.forall₂_iff_get.2 ⟨by simp [RowType.names, paths], fun position hname _ => ?_⟩
    have hposition : position < rowType.length := by simpa [RowType.names] using hname
    have hpath := pathOfName_name hdistinct hposition (hdotless _ (List.getElem_mem hposition))
    simpa [RowType.names, paths] using hpath
  have hcolumns : List.Forall₂ (fun path field => ∃ column,
      resolvePath rowType path = .ok column ∧ column.field = field) paths rowType := by
    refine List.forall₂_iff_get.2 ⟨by simp [paths], fun position _ hposition => ?_⟩
    refine ⟨⟨position, none, rowType[position]⟩, ?_, rfl⟩
    simpa [paths] using resolvePath_singleton (List.getElem?_eq_getElem hposition)
  obtain ⟨columns, hresolve, hfields⟩ := Except.exists_mapM_eq_ok_forall₂_iff.2 hcolumns
  have hresolve : resolve ⟨paths⟩ rowType = .ok columns := hresolve
  have hfields : columns.map Column.field = rowType := by
    rwa [← List.forall₂_eq_eq_eq, List.forall₂_map_left_iff]
  refine ⟨⟨paths⟩, ofNames_eq_ok_iff.2 hpaths, ?_⟩
  rw [apply, hresolve]
  exact congrArg Except.ok hfields

end AllNames
end Projection

end TypedCsv
