import TypedCsv.Proofs.Packing
import TypedCsv.Proofs.Dialect
import TypedCsv.Proofs.RoundTrip.Cell

/-! # Null elements of arrays

A null element is written as the text of null, which may hold anything: characters of the delimiter
and escapes as well. An array of nulls is read back exactly if that text is one part of a cell
(`CellReader.null_elements_read_back_iff`): no escape is left open at its end, and no delimiter
starts in it, not even one that is completed by the delimiter behind it (`Packing.IsOnePart`). -/

namespace TypedCsv

namespace Packing

variable {p : Packing}

/-! ## Texts that are one part -/

/-- Whether each escape in a text has a character behind it. -/
def isClosed (p : Packing) : List Char → Bool
  | [] => true
  | c :: rest =>
    if c = p.escape then
      match rest with
      | [] => false
      | _ :: rest => p.isClosed rest
    else p.isClosed rest

/-- A text that is one part of a cell in front of a delimiter: no escape in it is left open, and
outside of escapes no delimiter starts in it, even if it goes on behind the text. -/
structure IsOnePart (p : Packing) (text : List Char) : Prop where
  closed : p.isClosed text = true
  uncut : ∀ before after, before ++ after = text → p.isClosed before = true → after ≠ [] →
    ¬ p.delimiter <+: after ++ p.delimiter

/-- No escape is left open in an empty text. -/
@[simp] theorem isClosed_nil (p : Packing) : p.isClosed [] = true := rfl

/-- An escape on its own is left open. -/
@[simp] theorem isClosed_escape (p : Packing) : p.isClosed [p.escape] = false := by
  simp [isClosed]

/-- An escape closes with the character behind it. -/
@[simp] theorem isClosed_escape_cons (p : Packing) (c : Char) (text : List Char) :
    p.isClosed (p.escape :: c :: text) = p.isClosed text := by
  simp [isClosed]

/-- Any other character leaves the escapes behind it as they are. -/
theorem isClosed_cons {c : Char} (h : c ≠ p.escape) (text : List Char) :
    p.isClosed (c :: text) = p.isClosed text := by
  rw [isClosed.eq_def]
  simp [h]

/-- The empty text is one part. -/
theorem isOnePart_nil (p : Packing) : p.IsOnePart [] := by
  refine ⟨rfl, fun before after h _ hne => ?_⟩
  exact absurd (List.append_eq_nil_iff.1 h).2 hne

/-- An escape on its own is no part: it takes the delimiter behind it as literal. -/
theorem not_isOnePart_escape (p : Packing) : ¬ p.IsOnePart [p.escape] := by
  intro h
  have := h.closed
  simp at this

/-- No delimiter starts with the escape. -/
theorem WellFormed.not_delimiter_prefix (hp : p.WellFormed) (text : List Char) :
    ¬ p.delimiter <+: p.escape :: text := by
  intro h
  obtain ⟨c, delimiter, hcons⟩ := List.exists_cons_of_ne_nil hp.delimiter_ne_nil
  rw [hcons, List.cons_prefix_cons] at h
  apply hp.escape_notMem
  rw [hcons, ← h.1]
  exact List.mem_cons_self

/-- What an escape protects makes no difference. -/
theorem isOnePart_escape_cons_iff (hp : p.WellFormed) {c : Char} {text : List Char} :
    p.IsOnePart (p.escape :: c :: text) ↔ p.IsOnePart text := by
  constructor
  · rintro ⟨hclosed, huncut⟩
    refine ⟨by simpa using hclosed, fun before after h hbefore hne => ?_⟩
    exact huncut (p.escape :: c :: before) after (by rw [← h]; rfl) (by simpa using hbefore) hne
  · rintro ⟨hclosed, huncut⟩
    refine ⟨by simpa using hclosed, fun before after h hbefore hne => ?_⟩
    match before with
    | [] =>
      rw [List.nil_append] at h
      rw [h]
      exact hp.not_delimiter_prefix _
    | [first] =>
      -- the escape is left open
      cases h
      simp at hbefore
    | first :: second :: before =>
      cases h
      exact huncut before after rfl (by simpa using hbefore) hne

/-- A character that is no escape may not start a delimiter. -/
theorem isOnePart_cons_iff {c : Char} (hc : c ≠ p.escape) {text : List Char} :
    p.IsOnePart (c :: text) ↔
      ¬ p.delimiter <+: c :: (text ++ p.delimiter) ∧ p.IsOnePart text := by
  constructor
  · rintro ⟨hclosed, huncut⟩
    refine ⟨huncut [] (c :: text) rfl rfl (List.cons_ne_nil _ _),
      by rwa [isClosed_cons hc] at hclosed, fun before after h hbefore hne => ?_⟩
    exact huncut (c :: before) after (by rw [← h]; rfl) (by rwa [isClosed_cons hc]) hne
  · rintro ⟨hfirst, hclosed, huncut⟩
    refine ⟨by rwa [isClosed_cons hc], fun before after h hbefore hne => ?_⟩
    cases before with
    | nil =>
      rw [List.nil_append] at h
      rw [h]
      exact hfirst
    | cons first before =>
      cases h
      exact huncut before after rfl (by rwa [isClosed_cons hc] at hbefore) hne

/-! ## Reading such a text -/

/-- What does not start a delimiter in front of another does not start one in front of any tail. -/
theorem not_prefix_of_isTail {text tail : List Char} (htail : p.IsTail tail)
    (h : ¬ p.delimiter <+: text ++ p.delimiter) : ¬ p.delimiter <+: text ++ tail := by
  intro hbegins
  apply h
  rcases htail with rfl | ⟨rest, rfl⟩
  · rw [List.append_nil] at hbegins
    exact hbegins.trans (List.prefix_append _ _)
  · rw [← List.append_assoc] at hbegins
    exact List.prefix_of_prefix_length_le hbegins (List.prefix_append _ _) (by simp)

/-- A text that is one part is kept as it stands. -/
theorem unpackFrom_of_isOnePart (hp : p.WellFormed) {text tail : List Char}
    (h : p.IsOnePart text) (htail : p.IsTail tail) :
    ∃ found, p.unpackFrom (text ++ tail) = prepend text found (p.unpackFrom tail) := by
  fun_induction isClosed p text with
  | case1 => exact ⟨[], rfl⟩
  | case2 => exact absurd h p.not_isOnePart_escape
  | case3 c text ih =>
    obtain ⟨found, hfound⟩ := ih ((isOnePart_escape_cons_iff hp).1 h)
    refine ⟨c :: found, ?_⟩
    rw [List.cons_append, List.cons_append, unpackFrom_escape, hfound, prepend_prepend]
    rfl
  | case4 c text hc ih =>
    obtain ⟨hfirst, hrest⟩ := (isOnePart_cons_iff hc).1 h
    obtain ⟨found, hfound⟩ := ih hrest
    refine ⟨c :: found, ?_⟩
    have hd : ¬ p.delimiter <+: (c :: text) ++ tail := not_prefix_of_isTail htail hfirst
    rw [List.cons_append] at hd
    rw [List.cons_append, unpackFrom_of_not_prefix hc hd, hfound, prepend_prepend]
    rfl

/-- Only a text that is one part is found in front of a delimiter. -/
theorem isOnePart_of_unpackFrom (hp : p.WellFormed) {text rest : List Char}
    (h : (p.unpackFrom (text ++ (p.delimiter ++ rest))).1.1 = text) : p.IsOnePart text := by
  fun_induction isClosed p text with
  | case1 => exact p.isOnePart_nil
  | case2 =>
    -- the escape takes the first character of the delimiter
    obtain ⟨c, delimiter, hcons⟩ := List.exists_cons_of_ne_nil hp.delimiter_ne_nil
    rw [hcons, List.cons_append, List.cons_append, List.nil_append, unpackFrom_escape] at h
    simp [prepend] at h
  | case3 c text ih =>
    rw [List.cons_append, List.cons_append, unpackFrom_escape] at h
    exact (isOnePart_escape_cons_iff hp).2 (ih (by simpa [prepend] using h))
  | case4 c text hc ih =>
    by_cases hd : p.delimiter <+: c :: (text ++ (p.delimiter ++ rest))
    · -- nothing stands in front of a delimiter at the start
      obtain ⟨tail, htail⟩ := hd
      rw [List.cons_append, ← htail, unpackFrom_delimiter hp] at h
      cases h
    · rw [List.cons_append, unpackFrom_of_not_prefix hc hd] at h
      refine (isOnePart_cons_iff hc).2 ⟨fun hprefix => hd ?_, ih (by simpa [prepend] using h)⟩
      refine hprefix.trans ?_
      rw [← List.append_assoc]
      exact (List.prefix_append (c :: (text ++ p.delimiter)) rest)

/-- A text of null without characters of the delimiter is one part. -/
theorem PlainToken.isOnePart (hp : p.WellFormed) (ht : p.PlainToken) :
    p.IsOnePart p.nullToken := by
  obtain ⟨found, hfound⟩ := unpackFrom_nullToken hp ht (p.delimiter ++ [])
  rw [unpackFrom_delimiter hp] at hfound
  have hraw : (p.unpackFrom (p.nullToken ++ (p.delimiter ++ []))).1.1 = p.nullToken := by
    rw [hfound]
    simp [prepend]
  exact isOnePart_of_unpackFrom hp hraw

/-! ## Cells of nulls -/

/-- Exactly the parts that look like null are null. -/
theorem member_eq_none_iff {raw text : List Char} :
    p.member raw text = none ↔ raw = p.nullToken := by
  simp [member]

/-- The nulls of a packed cell are read back if the text of null is one part. -/
theorem unpack_pack_replicate_none (hp : p.WellFormed) (h : p.IsOnePart p.nullToken) (n : Nat) :
    p.unpack (p.pack (List.replicate (n + 1) none)) = List.replicate (n + 1) none := by
  induction n with
  | zero =>
    obtain ⟨found, hfound⟩ := unpackFrom_of_isOnePart hp h (Or.inl rfl)
    rw [List.append_nil, unpackFrom_nil] at hfound
    rw [List.replicate_one, pack_singleton, unpack_eq, packMember, hfound]
    simp [prepend, member]
  | succ n ih =>
    have htail : p.IsTail (p.delimiter ++ p.pack (List.replicate (n + 1) none)) := Or.inr ⟨_, rfl⟩
    obtain ⟨found, hfound⟩ := unpackFrom_of_isOnePart hp h htail
    rw [unpackFrom_delimiter hp, ih] at hfound
    rw [List.replicate_succ, pack_cons (by simp), unpack_eq, packMember, hfound]
    simp [prepend, member]

/-- **Several nulls of a cell are read back exactly if the text of null is one part.** -/
theorem unpack_pack_replicate_none_iff (hp : p.WellFormed) {n : Nat} (hn : 2 ≤ n) :
    p.unpack (p.pack (List.replicate n none)) = List.replicate n none ↔
      p.IsOnePart p.nullToken := by
  obtain ⟨n, rfl⟩ := Nat.exists_eq_add_of_le' hn
  constructor
  · intro h
    -- the first member is null only if its text stands in front of a delimiter
    rw [List.replicate_succ, pack_cons (by simp), unpack_eq, packMember, List.cons.injEq,
      member_eq_none_iff] at h
    exact isOnePart_of_unpackFrom hp h.1
  · exact fun h => unpack_pack_replicate_none hp h (n + 1)

/-- A cell of several members is longer than the text of its first one. -/
theorem pack_ne_packMember (hp : p.WellFormed) {members : List Member} (hne : members ≠ [])
    (member : Member) : p.pack (member :: members) ≠ p.packMember member := by
  intro h
  rw [pack_cons hne, List.append_right_eq_self, List.append_eq_nil_iff] at h
  exact hp.delimiter_ne_nil h.1

end Packing

namespace CellReader

open CellWriter.render (packItems)

variable {d : Dialect} {field : Field} {element : DataType}

/-! ## Arrays of nulls -/

/-- Nulls fit an array of any type. -/
theorem elementsMatch_replicate_none (n : Nat) (element : DataType) :
    elementsMatch (List.replicate n none) element = true := by
  induction n with
  | zero => rfl
  | succ n ih =>
    rw [List.replicate_succ, elementsMatch]
    exact ih

/-- An array of nulls is written as a cell of null members. -/
theorem packItems_replicate_none (d : Dialect) (n : Nat) :
    packItems d (List.replicate n none) =
      String.ofList (d.packing.pack (List.replicate n none)) := by
  rw [packItems, List.map_replicate]
  rfl

/-- Only a null member is read as a null element. -/
theorem readElement_eq_none_iff {name : String} {text : Option String} :
    readElement name element text = .ok none ↔ text = none := by
  cases text with
  | none => simp [readElement]
  | some text => simp [readElement, Except.map_eq_ok_iff]

/-- Elements are read as nulls exactly if all of them are null. -/
theorem readElements_eq_nulls_iff {name : String} {texts : List (Option String)} {n : Nat} :
    texts.mapM (readElement name element) = .ok (List.replicate n none) ↔
      texts = List.replicate n none := by
  rw [Except.mapM_eq_ok_iff]
  induction n generalizing texts with
  | zero => simp
  | succ n ih =>
    cases texts with
    | nil => simp [List.replicate_succ]
    | cons text texts =>
      rw [List.replicate_succ, List.replicate_succ, List.forall₂_cons, List.cons.injEq, ih,
        readElement_eq_none_iff]

/-- The members of a cell are all null if their texts are. -/
theorem unpackToken_eq_nulls_iff {cell : List Char} {n : Nat} :
    unpackToken d (String.ofList cell) = List.replicate n none ↔
      d.packing.unpack cell = List.replicate n none := by
  rw [unpackToken, String.toList_ofList, List.eq_replicate_iff, List.eq_replicate_iff]
  simp

/-- An array is read of a text that is neither empty nor taken for null. -/
theorem readToken_eq_array_iff {token : String} {items : List Cell}
    (htype : field.type = .array element) (hempty : token ≠ "") (hnull : token ≠ d.nullToken) :
    readToken d field (some token) = .ok (some (.array items)) ↔
      (unpackToken d token).mapM (readElement field.name element) = .ok items := by
  have htaken : ¬ TakenForNull d field token := fun htaken => hnull htaken.1
  have hread : readValue d field.name (.array element) token =
      ((unpackToken d token).mapM (readElement field.name element)).map .array := by
    rw [readValue, if_neg (by simpa using hempty)]
    rfl
  rw [readToken_of_not_takenForNull htaken, htype, hread]
  simp [Except.map_eq_ok_iff]

/-- No policy puts a value for a cell that cannot be read. -/
theorem readCell_eq_some_iff {r : CellReader} {column : Projection.Column} {record : List String}
    {value : Value} :
    r.readCell column record = .ok (some value) ↔
      readColumn r.dialect column record = .ok (some value) := by
  rw [readCell]
  cases readColumn r.dialect column record with
  | ok cell => rfl
  | error fault =>
    simp only [reduceCtorEq, iff_false]
    split <;> simp

/-- The cell of several nulls has the text of a delimiter at least. -/
theorem packItems_nulls_ne (hp : d.packing.WellFormed) {n : Nat} (hn : 2 ≤ n) :
    packItems d (List.replicate n none) ≠ "" ∧
      packItems d (List.replicate n none) ≠ d.nullToken := by
  obtain ⟨n, rfl⟩ := Nat.exists_eq_add_of_le' hn
  rw [packItems_replicate_none]
  constructor
  · rw [ne_eq, String.ofList_eq_empty_iff, Packing.pack_eq_nil_iff hp]
    simp [List.replicate_succ]
  · intro h
    have hcell := congrArg String.toList h
    rw [String.toList_ofList] at hcell
    exact Packing.pack_ne_packMember hp (by simp) none hcell

/-- The cell of several nulls is read as such exactly if the text of null is one part. -/
theorem readToken_nulls_iff (hp : d.packing.WellFormed) (htype : field.type = .array element)
    {n : Nat} (hn : 2 ≤ n) :
    readToken d field (some (packItems d (List.replicate n none))) =
        .ok (some (.array (List.replicate n none))) ↔
      d.packing.IsOnePart d.packing.nullToken := by
  obtain ⟨hempty, hnull⟩ := packItems_nulls_ne hp hn
  rw [readToken_eq_array_iff htype hempty hnull, readElements_eq_nulls_iff,
    packItems_replicate_none, unpackToken_eq_nulls_iff,
    Packing.unpack_pack_replicate_none_iff hp hn]

/-- **Nulls without characters of the delimiter in their text are read back**, however many of them
a cell has. -/
theorem readToken_nulls_of_plainToken (hp : d.packing.WellFormed) (ht : d.packing.PlainToken)
    (htype : field.type = .array element) {n : Nat} (hn : 2 ≤ n) :
    readToken d field (some (packItems d (List.replicate n none))) =
      .ok (some (.array (List.replicate n none))) :=
  (readToken_nulls_iff hp htype hn).2 (ht.isOnePart hp)

/-- **An array of nulls is read back exactly if the text of null is one part of a cell.** -/
theorem null_elements_read_back_iff {rowType : RowType} {options : Options}
    (hd : Dialect.compile rowType options = .ok d) (htype : field.type = .array element) {n : Nat}
    (hn : 2 ≤ n) :
    ∃ token, CellWriter.writeCell d field (some (.array (List.replicate n none))) = .ok token ∧
      ∀ (r : CellReader) (record : List String) (position : Nat), r.dialect = d →
        record[position]? = some token →
        (r.readCell ⟨position, none, field⟩ record = .ok (some (.array (List.replicate n none))) ↔
          d.packing.IsOnePart (options.nullLiteral.getD "").toList) := by
  obtain ⟨hwf, -, -, -, hliteral⟩ := Dialect.of_compile hd
  have hwrite : CellWriter.writeCell d field (some (.array (List.replicate n none))) =
      .ok (packItems d (List.replicate n none)) := by
    rw [CellWriter.writeCell, htype, Value.matches, if_pos (elementsMatch_replicate_none n element)]
    rfl
  refine ⟨_, hwrite, fun r record position hdialect hrecord => ?_⟩
  subst hdialect
  have hcell : readColumn r.dialect ⟨position, none, field⟩ record =
      readToken r.dialect field (some (packItems r.dialect (List.replicate n none))) :=
    congrArg (readToken r.dialect field) hrecord
  rw [readCell_eq_some_iff, hcell, ← hliteral]
  exact readToken_nulls_iff (Dialect.packing_wellFormed hwf) htype hn

/-- A column of tags. -/
def tags : Field :=
  ⟨"tags", .array .string, true⟩

/-- The strict reader of a column of tags. -/
def tagsReader (d : Dialect) : CellReader :=
  ⟨d, [⟨0, none, tags⟩], .strict⟩

/-- Options with a null literal of the escape and a letter. -/
def escapedNullOptions : Options :=
  { Options.default with nullLiteral := some "\\N" }

/-- The dialect of `escapedNullOptions`. -/
def escapedNullDialect : Dialect :=
  ⟨Dialect.comma, some Dialect.doubleQuote, none, none, ";", some "\\N"⟩

/-- Three nulls that start with the escape are read back. -/
theorem escaped_null_elements_read_back :
    let nulls : Cell := some (.array [none, none, none])
    CellWriter.writeCell escapedNullDialect tags nulls = .ok "\\N;\\N;\\N" ∧
      (tagsReader escapedNullDialect).readCell ⟨0, none, tags⟩ ["\\N;\\N;\\N"] = .ok nulls := by
  have hcompile : Dialect.compile [tags] escapedNullOptions = .ok escapedNullDialect := by rfl
  have hp := Dialect.packing_wellFormed (Dialect.WellFormed.of_compile hcompile)
  obtain ⟨token, hwrite, hread⟩ :=
    @null_elements_read_back_iff _ tags _ _ _ hcompile rfl 3 (by decide)
  have htoken : CellWriter.writeCell escapedNullDialect tags (some (.array [none, none, none])) =
      .ok "\\N;\\N;\\N" := by rfl
  cases htoken.symm.trans hwrite
  refine ⟨htoken, (hread (tagsReader escapedNullDialect) _ 0 rfl rfl).2 ?_⟩
  exact (Packing.isOnePart_escape_cons_iff hp).2 (Packing.isOnePart_nil _)

/-- Options with a null literal that holds the delimiter of elements. -/
def slashOptions : Options :=
  { Options.default with arrayElementDelimiter := some "/", nullLiteral := some "N/A" }

/-- The dialect of `slashOptions`. -/
def slashDialect : Dialect :=
  ⟨Dialect.comma, some Dialect.doubleQuote, none, none, "/", some "N/A"⟩

/-- The null literal of `slashOptions` is cut at its slash. -/
theorem not_isOnePart_slash : ¬ slashDialect.packing.IsOnePart slashDialect.packing.nullToken := by
  intro h
  exact h.uncut ['N'] ['/', 'A'] rfl rfl (List.cons_ne_nil _ _) ⟨['A', '/'], rfl⟩

/-- **Null elements are not found again under every null literal**: a delimiter in it cuts it. -/
theorem null_elements_cut :
    ¬ ∀ (options : Options) (d : Dialect) (literal token : String),
      Dialect.compile [tags] options = .ok d → options.nullLiteral = some literal → literal ≠ "" →
      CellWriter.writeCell d tags (some (.array [none, none])) = .ok token →
      (tagsReader d).readCell ⟨0, none, tags⟩ [token] = .ok (some (.array [none, none])) := by
  intro h
  have hcompile : Dialect.compile [tags] slashOptions = .ok slashDialect := by rfl
  have hwrite : CellWriter.writeCell slashDialect tags (some (.array [none, none])) =
      .ok "N/A/N/A" := by rfl
  have hp := Dialect.packing_wellFormed (Dialect.WellFormed.of_compile hcompile)
  have hback := h slashOptions slashDialect "N/A" "N/A/N/A" hcompile rfl (by decide) hwrite
  have hnulls : packItems slashDialect (List.replicate 2 none) = "N/A/N/A" := by rfl
  rw [readCell_eq_some_iff] at hback
  refine not_isOnePart_slash ((@readToken_nulls_iff _ tags .string hp rfl 2 (Nat.le_refl 2)).1 ?_)
  rw [hnulls]
  exact hback

end CellReader

end TypedCsv
