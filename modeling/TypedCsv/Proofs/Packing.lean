import Mathlib.Data.List.Basic
import TypedCsv.Packing

/-! # Packed members are found again

The members of a packed cell are the members that were packed (`Packing.unpack_pack`), an empty
text apart where null has no text either. The delimiter may have any length and may overlap itself:
what makes this work is that no unprotected place of a member starts a delimiter
(`Packing.not_prefix_of_not_delimiterStarts`), whatever stands behind the member.

Nothing is made up on the way: the texts of members are parts of that of their cell
(`Packing.sublist_of_mem_unpack`), and a cell holds their characters and those of the packing
(`Packing.mem_of_mem_pack`).

* `Packing.WellFormed`: what is checked of a delimiter and its escape.
* `Packing.PlainToken`: a text of null that neither looks like a delimiter nor is changed by the
  escape. -/

namespace TypedCsv.Packing

variable {p : Packing}

/-- A delimiter that can be protected by the escape. -/
structure WellFormed (p : Packing) : Prop where
  delimiter_ne_nil : p.delimiter ≠ []
  escape_notMem : p.escape ∉ p.delimiter

/-- A text of null without characters of the delimiter. The escape may only be its first
character, in front of another one. -/
structure PlainToken (p : Packing) : Prop where
  notMem_delimiter : ∀ c ∈ p.nullToken, c ∉ p.delimiter
  escape_notMem_tail : p.escape ∉ p.nullToken.tail
  ne_escape : p.nullToken ≠ [p.escape]

/-! ## Steps of the reading -/

/-- The parts of a cell with a piece in front of the first one, given as it stands and with its
escapes resolved. -/
def prepend (raw text : List Char) (parts : (List Char × List Char) × List Member) :
    (List Char × List Char) × List Member :=
  ((raw ++ parts.1.1, text ++ parts.1.2), parts.2)

/-- Pieces are put in front one after the other. -/
@[simp] theorem prepend_prepend (raw raw' text text' : List Char)
    (parts : (List Char × List Char) × List Member) :
    prepend raw text (prepend raw' text' parts) = prepend (raw ++ raw') (text ++ text') parts := by
  simp [prepend]

/-- A cell is unpacked into its first part, as a member, and its other members. -/
theorem unpack_eq (p : Packing) (cell : List Char) :
    p.unpack cell =
      p.member (p.unpackFrom cell).1.1 (p.unpackFrom cell).1.2 :: (p.unpackFrom cell).2 := rfl

/-- An empty cell has one empty part. -/
@[simp] theorem unpackFrom_nil (p : Packing) : p.unpackFrom [] = (([], []), []) := by
  rw [unpackFrom]

/-- The character after an escape is literal. -/
theorem unpackFrom_escape (p : Packing) (c : Char) (rest : List Char) :
    p.unpackFrom (p.escape :: c :: rest) =
      prepend [p.escape, c] [c] (p.unpackFrom rest) := by
  rw [unpackFrom.eq_def]
  dsimp only
  rw [if_pos rfl]
  rfl

/-- A character that neither escapes nor starts a delimiter belongs to the first part. -/
theorem unpackFrom_of_not_prefix {c : Char} {rest : List Char} (hc : c ≠ p.escape)
    (hd : ¬ p.delimiter <+: c :: rest) :
    p.unpackFrom (c :: rest) = prepend [c] [c] (p.unpackFrom rest) := by
  have hd : ¬ p.delimiter.isPrefixOf (c :: rest) = true := by rwa [List.isPrefixOf_iff_prefix]
  rw [unpackFrom.eq_def]
  dsimp only
  rw [if_neg hc, if_neg hd]
  rfl

/-- A delimiter ends a part. -/
theorem unpackFrom_delimiter (hp : p.WellFormed) (rest : List Char) :
    p.unpackFrom (p.delimiter ++ rest) = (([], []), p.unpack rest) := by
  have hbegins : p.delimiter.isPrefixOf (p.delimiter ++ rest) = true := by
    rw [List.isPrefixOf_iff_prefix]
    exact List.prefix_append _ _
  have hnotMem := hp.escape_notMem
  have hlength : p.delimiter.length - 1 = p.delimiter.tail.length := by simp
  cases hdelimiter : p.delimiter with
  | nil => exact absurd hdelimiter hp.delimiter_ne_nil
  | cons c delimiter =>
    rw [hdelimiter] at hbegins hnotMem
    rw [List.cons_append] at hbegins ⊢
    have hc : ¬ c = p.escape := fun h => hnotMem (h ▸ List.mem_cons_self)
    rw [unpackFrom.eq_def]
    dsimp only
    rw [if_neg hc, hlength, hdelimiter, if_pos hbegins, List.tail_cons, List.drop_left]
    rfl

/-! ## Members -/

/-- What may stand behind a member: the end of the cell, or a delimiter. -/
def IsTail (p : Packing) (tail : List Char) : Prop :=
  tail = [] ∨ ∃ rest, tail = p.delimiter ++ rest

/-- A piece without the escape that stands at the start of a protected text stands at the start of
the text itself. -/
theorem prefix_of_prefix_protect {piece text tail : List Char} (hpiece : p.escape ∉ piece)
    (h : piece <+: p.protect text ++ tail) : piece <+: text ++ tail := by
  induction text generalizing piece with
  | nil => exact h
  | cons c text ih =>
    cases piece with
    | nil => exact List.nil_prefix
    | cons c' piece =>
      rw [List.mem_cons, not_or] at hpiece
      rw [protect] at h
      split at h
      · -- the first character of the protected text would be the escape
        rw [List.cons_append, List.cons_prefix_cons] at h
        exact absurd h.1.symm hpiece.1
      · rw [List.cons_append, List.cons_prefix_cons] at h ⊢
        exact ⟨h.1, ih hpiece.2 h.2⟩

/-- Whatever stands behind a member, no delimiter starts at a place of it that is not
protected. -/
theorem not_prefix_of_not_delimiterStarts {text tail : List Char} (htail : p.IsTail tail)
    (h : ¬ p.delimiterStarts text = true) : ¬ p.delimiter <+: text ++ tail := by
  rw [delimiterStarts, List.isPrefixOf_iff_prefix] at h
  intro hbegins
  apply h
  rcases htail with rfl | ⟨rest, rfl⟩
  · rw [List.append_nil] at hbegins
    have htake : p.delimiter <+: text.take p.delimiter.length :=
      List.prefix_take_iff.2 ⟨hbegins, Nat.le_refl _⟩
    exact htake.trans (List.prefix_append _ _)
  · -- only as many characters count as the delimiter has
    have htake := List.prefix_take_iff.2 ⟨hbegins, Nat.le_refl p.delimiter.length⟩
    rw [List.take_append] at htake
    refine htake.trans ?_
    rw [List.prefix_append_right_inj, List.take_append_of_le_length (by omega)]
    exact List.take_prefix _ _

/-- A protected text is read as the text. -/
theorem unpackFrom_protect (hp : p.WellFormed) {tail : List Char} (htail : p.IsTail tail)
    (text : List Char) :
    p.unpackFrom (p.protect text ++ tail) =
      prepend (p.protect text) text (p.unpackFrom tail) := by
  induction text with
  | nil => rfl
  | cons c text ih =>
    rw [protect]
    split
    · -- the escape in front of the character is undone
      rw [List.cons_append, List.cons_append, unpackFrom_escape, ih, prepend_prepend]
      rfl
    · -- the character is neither an escape nor the start of a delimiter
      next h =>
      rw [not_or] at h
      obtain ⟨hc, hstarts⟩ := h
      have hd : ¬ p.delimiter <+: c :: (p.protect text ++ tail) := by
        intro hbegins
        have hprotect : p.delimiter <+: p.protect (c :: text) ++ tail := by
          rw [protect, if_neg (not_or.2 ⟨hc, hstarts⟩)]
          exact hbegins
        exact not_prefix_of_not_delimiterStarts htail hstarts
          (prefix_of_prefix_protect hp.escape_notMem hprotect)
      rw [List.cons_append, unpackFrom_of_not_prefix hc hd, ih, prepend_prepend]
      rfl

/-- Characters that are neither the escape nor in the delimiter are read as they stand. -/
theorem unpackFrom_plain (hp : p.WellFormed) {text : List Char} (hescape : p.escape ∉ text)
    (hdelimiter : ∀ c ∈ text, c ∉ p.delimiter) (tail : List Char) :
    p.unpackFrom (text ++ tail) = prepend text text (p.unpackFrom tail) := by
  induction text with
  | nil => rfl
  | cons c text ih =>
    rw [List.mem_cons, not_or] at hescape
    rw [List.forall_mem_cons] at hdelimiter
    have hd : ¬ p.delimiter <+: c :: (text ++ tail) := by
      intro hbegins
      obtain ⟨d, delimiter, hcons⟩ := List.exists_cons_of_ne_nil hp.delimiter_ne_nil
      rw [hcons, List.cons_prefix_cons] at hbegins
      apply hdelimiter.1
      rw [hcons, hbegins.1]
      exact List.mem_cons_self
    rw [List.cons_append, unpackFrom_of_not_prefix (Ne.symm hescape.1) hd,
      ih hescape.2 hdelimiter.2, prepend_prepend]
    rfl

/-- The text of null is kept as it stands. -/
theorem unpackFrom_nullToken (hp : p.WellFormed) (ht : p.PlainToken) (tail : List Char) :
    ∃ text, p.unpackFrom (p.nullToken ++ tail) =
      prepend p.nullToken text (p.unpackFrom tail) := by
  have htail := ht.escape_notMem_tail
  have hdisjoint := ht.notMem_delimiter
  cases htoken : p.nullToken with
  | nil => exact ⟨[], rfl⟩
  | cons c token =>
    rw [htoken, List.tail_cons] at htail
    rw [htoken, List.forall_mem_cons] at hdisjoint
    by_cases hc : c = p.escape
    · -- the escape takes the next character with it
      subst hc
      cases token with
      | nil => exact absurd htoken ht.ne_escape
      | cons c token =>
        rw [List.mem_cons, not_or] at htail
        rw [List.forall_mem_cons] at hdisjoint
        refine ⟨c :: token, ?_⟩
        rw [List.cons_append, List.cons_append, unpackFrom_escape,
          unpackFrom_plain hp htail.2 hdisjoint.2.2, prepend_prepend]
        rfl
    · refine ⟨c :: token, unpackFrom_plain hp ?_ ?_ tail⟩
      · rw [List.mem_cons, not_or]
        exact ⟨Ne.symm hc, htail⟩
      · rw [List.forall_mem_cons]
        exact hdisjoint

/-! ## Texts that look like null -/

/-- A text whose protected form is that of null starts with a character that is not protected. -/
theorem protect_cons_of_eq_nullToken (hp : p.WellFormed) (ht : p.PlainToken) {c : Char}
    {text : List Char} (h : p.protect (c :: text) = p.nullToken) :
    p.nullToken = c :: p.protect text := by
  rw [← h, protect, if_neg]
  rw [protect] at h
  intro hprotected
  rw [if_pos hprotected] at h
  have htail := ht.escape_notMem_tail
  rw [← h, List.tail_cons, List.mem_cons, not_or] at htail
  rcases hprotected with hc | hstarts
  · exact htail.1 hc.symm
  · -- the character would be the first one of the delimiter
    obtain ⟨d, delimiter, hcons⟩ := List.exists_cons_of_ne_nil hp.delimiter_ne_nil
    rw [delimiterStarts, List.isPrefixOf_iff_prefix, hcons, List.length_cons, List.take_succ_cons,
      List.cons_append, List.cons_prefix_cons] at hstarts
    refine ht.notMem_delimiter c ?_ ?_
    · rw [← h]
      exact List.mem_cons_of_mem _ List.mem_cons_self
    · rw [hcons, hstarts.1]
      exact List.mem_cons_self

/-- A packed text is read as the text. -/
theorem unpackFrom_packText (hp : p.WellFormed) (ht : p.PlainToken) {tail : List Char}
    (htail : p.IsTail tail) (text : List Char) :
    p.unpackFrom (p.packText text ++ tail) =
      prepend (p.packText text) text (p.unpackFrom tail) := by
  by_cases h : p.nullToken ≠ [] ∧ p.protect text = p.nullToken
  · -- the additional escape falls on a character that is none itself
    have hpack : p.packText text = p.escape :: p.protect text := if_pos h
    cases text with
    | nil => exact absurd h.2.symm h.1
    | cons c text =>
      have hprotect : p.protect (c :: text) = c :: p.protect text :=
        h.2.trans (protect_cons_of_eq_nullToken hp ht h.2)
      rw [hpack, hprotect, List.cons_append, List.cons_append, unpackFrom_escape,
        unpackFrom_protect hp htail, prepend_prepend]
      rfl
  · have hpack : p.packText text = p.protect text := if_neg h
    rw [hpack, unpackFrom_protect hp htail]

/-- Only the empty text is protected as the empty text. -/
theorem protect_eq_nil_iff {text : List Char} : p.protect text = [] ↔ text = [] := by
  cases text with
  | nil => simp [protect]
  | cons c text =>
    rw [protect]
    split <;> simp

/-- The empty text is packed as it is. -/
@[simp] theorem packText_nil (p : Packing) : p.packText [] = [] := by
  rw [packText, protect, if_neg]
  rintro ⟨hne, heq⟩
  exact hne heq.symm

/-- Only the empty text is packed as the empty text. -/
theorem packText_eq_nil_iff {text : List Char} : p.packText text = [] ↔ text = [] := by
  rw [packText]
  split
  · next h =>
    constructor
    · intro hnil
      cases hnil
    · rintro rfl
      exact absurd h.2.symm h.1
  · exact protect_eq_nil_iff

/-- Only the empty text can look like null, where null has no text. -/
theorem packText_eq_nullToken_iff {text : List Char} :
    p.packText text = p.nullToken ↔ p.nullToken = [] ∧ text = [] := by
  constructor
  · intro h
    by_cases hbody : p.nullToken ≠ [] ∧ p.protect text = p.nullToken
    · have hpack : p.packText text = p.escape :: p.protect text := if_pos hbody
      rw [hpack, hbody.2] at h
      exact absurd h (List.cons_ne_self _ _)
    · have hpack : p.packText text = p.protect text := if_neg hbody
      rw [hpack] at h
      have hnil : p.nullToken = [] := by
        by_contra hne
        exact hbody ⟨hne, h⟩
      rw [hnil, protect_eq_nil_iff] at h
      exact ⟨hnil, h⟩
  · rintro ⟨hnil, rfl⟩
    rw [packText_nil, hnil]

/-! ## Cells -/

/-- What is found again of a member. -/
def restore (p : Packing) (member : Member) : Member :=
  if p.nullToken = [] ∧ member = some [] then none else member

/-- A packed member is read as itself. -/
theorem unpackFrom_packMember (hp : p.WellFormed) (ht : p.PlainToken) {tail : List Char}
    (htail : p.IsTail tail) (member : Member) :
    ∃ text, p.unpackFrom (p.packMember member ++ tail) =
        prepend (p.packMember member) text (p.unpackFrom tail) ∧
      p.member (p.packMember member) text = p.restore member := by
  cases member with
  | none =>
    obtain ⟨text, h⟩ := unpackFrom_nullToken hp ht tail
    refine ⟨text, h, ?_⟩
    rw [packMember, Packing.member, if_pos rfl, restore, if_neg]
    rintro ⟨-, h⟩
    cases h
  | some text =>
    refine ⟨text, unpackFrom_packText hp ht htail text, ?_⟩
    rw [packMember, Packing.member, restore]
    simp only [packText_eq_nullToken_iff, Option.some.injEq]

/-- The members of a cell stand between delimiters. -/
theorem pack_cons {members : List Member} (hne : members ≠ []) (member : Member) :
    p.pack (member :: members) = p.packMember member ++ (p.delimiter ++ p.pack members) := by
  rw [pack, List.map_cons, List.intercalate_cons_of_ne_nil (by simpa using hne), List.append_assoc]
  rfl

/-- A cell of several members holds a delimiter. -/
theorem exists_mem_pack (hp : p.WellFormed) (member member' : Member) (members : List Member) :
    ∃ c ∈ p.pack (member :: member' :: members), c ∈ p.delimiter := by
  obtain ⟨c, delimiter, hcons⟩ := List.exists_cons_of_ne_nil hp.delimiter_ne_nil
  have hc : c ∈ p.delimiter := by
    rw [hcons]
    exact List.mem_cons_self
  refine ⟨c, ?_, hc⟩
  rw [pack_cons (List.cons_ne_nil _ _), List.mem_append, List.mem_append]
  exact Or.inr (Or.inl hc)

/-- Without members the cell is empty. -/
@[simp] theorem pack_nil (p : Packing) : p.pack [] = [] := rfl

/-- A single member is a cell of its own. -/
@[simp] theorem pack_singleton (p : Packing) (member : Member) :
    p.pack [member] = p.packMember member := by
  simp [pack]

/-- The cells that look like null. -/
theorem pack_eq_nullToken_iff (hp : p.WellFormed) (ht : p.PlainToken) (members : List Member) :
    p.pack members = p.nullToken ↔
      members = [none] ∨ p.nullToken = [] ∧ (members = [] ∨ members = [some []]) := by
  match members with
  | [] => simp [eq_comm]
  | [none] => simp [packMember]
  | [some text] =>
    rw [pack_singleton, packMember, packText_eq_nullToken_iff]
    simp
  | member :: member' :: members =>
    -- the text of null has no character of the delimiter
    obtain ⟨c, hcell, hdelimiter⟩ :=
      exists_mem_pack hp member member' members
    simp only [List.cons.injEq, reduceCtorEq, and_false, or_false, iff_false]
    intro h
    exact ht.notMem_delimiter c (h ▸ hcell) hdelimiter

/-- The cells without a text. -/
theorem pack_eq_nil_iff (hp : p.WellFormed) (members : List Member) :
    p.pack members = [] ↔
      members = [] ∨ members = [some []] ∨ p.nullToken = [] ∧ members = [none] := by
  match members with
  | [] => simp
  | [none] => simp [packMember]
  | [some text] =>
    rw [pack_singleton, packMember, packText_eq_nil_iff]
    simp
  | member :: member' :: members =>
    obtain ⟨c, hcell, -⟩ :=
      exists_mem_pack hp member member' members
    simp only [List.cons.injEq, reduceCtorEq, and_false, or_false, iff_false]
    intro h
    rw [h] at hcell
    cases hcell

/-- **The members of a packed cell are the members that were packed**, an empty text apart where
null has no text either. -/
theorem unpack_pack (hp : p.WellFormed) (ht : p.PlainToken) {members : List Member}
    (hne : members ≠ []) : p.unpack (p.pack members) = members.map p.restore := by
  induction members with
  | nil => exact absurd rfl hne
  | cons member members ih =>
    by_cases hlast : members = []
    · -- the last member ends with the cell
      subst hlast
      obtain ⟨text, hfrom, hmember⟩ := unpackFrom_packMember hp ht (Or.inl rfl) member
      rw [List.append_nil, unpackFrom_nil] at hfrom
      rw [pack_singleton, unpack_eq, hfrom]
      simp [prepend, hmember]
    · -- any other member ends with a delimiter
      obtain ⟨text, hfrom, hmember⟩ :=
        unpackFrom_packMember hp ht (Or.inr ⟨p.pack members, rfl⟩) member
      rw [unpackFrom_delimiter hp, ih hlast] at hfrom
      rw [pack_cons hlast, unpack_eq, hfrom]
      simp [prepend, hmember]

/-! ## Where members come from -/

/-- A part that is not null is its text with the escapes resolved. -/
theorem eq_of_member_eq_some {raw text found : List Char}
    (h : p.member raw text = some found) : found = text := by
  rw [member] at h
  split at h
  · cases h
  · exact (Option.some.inj h).symm

/-- The members of a cell are parts of its text, and a cell of one part is that part as it
stands. -/
theorem unpackFrom_parts (p : Packing) (cell : List Char) :
    (p.unpackFrom cell).1.2.Sublist cell ∧
      (∀ text, some text ∈ (p.unpackFrom cell).2 → text.Sublist cell) ∧
      ((p.unpackFrom cell).2 = [] → (p.unpackFrom cell).1.1 = cell) := by
  fun_induction unpackFrom p cell with
  | case1 => simp
  | case2 => simp
  | case3 next rest raw text members hrest ih =>
    -- the escape and the character behind it
    rw [hrest] at ih
    obtain ⟨hfirst, hothers, hraw⟩ := ih
    exact ⟨.cons _ (hfirst.cons_cons next), fun _ hmem => .cons _ (.cons _ (hothers _ hmem)),
      fun hnil => congrArg (p.escape :: next :: ·) (hraw hnil)⟩
  | case4 c rest hc hd raw text members hrest ih =>
    -- a delimiter ends an empty part
    rw [hrest] at ih
    obtain ⟨hfirst, hothers, -⟩ := ih
    have hdrop : (rest.drop (p.delimiter.length - 1)).Sublist (c :: rest) :=
      .cons _ (List.drop_sublist _ _)
    refine ⟨List.nil_sublist _, fun found hmem => ?_, fun hnil => by cases hnil⟩
    obtain hfound | hmem := List.mem_cons.1 hmem
    · rw [eq_of_member_eq_some hfound.symm]
      exact hfirst.trans hdrop
    · exact (hothers _ hmem).trans hdrop
  | case5 c rest hc hd raw text members hrest ih =>
    rw [hrest] at ih
    obtain ⟨hfirst, hothers, hraw⟩ := ih
    exact ⟨hfirst.cons_cons c, fun _ hmem => .cons _ (hothers _ hmem),
      fun hnil => congrArg (c :: ·) (hraw hnil)⟩

/-- The text of a member is a part of the text of its cell. -/
theorem sublist_of_mem_unpack {cell text : List Char} (h : some text ∈ p.unpack cell) :
    text.Sublist cell := by
  obtain ⟨hfirst, hothers, -⟩ := p.unpackFrom_parts cell
  rw [unpack_eq] at h
  obtain hfound | hmem := List.mem_cons.1 h
  · rw [eq_of_member_eq_some hfound.symm]
    exact hfirst
  · exact hothers _ hmem

/-- A single null is found in the text of null alone. -/
theorem eq_nullToken_of_unpack {cell : List Char} (h : p.unpack cell = [none]) :
    cell = p.nullToken := by
  obtain ⟨-, -, hraw⟩ := p.unpackFrom_parts cell
  rw [unpack_eq, List.cons.injEq, member] at h
  obtain ⟨hnull, hnil⟩ := h
  rw [hraw hnil] at hnull
  by_contra hne
  rw [if_neg hne] at hnull
  cases hnull

/-- Protecting a text adds escapes only. -/
theorem mem_of_mem_protect {c : Char} {text : List Char} (h : c ∈ p.protect text) :
    c = p.escape ∨ c ∈ text := by
  induction text with
  | nil => cases h
  | cons c' text ih =>
    rw [protect] at h
    split at h <;> simp only [List.mem_cons] at h ⊢ <;> tauto

/-- The form of a member has its own characters, those of null, and escapes. -/
theorem mem_of_mem_packMember {c : Char} {member : Member} (h : c ∈ p.packMember member) :
    c = p.escape ∨ c ∈ p.nullToken ∨ ∃ text, member = some text ∧ c ∈ text := by
  cases member with
  | none => exact Or.inr (Or.inl h)
  | some text =>
    -- the form of a text has at most one more escape in front of the protected text
    have hbody : c ∈ p.escape :: p.protect text := by
      rw [packMember, packText] at h
      split at h
      · exact h
      · exact List.mem_cons_of_mem _ h
    obtain hc | hc := List.mem_cons.1 hbody
    · exact Or.inl hc
    · exact (mem_of_mem_protect hc).imp_right fun hc => Or.inr ⟨text, rfl, hc⟩

/-- A packed cell holds characters of the packing and of its members. -/
theorem mem_of_mem_pack {c : Char} {members : List Member} (h : c ∈ p.pack members) :
    c ∈ p.delimiter ∨ c = p.escape ∨ c ∈ p.nullToken ∨ ∃ text, some text ∈ members ∧ c ∈ text := by
  obtain hc | ⟨member, hmember, hc⟩ :
      c ∈ p.delimiter ∨ ∃ member ∈ members, c ∈ p.packMember member := by
    induction members with
    | nil => cases h
    | cons member members ih =>
      by_cases hlast : members = []
      · subst hlast
        rw [pack_singleton] at h
        exact Or.inr ⟨member, List.mem_cons_self, h⟩
      · rw [pack_cons hlast, List.mem_append, List.mem_append] at h
        obtain h | h | h := h
        · exact Or.inr ⟨member, List.mem_cons_self, h⟩
        · exact Or.inl h
        · exact (ih h).imp_right fun ⟨other, hother, hc⟩ =>
            ⟨other, List.mem_cons_of_mem _ hother, hc⟩
  · exact Or.inl hc
  · obtain h | h | ⟨text, rfl, htext⟩ := mem_of_mem_packMember hc
    · exact Or.inr (Or.inl h)
    · exact Or.inr (Or.inr (Or.inl h))
    · exact Or.inr (Or.inr (Or.inr ⟨text, hmember, htext⟩))

end TypedCsv.Packing
