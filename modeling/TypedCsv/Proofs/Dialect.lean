import TypedCsv.Dialect
import TypedCsv.Proofs.Steps

/-! # What a checked dialect guarantees

`Dialect.WellFormed` gathers the facts that later results use about the characters of a dialect.
`Dialect.compile_eq_ok_iff` says that a dialect comes from the options alone: the row type decides
only whether it is refused. -/

namespace TypedCsv

namespace Dialect

variable {rowType : RowType} {options : Options} {d : Dialect}

/-- The characters of a dialect are single bytes and differ where that is checked. -/
structure WellFormed (d : Dialect) : Prop where
  delimiter_lt : d.delimiter.toNat < 128
  quote_lt : ∀ quote, d.quote = some quote → quote.toNat < 128
  escape_lt : ∀ escape, d.escape = some escape → escape.toNat < 128
  quote_ne_delimiter : d.quote ≠ some d.delimiter
  escape_ne_delimiter : d.escape ≠ some d.delimiter
  escape_ne_quote : d.escape.isSome → d.escape ≠ d.quote
  elementDelimiter_ne_nil : d.elementDelimiter.toList ≠ []
  elementEscape_notMem : d.elementEscape ∉ d.elementDelimiter.toList

/-- A byte that an option gives belongs to ASCII. -/
theorem firstByte_lt {option : String} {value : List Char} {byte : UInt8}
    (h : firstByte option value = .ok byte) : byte.toNat < 128 := by
  cases value with
  | nil => cases h
  | cons c rest =>
    rw [firstByte] at h
    split at h
    · next hc =>
      cases h
      rw [UInt8.toNat_ofNat', Nat.mod_eq_of_lt (by omega)]
      exact hc
    · cases h

/-- A requirement passes if its condition holds. -/
theorem require_eq_ok_iff {condition : Bool} {option : String} {reason : Options.Reason}
    {u : Unit} : require condition option reason = .ok u ↔ condition = true := by
  cases condition <;> simp [require]

/-- The options decide on the dialect; the row type can only be refused. -/
theorem compile_eq_ok_iff :
    compile rowType options = .ok d ↔ checkFlat rowType = .ok () ∧ compile [] options = .ok d := by
  have hsplit : compile rowType options = checkFlat rowType >>= fun _ => compile [] options := rfl
  rw [hsplit, Except.bind_eq_ok_iff]
  constructor
  · rintro ⟨⟨⟩, h⟩
    exact h
  · exact fun h => ⟨(), h⟩

/-- The delimiter of a dialect belongs to ASCII. -/
theorem compileDelimiter_lt {delimiter : UInt8} (h : compileDelimiter options = .ok delimiter) :
    delimiter.toNat < 128 := by
  unfold compileDelimiter at h
  split at h
  · exact firstByte_lt h
  · cases h
    decide

/-- An optional character that is set is a single byte. -/
theorem toNat_lt_of_map_firstByte {option : String} {value : List Char} {found : Option UInt8}
    (h : (firstByte option value).map some = .ok found) :
    ∃ byte, found = some byte ∧ byte.toNat < 128 := by
  cases hb : firstByte option value with
  | error fault => rw [hb] at h; cases h
  | ok byte =>
    rw [hb] at h
    cases h
    exact ⟨byte, rfl, firstByte_lt hb⟩

/-- The quote belongs to ASCII, and there is one unless quoting is disabled. -/
theorem quote_of_compileQuote {quote : Option UInt8} (h : compileQuote options = .ok quote) :
    (∀ byte, quote = some byte → byte.toNat < 128) ∧
      quote.isSome = ! options.quotingDisabled := by
  unfold compileQuote at h
  split at h
  · next hq =>
    cases h
    simp [hq]
  · next hq =>
    split at h
    · obtain ⟨byte, rfl, hb⟩ := toNat_lt_of_map_firstByte h
      simpa [hq] using hb
    · cases h
      simp [hq, doubleQuote]

/-- The escape belongs to ASCII, and there is one if the options give one. -/
theorem escape_of_compileEscape {escape : Option UInt8} (h : compileEscape options = .ok escape) :
    (∀ byte, escape = some byte → byte.toNat < 128) ∧
      escape.isSome = options.escapeCharacter.isSome := by
  unfold compileEscape at h
  split at h
  · next hq =>
    obtain ⟨byte, rfl, hb⟩ := toNat_lt_of_map_firstByte h
    simpa [hq] using hb
  · next hq =>
    cases h
    simp [hq]

/-- The delimiter of elements is not empty. -/
theorem elementDelimiter_ne_nil_of_compile {elements : String}
    (h : compileElementDelimiter options = .ok elements) : elements.toList ≠ [] := by
  unfold compileElementDelimiter at h
  split at h
  · split at h
    · cases h
    · next hne =>
      cases h
      simpa using hne
  · cases h
    decide

/-- A dialect that comes from options is well formed, and takes its flags from them. -/
theorem of_compile (h : compile rowType options = .ok d) :
    d.WellFormed ∧ (d.quote.isSome = ! options.quotingDisabled) ∧
      (d.escape.isSome = options.escapeCharacter.isSome) ∧
      d.comment = (if options.allowComments then some hash else none) ∧
      d.nullLiteral = options.nullLiteral := by
  simp only [compile, Except.bind_eq_ok_iff, require_eq_ok_iff] at h
  obtain ⟨_, -, delimiter, hdelimiter, quote, hquote, _, hqd, elements, helements, escape,
    hescape, _, hesc, _, hel, hd⟩ := h
  cases hd
  -- each check of the compilation is one field
  obtain ⟨hquote, hquoting⟩ := quote_of_compileQuote hquote
  obtain ⟨hescape, hescaping⟩ := escape_of_compileEscape hescape
  refine ⟨⟨compileDelimiter_lt hdelimiter, hquote, hescape, ?_, ?_, ?_,
    elementDelimiter_ne_nil_of_compile helements, ?_⟩, hquoting, hescaping, rfl, rfl⟩
  · simpa using hqd
  · intro he
    have he : escape = some delimiter := he
    simp [he] at hesc
  · intro hsome
    have hsome : escape.isSome = true := hsome
    simp only [Option.isNone_eq_false_iff.2 hsome, Bool.false_or, Bool.and_eq_true,
      bne_iff_ne] at hesc
    exact hesc.2
  · simpa using hel

/-- A byte that may not start a comment is no comment marker. -/
theorem comment_ne_of_compile (h : compile rowType options = .ok d) {byte : UInt8}
    (hbyte : options.allowComments = true → byte ≠ hash) : d.comment ≠ some byte := by
  rw [(of_compile h).2.2.2.1]
  by_cases hallow : options.allowComments = true
  · rw [if_pos hallow]
    intro heq
    exact hbyte hallow (Option.some.inj heq).symm
  · rw [if_neg hallow]
    intro heq
    cases heq

/-- Every compiled dialect is well formed. -/
theorem WellFormed.of_compile (h : compile rowType options = .ok d) : d.WellFormed :=
  (Dialect.of_compile h).1

end Dialect

end TypedCsv
