import Mathlib.Algebra.GroupWithZero.Nat
import TypedCsv.Guid
import TypedCsv.Proofs.Text.Utf8

/-! # Identifiers are read back

`Guid.read_display`: the text of an identifier is read as the identifier. -/

namespace TypedCsv.Guid

/-! ## Hexadecimal digits -/

/-- A hexadecimal character is read as its digit. -/
theorem hexDigit?_hexChar {d : Nat} (h : d < 16) : hexDigit? (hexChar d) = some d := by
  revert d
  decide

/-- A digit is a byte and no hyphen. -/
theorem hexChar_plain {d : Nat} (h : d < 16) : (hexChar d).toNat < 128 ∧ hexChar d ≠ '-' := by
  revert d
  decide

/-- The characters of a hexadecimal text are those of digits. -/
theorem exists_of_mem_hexText {width n : Nat} {c : Char} (h : c ∈ hexText width n) :
    ∃ d, d < 16 ∧ c = hexChar d := by
  induction width generalizing n with
  | zero => cases h
  | succ width ih =>
    rw [hexText, List.mem_append, List.mem_singleton] at h
    rcases h with h | h
    · exact ih h
    · exact ⟨n % 16, Nat.mod_lt n (by decide), h⟩

/-- A hexadecimal text is as long as its width. -/
@[simp] theorem length_hexText (width n : Nat) : (hexText width n).length = width := by
  induction width generalizing n with
  | zero => rfl
  | succ width ih => rw [hexText, List.length_append, ih, List.length_singleton]

/-- The last digits of a number stand for its remainder. -/
theorem foldl_hexText (start width n : Nat) :
    (hexText width n).foldl (fun n c => n * 16 + (hexDigit? c).getD 0) start =
      start * 16 ^ width + n % 16 ^ width := by
  induction width generalizing n with
  | zero => simp [hexText, Nat.mod_one]
  | succ width ih =>
    rw [hexText, List.foldl_append, ih, List.foldl_cons, List.foldl_nil,
      hexDigit?_hexChar (Nat.mod_lt n (by decide)), Option.getD_some]
    -- the remainder is made of that of the digits in front and the last digit
    have hmod : n % 16 ^ (width + 1) = n / 16 % 16 ^ width * 16 + n % 16 := by
      rw [Nat.pow_succ, Nat.mul_comm, Nat.mod_mul]
      omega
    rw [hmod, Nat.pow_succ, Nat.add_mul, Nat.mul_assoc, Nat.add_assoc]

/-- The digits of an identifier are read as the identifier. -/
theorem ofDigits?_hexText (g : Guid) : ofDigits? (hexText 32 g.value) = some g := by
  have hall : (hexText 32 g.value).all isHexDigit = true := by
    rw [List.all_eq_true]
    intro c hc
    obtain ⟨d, hd, rfl⟩ := exists_of_mem_hexText hc
    rw [isHexDigit, hexDigit?_hexChar hd]
    rfl
  have hlt : g.value < 16 ^ 32 := by
    have := g.value_lt
    omega
  have hvalue := foldl_hexText 0 32 g.value
  rw [Nat.zero_mul, Nat.zero_add, Nat.mod_eq_of_lt hlt] at hvalue
  rw [ofDigits?, if_pos ⟨length_hexText 32 g.value, hall⟩]
  dsimp only
  rw [hvalue, dif_pos g.value_lt]

/-! ## Groups -/

/-- Groups hold all of a text if they are wide enough. -/
theorem flatten_groups {widths : List Nat} {text : List Char} (h : text.length = widths.sum) :
    (groups widths text).flatten = text := by
  induction widths generalizing text with
  | nil =>
    rw [List.sum_nil, List.length_eq_zero_iff] at h
    rw [h]
    rfl
  | cons width widths ih =>
    rw [List.sum_cons] at h
    rw [groups, List.flatten_cons, ih, List.take_append_drop]
    rw [List.length_drop]
    omega

/-- Hyphens between parts are filtered out of them. -/
theorem filter_intercalate {parts : List (List Char)} (h : ∀ part ∈ parts, '-' ∉ part) :
    (['-'].intercalate parts).filter (· != '-') = parts.flatten := by
  have hpart {part : List Char} (hpart : '-' ∉ part) : part.filter (· != '-') = part := by
    rw [List.filter_eq_self]
    intro c hc
    rw [bne_iff_ne]
    rintro rfl
    exact hpart hc
  induction parts with
  | nil => rfl
  | cons part parts ih =>
    rw [List.forall_mem_cons] at h
    by_cases hlast : parts = []
    · subst hlast
      simp [hpart h.1]
    · rw [List.intercalate_cons_of_ne_nil hlast, List.filter_append, List.filter_append, ih h.2,
        hpart h.1]
      simp

/-- A group of characters holds only characters of its text. -/
theorem mem_of_mem_groups {widths : List Nat} {text part : List Char}
    (h : part ∈ groups widths text) {c : Char} (hc : c ∈ part) : c ∈ text := by
  induction widths generalizing text with
  | nil => cases h
  | cons width widths ih =>
    rw [groups, List.mem_cons] at h
    rcases h with rfl | h
    · exact List.mem_of_mem_take hc
    · exact List.mem_of_mem_drop (ih h)

/-- Without its hyphens the text of an identifier is its digits. -/
theorem filter_display (g : Guid) : g.display.filter (· != '-') = hexText 32 g.value := by
  have hparts : ∀ part ∈ groups groupWidths (hexText 32 g.value), '-' ∉ part := by
    intro part hpart hc
    obtain ⟨d, hd, heq⟩ := exists_of_mem_hexText (mem_of_mem_groups hpart hc)
    exact (hexChar_plain hd).2 heq.symm
  rw [display, filter_intercalate hparts, flatten_groups]
  rw [length_hexText]
  rfl

/-- The groups of a displayed identifier are read as the identifier. -/
theorem ofGroups?_display (g : Guid) : ofGroups? g.display = some g := by
  rw [ofGroups?, filter_display, ← display, if_pos rfl, ofDigits?_hexText]

/-- The characters of an identifier are digits and hyphens. -/
theorem mem_display {g : Guid} {c : Char} (h : c ∈ g.display) :
    c = '-' ∨ ∃ d, d < 16 ∧ c = hexChar d := by
  by_cases hc : c = '-'
  · exact Or.inl hc
  · have hmem : c ∈ g.display.filter (· != '-') := by
      rw [List.mem_filter, bne_iff_ne]
      exact ⟨h, hc⟩
    rw [filter_display] at hmem
    exact Or.inr (exists_of_mem_hexText hmem)

/-- An identifier is displayed with 36 characters. -/
theorem length_display (g : Guid) : g.display.length = 36 := by
  have hlength := length_hexText 32 g.value
  rw [display]
  generalize hexText 32 g.value = digits at hlength
  simp [groups, groupWidths, List.intercalate, hlength]

/-- An identifier is displayed with 36 bytes. -/
theorem byteLength_display (g : Guid) : byteLength g.display = 36 := by
  rw [byteLength, Utf8.length_encode_of_lt, length_display]
  intro c hc
  rcases mem_display hc with rfl | ⟨d, hd, rfl⟩
  · decide
  · exact (hexChar_plain hd).1

/-- The text of an identifier is read as the identifier. -/
theorem read_display (g : Guid) : read g.display = .ok g := by
  rw [read, byteLength_display, if_neg (by decide), if_pos rfl, ofGroups?_display]

end TypedCsv.Guid
