import Mathlib.Data.List.Basic
import TypedCsv.Dialect
import TypedCsv.Proofs.Steps

/-! # Texts and their bytes

Reading the bytes of a text gives the text (`Utf8.decode_encode`), and no other bytes give it
(`Utf8.encode_of_decode`). A byte below 128 is a character of its own wherever it occurs
(`Utf8.mem_encode_iff`): what a framing does to such bytes it does to characters. -/

namespace TypedCsv.Utf8

/-! ## Reading one character -/

section Leads

variable {index : Nat} {a b c d : UInt8} {rest : List UInt8}

/-- A byte below `0x80` is a character of its own. -/
theorem decodeFrom_one (ha : a.toNat < 0x80) :
    decodeFrom index (a :: rest) =
      (decodeFrom (index + 1) rest).map (Char.ofNat a.toNat :: ·) := by
  have h1 : a < 0x80 := UInt8.lt_iff_toNat_lt.2 ha
  rw [decodeFrom.eq_def]
  simp only [h1, if_true]
  cases decodeFrom (index + 1) rest <;> rfl

/-- Two bytes of a character are read as one. -/
theorem decodeFrom_two (ha : 0xC2 ≤ a.toNat ∧ a.toNat ≤ 0xDF) (hb : isContinuation b = true) :
    decodeFrom index (a :: b :: rest) =
      (decodeFrom (index + 2) rest).map (assemble (a.toNat % 32) [b] :: ·) := by
  have h1 : ¬ a < 0x80 := by rw [UInt8.lt_iff_toNat_lt]; show ¬ _ < 128; omega
  have h2 : (0xC2 ≤ a && a ≤ 0xDF) = true := by
    simp only [Bool.and_eq_true, decide_eq_true_eq, UInt8.le_iff_toNat_le]; exact ha
  rw [decodeFrom.eq_def]
  simp only [h1, h2, hb, if_true, if_false]
  cases decodeFrom (index + 2) rest <;> rfl

/-- Three bytes of a character are read as one. -/
theorem decodeFrom_three (ha : 0xE0 ≤ a.toNat ∧ a.toNat ≤ 0xEF)
    (hb : isSecondOfThree a b = true) (hc : isContinuation c = true) :
    decodeFrom index (a :: b :: c :: rest) =
      (decodeFrom (index + 3) rest).map (assemble (a.toNat % 16) [b, c] :: ·) := by
  have h1 : ¬ a < 0x80 := by rw [UInt8.lt_iff_toNat_lt]; show ¬ _ < 128; omega
  have h2 : ¬ (0xC2 ≤ a && a ≤ 0xDF) = true := by
    simp only [Bool.and_eq_true, decide_eq_true_eq, UInt8.le_iff_toNat_le]
    show ¬ (_ ∧ _ ≤ 223)
    omega
  have h3 : (0xE0 ≤ a && a ≤ 0xEF) = true := by
    simp only [Bool.and_eq_true, decide_eq_true_eq, UInt8.le_iff_toNat_le]; exact ha
  rw [decodeFrom.eq_def]
  simp only [h1, h2, h3, hb, hc, if_true, if_false]
  cases decodeFrom (index + 3) rest <;> rfl

/-- Four bytes of a character are read as one. -/
theorem decodeFrom_four (ha : 0xF0 ≤ a.toNat ∧ a.toNat ≤ 0xF4)
    (hb : isSecondOfFour a b = true) (hc : isContinuation c = true)
    (hd : isContinuation d = true) :
    decodeFrom index (a :: b :: c :: d :: rest) =
      (decodeFrom (index + 4) rest).map (assemble (a.toNat % 8) [b, c, d] :: ·) := by
  have h1 : ¬ a < 0x80 := by rw [UInt8.lt_iff_toNat_lt]; show ¬ _ < 128; omega
  have h2 : ¬ (0xC2 ≤ a && a ≤ 0xDF) = true := by
    simp only [Bool.and_eq_true, decide_eq_true_eq, UInt8.le_iff_toNat_le]
    show ¬ (_ ∧ _ ≤ 223)
    omega
  have h3 : ¬ (0xE0 ≤ a && a ≤ 0xEF) = true := by
    simp only [Bool.and_eq_true, decide_eq_true_eq, UInt8.le_iff_toNat_le]
    show ¬ (_ ∧ _ ≤ 239)
    omega
  have h4 : (0xF0 ≤ a && a ≤ 0xF4) = true := by
    simp only [Bool.and_eq_true, decide_eq_true_eq, UInt8.le_iff_toNat_le]; exact ha
  rw [decodeFrom.eq_def]
  simp only [h1, h2, h3, h4, hb, hc, hd, if_true, if_false]
  cases decodeFrom (index + 4) rest <;> rfl

end Leads

/-! ## The bytes of one character -/

/-- A natural number below 256 is read back from its byte. -/
theorem toNat_ofNat_of_lt {n : Nat} (h : n < 256) : (UInt8.ofNat n).toNat = n := by
  simp [UInt8.toNat_ofNat', Nat.mod_eq_of_lt h]

/-- The byte of the last six bits of a number, as the bytes after the first one hold it. -/
def trail (n : Nat) : UInt8 :=
  UInt8.ofNat (n % 64 + 0x80)

/-- A trail is the remainder above the mark of a continuation. -/
theorem toNat_trail (n : Nat) : (trail n).toNat = n % 64 + 0x80 :=
  toNat_ofNat_of_lt (by omega)

/-- Trails are continuations. -/
theorem isContinuation_trail (n : Nat) : isContinuation (trail n) = true := by
  simp only [isContinuation, UInt8.le_iff_toNat_le, toNat_trail, Bool.and_eq_true,
    decide_eq_true_eq, UInt8.reduceToNat]
  omega

/-- A trail holds the last six bits of its number. -/
@[simp] theorem payload_trail (n : Nat) : payload (trail n) = n % 64 := by
  rw [payload, toNat_trail]
  omega

/-- The second byte of three is a continuation that makes no shorter form and no surrogate. -/
theorem isSecondOfThree_of {a : UInt8} {n : Nat} (hlow : a.toNat = 0xE0 → 0x20 ≤ n % 64)
    (hhigh : a.toNat = 0xED → n % 64 < 0x20) : isSecondOfThree a (trail n) = true := by
  have hn := toNat_trail n
  unfold isSecondOfThree
  split
  · next h =>
    have := hlow (by rw [h]; rfl)
    simp only [UInt8.le_iff_toNat_le, hn, Bool.and_eq_true, decide_eq_true_eq, UInt8.reduceToNat]
    omega
  · split
    · next h =>
      have := hhigh (by rw [h]; rfl)
      simp only [UInt8.le_iff_toNat_le, hn, Bool.and_eq_true, decide_eq_true_eq, UInt8.reduceToNat]
      omega
    · exact isContinuation_trail n

/-- The second byte of four is a continuation that makes no shorter form and stays in the last
plane. -/
theorem isSecondOfFour_of {a : UInt8} {n : Nat} (hlow : a.toNat = 0xF0 → 0x10 ≤ n % 64)
    (hhigh : a.toNat = 0xF4 → n % 64 < 0x10) : isSecondOfFour a (trail n) = true := by
  have hn := toNat_trail n
  unfold isSecondOfFour
  split
  · next h =>
    have := hlow (by rw [h]; rfl)
    simp only [UInt8.le_iff_toNat_le, hn, Bool.and_eq_true, decide_eq_true_eq, UInt8.reduceToNat]
    omega
  · split
    · next h =>
      have := hhigh (by rw [h]; rfl)
      simp only [UInt8.le_iff_toNat_le, hn, Bool.and_eq_true, decide_eq_true_eq, UInt8.reduceToNat]
      omega
    · exact isContinuation_trail n

/-- Reading a character gives the character, whatever follows it. -/
theorem decodeFrom_utf8EncodeChar (index : Nat) (c : Char) (rest : List UInt8) :
    decodeFrom index (String.utf8EncodeChar c ++ rest) =
      (decodeFrom (index + (String.utf8EncodeChar c).length) rest).map (c :: ·) := by
  have hvalid := c.valid
  simp only [UInt32.isValidChar, Nat.isValidChar] at hvalid
  have hchar : Char.ofNat c.val.toNat = c := Char.ofNat_toNat c
  -- one case for each number of bytes; the parts of the number make it up again
  fun_cases String.utf8EncodeChar c with
  | case1 v h =>
    have hv : v = c.val.toNat := rfl
    have ha := toNat_ofNat_of_lt (n := v) (by omega)
    refine (decodeFrom_one (by omega)).trans ?_
    rw [ha, hv, hchar]
    rfl
  | case2 v h1 h2 =>
    have hv : v = c.val.toNat := rfl
    have ha := toNat_ofNat_of_lt (n := v / 64 % 32 + 0xc0) (by omega)
    have hc : assemble ((v / 64 % 32 + 0xc0) % 32) [trail v] = c := by
      simp only [assemble, List.foldl_cons, List.foldl_nil, payload_trail]
      rw [show (v / 64 % 32 + 0xc0) % 32 * 64 + v % 64 = v from by omega, hv, hchar]
    refine (decodeFrom_two (by omega) (isContinuation_trail v)).trans ?_
    rw [ha, hc]
    rfl
  | case3 v h1 h2 h3 =>
    have hv : v = c.val.toNat := rfl
    have ha := toNat_ofNat_of_lt (n := v / 4096 % 16 + 0xe0) (by omega)
    -- a character is no surrogate, and not short enough for two bytes
    have hb := isSecondOfThree_of (a := UInt8.ofNat (v / 4096 % 16 + 0xe0)) (n := v / 64)
      (by omega) (by omega)
    have hc : assemble ((v / 4096 % 16 + 0xe0) % 16) [trail (v / 64), trail v] = c := by
      simp only [assemble, List.foldl_cons, List.foldl_nil, payload_trail]
      rw [show ((v / 4096 % 16 + 0xe0) % 16 * 64 + v / 64 % 64) * 64 + v % 64 = v from by omega,
        hv, hchar]
    refine (decodeFrom_three (by omega) hb (isContinuation_trail v)).trans ?_
    rw [ha, hc]
    rfl
  | case4 v h1 h2 h3 =>
    have hv : v = c.val.toNat := rfl
    have ha := toNat_ofNat_of_lt (n := v / 262144 % 8 + 0xf0) (by omega)
    -- a character is in the last plane at most, and not short enough for three bytes
    have hb := isSecondOfFour_of (a := UInt8.ofNat (v / 262144 % 8 + 0xf0)) (n := v / 4096)
      (by omega) (by omega)
    have hc : assemble ((v / 262144 % 8 + 0xf0) % 8) [trail (v / 4096), trail (v / 64), trail v]
        = c := by
      simp only [assemble, List.foldl_cons, List.foldl_nil, payload_trail]
      rw [show (((v / 262144 % 8 + 0xf0) % 8 * 64 + v / 4096 % 64) * 64 + v / 64 % 64) * 64 +
        v % 64 = v from by omega, hv, hchar]
    refine (decodeFrom_four (by omega) hb (isContinuation_trail _) (isContinuation_trail _)).trans ?_
    rw [ha, hc]
    rfl

/-- The bytes of a text are read as the text. -/
theorem decodeFrom_encode (index : Nat) (text : List Char) :
    decodeFrom index (encode text) = .ok text := by
  induction text generalizing index with
  | nil => rfl
  | cons c text ih => rw [encode_cons, decodeFrom_utf8EncodeChar, ih]; rfl

/-- The bytes of a text are read as the text. -/
@[simp] theorem decode_encode (text : List Char) : decode (encode text) = .ok text :=
  decodeFrom_encode 0 text

/-! ## The bytes of what is read -/

section Assembled

variable {a b c d : UInt8}

/-- The byte of a number that is known. -/
theorem ofNat_eq_of_toNat_eq {n : Nat} (h : n = a.toNat) : UInt8.ofNat n = a := by
  rw [h, UInt8.ofNat_toNat]

/-- The continuations are the bytes from `0x80` to `0xBF`. -/
theorem isContinuation_iff {byte : UInt8} :
    isContinuation byte = true ↔ 0x80 ≤ byte.toNat ∧ byte.toNat ≤ 0xBF := by
  simp [isContinuation, UInt8.le_iff_toNat_le]

/-- The second byte of three is a continuation that makes no shorter form and no surrogate. -/
theorem of_isSecondOfThree (h : isSecondOfThree a b = true) :
    (0x80 ≤ b.toNat ∧ b.toNat ≤ 0xBF) ∧ (a.toNat = 0xE0 → 0xA0 ≤ b.toNat) ∧
      (a.toNat = 0xED → b.toNat ≤ 0x9F) := by
  simp only [isSecondOfThree, isContinuation, ← UInt8.toNat_inj, UInt8.le_iff_toNat_le,
    UInt8.reduceToNat] at h
  repeat' split at h
  all_goals
    rw [Bool.and_eq_true, decide_eq_true_eq, decide_eq_true_eq] at h
    omega

/-- The second byte of four is a continuation that makes no shorter form and stays in the last
plane. -/
theorem of_isSecondOfFour (h : isSecondOfFour a b = true) :
    (0x80 ≤ b.toNat ∧ b.toNat ≤ 0xBF) ∧ (a.toNat = 0xF0 → 0x90 ≤ b.toNat) ∧
      (a.toNat = 0xF4 → b.toNat ≤ 0x8F) := by
  simp only [isSecondOfFour, isContinuation, ← UInt8.toNat_inj, UInt8.le_iff_toNat_le,
    UInt8.reduceToNat] at h
  repeat' split at h
  all_goals
    rw [Bool.and_eq_true, decide_eq_true_eq, decide_eq_true_eq] at h
    omega

/-- A number that is no surrogate and not beyond the last plane is that of its character. -/
theorem toNat_val_ofNat {n : Nat} (h : n < 0xD800 ∨ 0xDFFF < n ∧ n < 0x110000) :
    (Char.ofNat n).val.toNat = n := by
  rw [Char.ofNat, dif_pos h]
  rfl

/-- A character that was read from one byte is written as that byte. -/
theorem utf8EncodeChar_ofNat (ha : a.toNat < 0x80) :
    String.utf8EncodeChar (Char.ofNat a.toNat) = [a] := by
  have hn : (Char.ofNat a.toNat).val.toNat = a.toNat := toNat_val_ofNat (by omega)
  rw [String.utf8EncodeChar]
  simp only [hn]
  rw [if_pos (by omega)]
  congr
  exact ofNat_eq_of_toNat_eq rfl

/-- A character that was read from two bytes is written as these. -/
theorem utf8EncodeChar_assemble_two (ha : 0xC2 ≤ a.toNat ∧ a.toNat ≤ 0xDF)
    (hb : isContinuation b = true) :
    String.utf8EncodeChar (assemble (a.toNat % 32) [b]) = [a, b] := by
  rw [isContinuation_iff] at hb
  have hn : (assemble (a.toNat % 32) [b]).val.toNat = a.toNat % 32 * 64 + b.toNat % 64 := by
    rw [assemble]
    exact toNat_val_ofNat (by simp only [List.foldl_cons, List.foldl_nil, payload]; omega)
  rw [String.utf8EncodeChar]
  simp only [hn]
  rw [if_neg (by omega), if_pos (by omega)]
  congr
  · exact ofNat_eq_of_toNat_eq (by omega)
  · exact ofNat_eq_of_toNat_eq (by omega)

/-- A character that was read from three bytes is written as these. -/
theorem utf8EncodeChar_assemble_three (ha : 0xE0 ≤ a.toNat ∧ a.toNat ≤ 0xEF)
    (hb : isSecondOfThree a b = true) (hc : isContinuation c = true) :
    String.utf8EncodeChar (assemble (a.toNat % 16) [b, c]) = [a, b, c] := by
  obtain ⟨hb, hlow, hhigh⟩ := of_isSecondOfThree hb
  rw [isContinuation_iff] at hc
  have hn : (assemble (a.toNat % 16) [b, c]).val.toNat =
      (a.toNat % 16 * 64 + b.toNat % 64) * 64 + c.toNat % 64 := by
    rw [assemble]
    exact toNat_val_ofNat (by simp only [List.foldl_cons, List.foldl_nil, payload]; omega)
  rw [String.utf8EncodeChar]
  simp only [hn]
  rw [if_neg (by omega), if_neg (by omega), if_pos (by omega)]
  congr
  · exact ofNat_eq_of_toNat_eq (by omega)
  · exact ofNat_eq_of_toNat_eq (by omega)
  · exact ofNat_eq_of_toNat_eq (by omega)

/-- A character that was read from four bytes is written as these. -/
theorem utf8EncodeChar_assemble_four (ha : 0xF0 ≤ a.toNat ∧ a.toNat ≤ 0xF4)
    (hb : isSecondOfFour a b = true) (hc : isContinuation c = true)
    (hd : isContinuation d = true) :
    String.utf8EncodeChar (assemble (a.toNat % 8) [b, c, d]) = [a, b, c, d] := by
  obtain ⟨hb, hlow, hhigh⟩ := of_isSecondOfFour hb
  rw [isContinuation_iff] at hc hd
  have hn : (assemble (a.toNat % 8) [b, c, d]).val.toNat =
      ((a.toNat % 8 * 64 + b.toNat % 64) * 64 + c.toNat % 64) * 64 + d.toNat % 64 := by
    rw [assemble]
    exact toNat_val_ofNat (by simp only [List.foldl_cons, List.foldl_nil, payload]; omega)
  rw [String.utf8EncodeChar]
  simp only [hn]
  rw [if_neg (by omega), if_neg (by omega), if_neg (by omega)]
  congr
  · exact ofNat_eq_of_toNat_eq (by omega)
  · exact ofNat_eq_of_toNat_eq (by omega)
  · exact ofNat_eq_of_toNat_eq (by omega)
  · exact ofNat_eq_of_toNat_eq (by omega)

end Assembled

/-- **Only the bytes of a text are read as the text.** -/
theorem encode_of_decodeFrom {index : Nat} {bytes : List UInt8} {text : List Char}
    (h : decodeFrom index bytes = .ok text) : encode text = bytes := by
  -- a character in front of the bytes of a text
  have hmore {next : Nat} {c : Char} {piece rest : List UInt8} {text : List Char}
      (hc : String.utf8EncodeChar c = piece)
      (ih : ∀ {others : List Char}, decodeFrom next rest = .ok others → encode others = rest)
      (h : (do return c :: (← decodeFrom next rest)) = Except.ok (ε := Fault) text) :
      encode text = piece ++ rest := by
    obtain ⟨others, hothers, htext⟩ := Except.bind_eq_ok_iff.1 h
    rw [← Except.ok.inj htext, encode_cons, hc, ih hothers]
  have hrange {low high byte : UInt8} (h : (decide (low ≤ byte) && decide (byte ≤ high)) = true) :
      low.toNat ≤ byte.toNat ∧ byte.toNat ≤ high.toNat := by
    simpa [UInt8.le_iff_toNat_le] using h
  fun_induction decodeFrom index bytes generalizing text with
  | case1 =>
    cases h
    rfl
  | case2 index a rest ha ih => exact hmore (utf8EncodeChar_ofNat (UInt8.lt_iff_toNat_lt.1 ha)) ih h
  | case4 index a _ ha b rest hb ih => exact hmore (utf8EncodeChar_assemble_two (hrange ha) hb) ih h
  | case8 index a _ _ ha b hb c rest hc ih =>
    exact hmore (utf8EncodeChar_assemble_three (hrange ha) hb hc) ih h
  | case14 index a _ _ _ ha b hb c hc d rest hd ih =>
    exact hmore (utf8EncodeChar_assemble_four (hrange ha) hb hc hd) ih h
  | _ => cases h

/-- A text that was read is written as the bytes it was read from. -/
theorem encode_of_decode {bytes : List UInt8} {text : List Char} (h : decode bytes = .ok text) :
    encode text = bytes :=
  encode_of_decodeFrom h

/-- No character starts with the bytes of another one. -/
theorem eq_of_utf8EncodeChar_append_eq {c c' : Char} {rest rest' : List UInt8}
    (h : String.utf8EncodeChar c ++ rest = String.utf8EncodeChar c' ++ rest') : c = c' := by
  have hread (c : Char) (rest : List UInt8) :
      (String.utf8EncodeChar c ++ rest).toByteArray.utf8DecodeChar? 0 = some c := by
    rw [List.toByteArray_append]
    exact ByteArray.utf8DecodeChar?_utf8EncodeChar_append
  exact Option.some.inj ((hread c rest).symm.trans (h ▸ hread c' rest'))

/-! ## Bytes of ASCII

A byte below 128 is a character of its own; the bytes of all other characters are above. -/

/-- A character of ASCII is written as one byte. -/
theorem utf8EncodeChar_of_lt {c : Char} (h : c.toNat < 128) :
    String.utf8EncodeChar c = [UInt8.ofNat c.toNat] := by
  have h' : c.val.toNat ≤ 127 := Nat.le_of_lt_succ h
  simp only [String.utf8EncodeChar]
  rw [if_pos h']
  rfl

/-- A text of such characters has as many bytes as characters. -/
theorem length_encode_of_lt {text : List Char} (h : ∀ c ∈ text, c.toNat < 128) :
    (encode text).length = text.length := by
  induction text with
  | nil => rfl
  | cons c text ih =>
    rw [List.forall_mem_cons] at h
    rw [encode_cons, List.length_append, utf8EncodeChar_of_lt h.1, ih h.2, List.length_singleton,
      List.length_cons]
    omega

/-- All bytes of a character beyond ASCII are beyond ASCII too. -/
theorem le_of_mem_utf8EncodeChar {c : Char} (h : 128 ≤ c.toNat) {byte : UInt8}
    (hb : byte ∈ String.utf8EncodeChar c) : 128 ≤ byte.toNat := by
  have hlarge : 128 ≤ c.val.toNat := h
  have trails (n : Nat) : 128 ≤ (UInt8.ofNat (n % 64 + 0x80)).toNat := by
    rw [toNat_ofNat_of_lt (by omega)]
    omega
  revert hb
  -- the first byte of several is at least `0xc0`, and those after it are trails
  fun_cases String.utf8EncodeChar c with
  | case1 v hv => omega
  | case2 v h1 h2 =>
    have := toNat_ofNat_of_lt (n := v / 64 % 32 + 0xc0) (by omega)
    rintro (_ | ⟨_, _ | ⟨_, ⟨⟩⟩⟩)
    · omega
    · exact trails v
  | case3 v h1 h2 h3 =>
    have := toNat_ofNat_of_lt (n := v / 4096 % 16 + 0xe0) (by omega)
    rintro (_ | ⟨_, _ | ⟨_, _ | ⟨_, ⟨⟩⟩⟩⟩)
    · omega
    · exact trails _
    · exact trails v
  | case4 v h1 h2 h3 =>
    have := toNat_ofNat_of_lt (n := v / 262144 % 8 + 0xf0) (by omega)
    rintro (_ | ⟨_, _ | ⟨_, _ | ⟨_, _ | ⟨_, ⟨⟩⟩⟩⟩⟩)
    · omega
    · exact trails _
    · exact trails _
    · exact trails v

/-- The character of a byte below 128 has the same number. -/
theorem toNat_charOfByte {byte : UInt8} (h : byte.toNat < 128) :
    (Dialect.charOfByte byte).toNat = byte.toNat := by
  rw [Dialect.charOfByte, Char.ofNat, dif_pos (Or.inl (by omega))]
  rfl

/-- The character of a byte below 128 has that byte only. -/
theorem utf8EncodeChar_charOfByte {byte : UInt8} (h : byte.toNat < 128) :
    String.utf8EncodeChar (Dialect.charOfByte byte) = [byte] := by
  have hn := toNat_charOfByte h
  rw [utf8EncodeChar_of_lt (by omega), hn, UInt8.ofNat_toNat]

/-- A byte below 128 is a byte of no character but its own. -/
theorem mem_utf8EncodeChar_iff {c : Char} {byte : UInt8} (h : byte.toNat < 128) :
    byte ∈ String.utf8EncodeChar c ↔ c = Dialect.charOfByte byte := by
  constructor
  · intro hb
    by_cases hc : c.toNat < 128
    · rw [utf8EncodeChar_of_lt hc, List.mem_singleton] at hb
      rw [hb, Dialect.charOfByte, toNat_ofNat_of_lt (by omega)]
      exact (Char.ofNat_toNat c).symm
    · have := le_of_mem_utf8EncodeChar (by omega) hb
      omega
  · rintro rfl
    rw [utf8EncodeChar_charOfByte h, List.mem_singleton]

/-- A text holds the character of a byte below 128 exactly if its bytes hold the byte. -/
theorem mem_encode_iff {text : List Char} {byte : UInt8} (h : byte.toNat < 128) :
    byte ∈ encode text ↔ Dialect.charOfByte byte ∈ text := by
  simp only [encode, List.mem_flatMap, mem_utf8EncodeChar_iff h, exists_eq_right]

/-- A text starts with the character of a byte below 128 exactly if its bytes start with the
byte. -/
theorem head?_encode_iff {text : List Char} {byte : UInt8} (h : byte.toNat < 128) :
    (encode text).head? = some byte ↔ text.head? = some (Dialect.charOfByte byte) := by
  cases text with
  | nil => simp
  | cons c text =>
    have hne : String.utf8EncodeChar c ≠ [] := String.utf8EncodeChar_ne_nil
    rw [encode_cons, List.head?_append_of_ne_nil _ hne, List.head?_cons, Option.some.injEq]
    constructor
    · exact fun hb => (mem_utf8EncodeChar_iff h).1 (List.mem_of_mem_head? hb)
    · rintro rfl
      rw [utf8EncodeChar_charOfByte h, List.head?_cons]

/-- Doubling the character of a byte below 128 doubles the byte. -/
theorem encode_flatMap_double {escape : UInt8} (h : escape.toNat < 128) (text : List Char) :
    encode (text.flatMap fun c => if c = Dialect.charOfByte escape then [c, c] else [c]) =
      (encode text).flatMap fun byte => if byte = escape then [byte, byte] else [byte] := by
  induction text with
  | nil => rfl
  | cons c text ih =>
    rw [List.flatMap_cons, encode_append, ih, encode_cons, List.flatMap_append]
    congr 1
    by_cases hc : c = Dialect.charOfByte escape
    · -- the character has one byte, which is doubled with it
      rw [if_pos hc, hc]
      simp only [encode_cons, encode_nil, utf8EncodeChar_charOfByte h]
      simp
    · -- no other character has the byte
      have hne : ∀ byte ∈ String.utf8EncodeChar c, byte ≠ escape := by
        rintro byte hb rfl
        exact hc ((mem_utf8EncodeChar_iff h).1 hb)
      rw [if_neg hc, encode_cons, encode_nil, List.append_nil]
      rw [List.flatMap_congr (g := fun byte => [byte]) fun byte hb => if_neg (hne byte hb)]
      simp

end TypedCsv.Utf8
