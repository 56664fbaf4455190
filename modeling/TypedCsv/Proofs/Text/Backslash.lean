import Mathlib.Data.Nat.Digits.Defs
import TypedCsv.Number.Power
import TypedCsv.Text.Backslash

/-! # Backslash sequences of option texts

A scan from left to right cuts a text into sequences, in one way (`Cuts`), and `resolve` puts a
character in the place of each sequence that names one (`Cuts.resolve_eq`). The sequences that are
documented are a backslash with one of nine characters and a backslash with `u` and four
hexadecimal digits (`Sequence.documented?`). One more kind is resolved: a plus sign counts as the
first of the four digits (`Sequence.signed?`). So a text is resolved as documented exactly if its
scan meets no such number (`resolve_eq_documented_iff`). -/

namespace TypedCsv.Text.Backslash

/-! ## Scans -/

/-- A piece of a text that a scan from left to right takes at once. -/
inductive Sequence where
  /-- A character that is no backslash. -/
  | plain (c : Char) (h : c ≠ '\\')
  /-- A backslash and a character other than `u`. -/
  | short (c : Char) (h : c ≠ 'u')
  /-- A backslash and `u` with the characters behind them, four at most. -/
  | number (digits : List Char) (h : digits.length ≤ 4)
  /-- A backslash with nothing behind it. -/
  | lone

namespace Sequence

/-- The characters of a sequence. -/
def text : Sequence → List Char
  | plain c _ => [c]
  | short c _ => ['\\', c]
  | number digits _ => '\\' :: 'u' :: digits
  | lone => ['\\']

/-- Whether a sequence can stand in front of a text: only the end of the text cuts one short. -/
def Fits : Sequence → List Char → Prop
  | plain _ _, _ => True
  | short _ _, _ => True
  | number digits _, rest => digits.length = 4 ∨ rest = []
  | lone, rest => rest = []

end Sequence

/-- A scan from left to right cuts a text into sequences. -/
inductive Cuts : List Char → List Sequence → Prop where
  | nil : Cuts [] []
  | cons {s : Sequence} {rest : List Char} {sequences : List Sequence} :
      s.Fits rest → Cuts rest sequences → Cuts (s.text ++ rest) (s :: sequences)

/-! ## The characters that sequences name -/

/-- The characters that a backslash and one more character name. -/
def shortNames : List (Char × Char) :=
  [('t', '\t'), ('n', '\n'), ('r', '\r'), ('b', '\x08'), ('f', '\x0c'), ('0', '\x00'),
    ('\\', '\\'), ('\x27', '\x27'), ('\x22', '\x22')]

/-- The hexadecimal digits in the order of their values. -/
def hexDigits : List Char :=
  ['0', '1', '2', '3', '4', '5', '6', '7', '8', '9', 'a', 'b', 'c', 'd', 'e', 'f']

/-- The value of a hexadecimal digit in either case. -/
def hexValue? (c : Char) : Option Nat :=
  hexDigits.idxOf? c.toLower

/-- The character of a number, if it is a scalar value. -/
def scalar? (n : Nat) : Option Char :=
  if n.isValidChar then some (Char.ofNat n) else none

/-- The character whose number is written in hexadecimal digits. -/
def numbered? (digits : List Char) : Option Char := do
  let values ← digits.mapM hexValue?
  scalar? (Nat.ofDigits 16 values.reverse)

namespace Sequence

/-- The character that a documented sequence names. -/
def documented? : Sequence → Option Char
  | short c _ => shortNames.lookup c
  | number digits _ => if digits.length = 4 then numbered? digits else none
  | plain _ _ => none
  | lone => none

/-- The character that a number of three digits behind a plus sign names. -/
def signed? : Sequence → Option Char
  | number ('+' :: digits) _ => if digits.length = 3 then numbered? digits else none
  | _ => none

/-- The character that a sequence names, documented or not. -/
def resolved? (s : Sequence) : Option Char :=
  s.documented?.or s.signed?

/-- A sequence that names a character is replaced with it; any other is kept as it stands. -/
def replacedBy (name? : Sequence → Option Char) (s : Sequence) : List Char :=
  (name? s).elim s.text fun c => [c]

end Sequence

/-- The named characters are those of the table. -/
theorem named_eq_lookup (c : Char) : named c = shortNames.lookup c := by
  by_cases h : c ∈ shortNames.map Prod.fst
  · simp only [shortNames, List.map_cons, List.map_nil, List.mem_cons, List.not_mem_nil,
      or_false] at h
    rcases h with rfl | rfl | rfl | rfl | rfl | rfl | rfl | rfl | rfl <;> rfl
  · have hnone : shortNames.lookup c = none := by
      rw [List.lookup_eq_none_iff]
      intro p hp
      rw [bne_iff_ne]
      rintro rfl
      exact h (List.mem_map_of_mem hp)
    simp only [shortNames, List.map_cons, List.map_nil, List.mem_cons, not_or] at h
    rw [hnone]
    simp [named, h]

/-- Hexadecimal digits are characters of ASCII. -/
theorem toNat_lt_of_mem_hexDigits {c : Char} (h : c ∈ hexDigits) : c.toNat < 128 := by
  have hall : hexDigits.all (·.toNat < 128) = true := by decide
  simpa using List.all_eq_true.1 hall c h

/-- A character is read as the digit that the table has for it. -/
theorem hexDigit?_eq (c : Char) : hexDigit? c = hexValue? c := by
  by_cases h : c.toNat < 128
  · have hall : ∀ n < 128, hexDigit? (Char.ofNat n) = hexValue? (Char.ofNat n) := by
      decide +kernel
    rw [← Char.ofNat_toNat c]
    exact hall c.toNat h
  · -- behind ASCII there are no digits and no letters with another case
    have hle {last : Char} (hlast : last.toNat < 128) : ¬ c ≤ last := by
      intro hle
      exact h (Nat.lt_of_le_of_lt (UInt32.le_iff_toNat_le.1 (Char.le_def.1 hle)) hlast)
    have hlower : c.toLower = c := dif_neg fun hupper => hle (by decide) hupper.2
    have hnot : c ∉ hexDigits := fun hmem => h (toNat_lt_of_mem_hexDigits hmem)
    rw [hexValue?, hlower, List.idxOf?_eq_none_iff.2 hnot, hexDigit?,
      if_neg fun h => hle (by decide) h.2, if_neg fun h => hle (by decide) h.2,
      if_neg fun h => hle (by decide) h.2]

/-- Digits behind a number shift it by their places. -/
theorem hexValueFrom?_eq (n : Nat) (digits : List Char) :
    hexValueFrom? n digits = (digits.mapM hexValue?).map fun values =>
      n * 16 ^ values.length + Nat.ofDigits 16 values.reverse := by
  induction digits generalizing n with
  | nil => simp [hexValueFrom?]
  | cons c digits ih =>
    rw [hexValueFrom?, hexDigit?_eq, List.mapM_cons]
    cases hexValue? c with
    | none => rfl
    | some d =>
      simp only [ih]
      cases digits.mapM hexValue? with
      | none => rfl
      | some values =>
        simp [Nat.ofDigits_append, Nat.pow_succ]
        ring

/-- The value of a row of digits names the character that the digits number. -/
theorem bind_hexValueFrom? (digits : List Char) :
    (hexValueFrom? 0 digits).bind scalar? = numbered? digits := by
  rw [hexValueFrom?_eq, numbered?, Option.bind_map]
  simp [bind]

/-- A plus sign is no digit. -/
theorem numbered?_plus (digits : List Char) : numbered? ('+' :: digits) = none := by
  have hplus : hexValue? '+' = none := by decide
  rw [numbered?, List.mapM_cons, hplus]
  rfl

/-- Four characters name the character of their hexadecimal number, if there is one. -/
theorem codePoint?_of_length {digits : List Char} (h : digits.length = 4) :
    codePoint? digits = (hexNumber? digits).bind scalar? := by
  rw [codePoint?, if_pos h]
  cases hexNumber? digits with
  | none => rfl
  | some n =>
    rw [Option.bind_some, scalar?]
    by_cases hn : n.isValidChar
    · rw [if_pos hn, Char.ofNat, dif_pos hn]
      exact dif_pos hn
    · rw [if_neg hn]
      exact dif_neg hn

/-- Only a number with a plus sign in front is a signed one. -/
theorem exists_of_signed? {s : Sequence} {c : Char} (h : s.signed? = some c) :
    ∃ digits, ∃ hlength, digits.length = 3 ∧ s = .number ('+' :: digits) hlength := by
  unfold Sequence.signed? at h
  split at h
  · next digits hlength =>
    split at h
    · next hthree => exact ⟨digits, hlength, hthree, rfl⟩
    · cases h
  · cases h

/-- A number without a plus sign in front is not signed. -/
theorem signed?_eq_none {digits : List Char} (h : digits.length ≤ 4)
    (hne : ∀ tail, tail.length = 3 → digits ≠ '+' :: tail) :
    (Sequence.number digits h).signed? = none := by
  rw [Option.eq_none_iff_forall_ne_some]
  intro c hc
  obtain ⟨tail, _, hthree, heq⟩ := exists_of_signed? hc
  cases heq
  exact hne tail hthree rfl

/-- Four characters name a character as digits, or as digits behind a plus sign. -/
theorem codePoint?_eq {digits : List Char} (h : digits.length ≤ 4) :
    codePoint? digits = (Sequence.number digits h).resolved? := by
  rw [Sequence.resolved?, Sequence.documented?]
  by_cases hfour : digits.length = 4
  · rw [codePoint?_of_length hfour, if_pos hfour]
    unfold hexNumber?
    split
    · cases hfour
    · -- a sign alone
      cases hfour
    · next digits _ =>
      rw [bind_hexValueFrom?, numbered?_plus, Option.none_or, Sequence.signed?,
        if_pos (by simpa using hfour)]
    · next hne =>
      rw [bind_hexValueFrom?, signed?_eq_none h fun tail _ => hne tail, Option.or_none]
  · have hne (tail : List Char) (hthree : tail.length = 3) : digits ≠ '+' :: tail := by
      rintro rfl
      exact hfour (by simpa using hthree)
    rw [codePoint?, if_neg hfour, if_neg hfour, signed?_eq_none h hne]
    rfl

/-! ## Resolving a sequence -/

/-- A character that is no backslash stays as it is. -/
theorem resolve_plain {c : Char} (h : c ≠ '\\') (rest : List Char) :
    resolve (c :: rest) = c :: resolve rest := by
  rw [resolve]
  all_goals simp [h]

/-- A backslash and one character are resolved as their sequence. -/
theorem resolve_short {c : Char} (h : c ≠ 'u') (rest : List Char) :
    resolve ('\\' :: c :: rest) =
      (Sequence.short c h).replacedBy Sequence.resolved? ++ resolve rest := by
  have hname : (Sequence.short c h).resolved? = named c := by
    rw [named_eq_lookup]
    exact Option.or_none
  rw [Sequence.replacedBy, hname, resolve]
  · cases named c <;> rfl
  · exact h

/-- A number takes four characters if there are as many. -/
theorem take_drop_append {digits rest : List Char} (h : digits.length ≤ 4)
    (hrest : digits.length = 4 ∨ rest = []) :
    (digits ++ rest).take 4 = digits ∧ (digits ++ rest).drop 4 = rest := by
  rcases hrest with hfour | rfl
  · exact ⟨List.take_left' hfour, List.drop_left' hfour⟩
  · rw [List.append_nil]
    exact ⟨List.take_of_length_le h, List.drop_of_length_le h⟩

/-- A numbered character is resolved as its sequence, whether it has all its digits or the text ends
before. -/
theorem resolve_number {digits : List Char} (h : digits.length ≤ 4) {rest : List Char}
    (hrest : digits.length = 4 ∨ rest = []) :
    resolve ('\\' :: 'u' :: (digits ++ rest)) =
      (Sequence.number digits h).replacedBy Sequence.resolved? ++ resolve rest := by
  obtain ⟨htake, hdrop⟩ := take_drop_append h hrest
  rw [resolve, htake, hdrop, Sequence.replacedBy, codePoint?_eq h]
  cases (Sequence.number digits h).resolved? <;> rfl

/-- Resolving puts a character in the place of a sequence that names one. -/
theorem resolve_append {s : Sequence} {rest : List Char} (h : s.Fits rest) :
    resolve (s.text ++ rest) = s.replacedBy Sequence.resolved? ++ resolve rest := by
  cases s with
  | plain c hc => exact resolve_plain hc rest
  | short c hc => exact resolve_short hc rest
  | number digits hdigits => exact resolve_number hdigits h
  | lone =>
    cases h
    rw [Sequence.text, List.append_nil, resolve, resolve]
    rfl

/-- Resolving goes through the sequences of a text one by one. -/
theorem Cuts.resolve_eq {text : List Char} {sequences : List Sequence} (h : Cuts text sequences) :
    resolve text = sequences.flatMap (Sequence.replacedBy Sequence.resolved?) := by
  induction h with
  | nil => rw [resolve]; rfl
  | cons hfits _ ih => rw [resolve_append hfits, ih, List.flatMap_cons]

example : String.ofList (resolve "\\u007C\\q\\t\\ud800".toList) = "|\\q\t\\ud800" := by cbv

/-! ## One scan of each text -/

/-- Every sequence takes at least one character. -/
theorem Sequence.text_ne_nil (s : Sequence) : s.text ≠ [] := by
  cases s <;> exact List.cons_ne_nil _ _

/-- Each text starts with a sequence. -/
theorem exists_front {text : List Char} (h : text ≠ []) :
    ∃ (s : Sequence) (rest : List Char), s.Fits rest ∧ text = s.text ++ rest := by
  match text with
  | [c] =>
    by_cases hc : c = '\\'
    · exact ⟨.lone, [], rfl, by rw [hc]; rfl⟩
    · exact ⟨.plain c hc, [], trivial, rfl⟩
  | c :: d :: rest =>
    by_cases hc : c = '\\'
    · subst hc
      by_cases hd : d = 'u'
      · refine ⟨.number (rest.take 4) (by simp), rest.drop 4, ?_, ?_⟩
        · by_cases hlength : 4 ≤ rest.length
          · exact Or.inl (List.length_take_of_le hlength)
          · exact Or.inr (List.drop_of_length_le (by omega))
        · rw [hd, Sequence.text, List.cons_append, List.cons_append, List.take_append_drop]
      · exact ⟨.short d hd, rest, trivial, rfl⟩
    · exact ⟨.plain c hc, d :: rest, trivial, rfl⟩

/-- Each text is cut into sequences. -/
theorem exists_cuts (text : List Char) : ∃ sequences, Cuts text sequences := by
  induction hlength : text.length using Nat.strong_induction_on generalizing text with
  | _ n ih =>
    by_cases hnil : text = []
    · exact ⟨[], hnil ▸ .nil⟩
    · obtain ⟨s, rest, hfits, rfl⟩ := exists_front hnil
      have hpos := List.length_pos_iff.2 s.text_ne_nil
      rw [List.length_append] at hlength
      obtain ⟨sequences, hcuts⟩ := ih rest.length (by omega) rest rfl
      exact ⟨s :: sequences, .cons hfits hcuts⟩

/-- What stands in front of a text is one sequence only. -/
theorem Sequence.eq_of_append_eq {s t : Sequence} {rest rest' : List Char} (hs : s.Fits rest)
    (ht : t.Fits rest') (h : s.text ++ rest = t.text ++ rest') : s = t ∧ rest = rest' := by
  cases s <;> cases t
  case number.number digits hdigits digits' hdigits' =>
    have hrest : digits ++ rest = digits' ++ rest' := by simpa [text] using h
    obtain ⟨htake, hdrop⟩ := take_drop_append hdigits hs
    obtain ⟨htake', hdrop'⟩ := take_drop_append hdigits' ht
    rw [hrest, htake'] at htake
    rw [hrest, hdrop'] at hdrop
    subst htake hdrop
    exact ⟨rfl, rfl⟩
  -- any two other kinds differ in their first two characters
  all_goals grind [text, Fits]

/-- A text is cut in one way only. -/
theorem Cuts.unique {text : List Char} {sequences others : List Sequence}
    (h : Cuts text sequences) (hothers : Cuts text others) : others = sequences := by
  induction h generalizing others with
  | nil =>
    generalize hnil : [] = text at hothers
    cases hothers with
    | nil => rfl
    | @cons t => exact absurd (List.append_eq_nil_iff.1 hnil.symm).1 t.text_ne_nil
  | @cons s rest sequences hfits _ ih =>
    generalize htext : s.text ++ rest = text at hothers
    cases hothers with
    | nil => exact absurd (List.append_eq_nil_iff.1 htext).1 s.text_ne_nil
    | cons hfits' hcuts =>
      obtain ⟨rfl, rfl⟩ := Sequence.eq_of_append_eq hfits hfits' htext
      rw [ih hcuts]

/-! ## Numbers with a sign -/

/-- A signed number is replaced, where the documented sequences have it kept as it stands. -/
theorem Sequence.replacedBy_of_signed? {s : Sequence} {c : Char} (h : s.signed? = some c) :
    s.replacedBy resolved? = [c] ∧ s.replacedBy documented? = s.text ∧ 1 < s.text.length := by
  obtain ⟨digits, hlength, -, rfl⟩ := exists_of_signed? h
  have hnone : (number ('+' :: digits) hlength).documented? = none := by
    rw [documented?, numbered?_plus, ite_self]
  refine ⟨?_, ?_, ?_⟩
  · rw [replacedBy, resolved?, hnone, h]
    rfl
  · rw [replacedBy, hnone]
    rfl
  · rw [text, List.length_cons, List.length_cons]
    omega

/-- Any other sequence is resolved as documented. -/
theorem Sequence.replacedBy_of_unsigned {s : Sequence} (h : s.signed? = none) :
    s.replacedBy resolved? = s.replacedBy documented? := by
  rw [replacedBy, resolved?, h, Option.or_none]
  rfl

/-- Exactly the signed numbers are resolved otherwise than documented. -/
theorem Sequence.replacedBy_eq_iff (s : Sequence) :
    s.replacedBy resolved? = s.replacedBy documented? ↔ s.signed? = none := by
  constructor
  · intro heq
    rw [Option.eq_none_iff_forall_ne_some]
    intro c hc
    obtain ⟨hone, htext, hlength⟩ := replacedBy_of_signed? hc
    rw [hone, htext] at heq
    rw [← heq] at hlength
    exact Nat.lt_irrefl 1 hlength
  · exact replacedBy_of_unsigned

/-- No sequence is resolved to more characters than documented. -/
theorem Sequence.length_replacedBy_le (s : Sequence) :
    (s.replacedBy resolved?).length ≤ (s.replacedBy documented?).length := by
  cases h : s.signed? with
  | none => rw [replacedBy_of_unsigned h]
  | some c =>
    obtain ⟨hone, htext, hlength⟩ := replacedBy_of_signed? h
    rw [hone, htext]
    exact hlength.le

section

variable {α β : Type} {f g : α → List β}

/-- A text whose pieces are no longer than those of another is no longer than it. -/
theorem length_flatMap_le (h : ∀ x, (f x).length ≤ (g x).length) (l : List α) :
    (l.flatMap f).length ≤ (l.flatMap g).length := by
  induction l with
  | nil => exact Nat.le_refl 0
  | cons x l ih =>
    rw [List.flatMap_cons, List.flatMap_cons, List.length_append, List.length_append]
    exact Nat.add_le_add (h x) ih

/-- Parts that are not longer than others make the same list only if they are the same. -/
theorem flatMap_eq_flatMap_iff (h : ∀ x, (f x).length ≤ (g x).length) (l : List α) :
    l.flatMap f = l.flatMap g ↔ ∀ x ∈ l, f x = g x := by
  induction l with
  | nil => simp
  | cons x l ih =>
    rw [List.forall_mem_cons, List.flatMap_cons, List.flatMap_cons, ← ih]
    constructor
    · intro heq
      have hlength := congrArg List.length heq
      rw [List.length_append, List.length_append] at hlength
      have hx := h x
      have hl := length_flatMap_le h l
      exact List.append_inj heq (by omega)
    · rintro ⟨hx, hl⟩
      rw [hx, hl]

end

/-- **A text is resolved as documented exactly if its scan meets no number with a plus sign.** -/
theorem resolve_eq_documented_iff (text : List Char) :
    ∃ sequences, (∀ others, Cuts text others ↔ others = sequences) ∧
      resolve text = sequences.flatMap (Sequence.replacedBy Sequence.resolved?) ∧
      (resolve text = sequences.flatMap (Sequence.replacedBy Sequence.documented?) ↔
        ∀ s ∈ sequences, s.signed? = none) := by
  obtain ⟨sequences, hcuts⟩ := exists_cuts text
  refine ⟨sequences, fun others => ⟨hcuts.unique, fun h => h ▸ hcuts⟩, hcuts.resolve_eq, ?_⟩
  rw [hcuts.resolve_eq, flatMap_eq_flatMap_iff Sequence.length_replacedBy_le]
  simp only [Sequence.replacedBy_eq_iff]

/-- The number of a vertical bar, with a plus sign for its first digit. -/
def signedBar : Sequence :=
  .number ['+', '0', '7', 'c'] (by decide)

/-- **Not every text is resolved as documented**: a plus sign passes for a digit. -/
theorem signed_number_resolved :
    ¬ ∀ text sequences, Cuts text sequences →
      resolve text = sequences.flatMap (Sequence.replacedBy Sequence.documented?) := by
  intro h
  have hcuts : Cuts (signedBar.text ++ []) [signedBar] := .cons (Or.inl rfl) .nil
  have hresolved : resolve (signedBar.text ++ []) = ['|'] := by
    rw [hcuts.resolve_eq]
    decide
  have hdocumented : [signedBar].flatMap (Sequence.replacedBy Sequence.documented?) =
      ['\\', 'u', '+', '0', '7', 'c'] := by decide
  have heq := h _ _ hcuts
  rw [hresolved, hdocumented] at heq
  cases heq

end TypedCsv.Text.Backslash
