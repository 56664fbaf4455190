import Mathlib.Data.List.TakeWhile
import TypedCsv.Calendar.Pattern
import TypedCsv.Proofs.Number.Digits

/-! # Patterns read what they write

What a pattern writes for a moment is read by the pattern as the numbers that it shows
(`Pattern.scan_render`), as long as no item runs into what stands behind it
(`Pattern.Separated`). -/

namespace TypedCsv

namespace Moment

/-- The numbers have at most as many digits as their items. -/
structure Fits (m : Moment) : Prop where
  month_lt : m.month < 100
  day_lt : m.day < 100
  hour_lt : m.hour < 100
  minute_lt : m.minute < 100
  second_lt : m.second < 100
  nano_lt : m.nano < 10 ^ 9

end Moment

namespace Pattern

open Digits (AllDigits isDigit)

/-- The first character of a text, if there is one, has a property. -/
def Starts (property : Char → Prop) (text : List Char) : Prop :=
  ∀ c ∈ text.head?, property c

/-! ## Numbers -/

/-- The digits at the start of a text are the given ones if no further digit follows them. -/
theorem takeWhile_isDigit_append {digits rest : List Char} (hdigits : AllDigits digits)
    (hrest : Starts (isDigit · = false) rest) :
    (digits ++ rest).takeWhile isDigit = digits := by
  have hstop : rest.takeWhile isDigit = [] := by
    cases rest with
    | nil => rfl
    | cons c rest =>
      rw [List.takeWhile_cons, hrest c rfl]
      rfl
  rw [List.takeWhile_append_of_pos hdigits, hstop, List.append_nil]

/-- Digits are read as a number if there are as many as may be read, or if no digit follows. -/
theorem scanDigits_append {limit : Nat} {digits rest : List Char} (hdigits : AllDigits digits)
    (hne : digits ≠ []) (hlimit : digits.length ≤ limit)
    (hend : digits.length = limit ∨ Starts (isDigit · = false) rest) :
    scanDigits limit (digits ++ rest) = some (Digits.value digits, rest) := by
  have htake : ((digits ++ rest).takeWhile isDigit).take limit = digits := by
    rcases hend with hlength | hrest
    · rw [List.takeWhile_append_of_pos hdigits]
      exact List.take_left' hlength
    · rw [takeWhile_isDigit_append hdigits hrest]
      exact List.take_of_length_le hlimit
  rw [scanDigits, htake, List.isEmpty_eq_false_iff.2 hne, List.drop_left]
  rfl

/-- A number of two digits is read. -/
theorem scanDigits_padded {n : Nat} (h : n < 100) (rest : List Char) :
    scanDigits 2 (Digits.padded 2 n ++ rest) = some (n, rest) := by
  have hlength : (Digits.padded 2 n).length = 2 := Digits.length_padded (by decide) h
  rw [scanDigits_append (Digits.allDigits_padded 2 n) (Digits.padded_ne_nil 2 n) hlength.le
    (Or.inl hlength), Digits.value_padded]

/-- A padded number starts with a digit, so with no blank. -/
theorem starts_padded (width n : Nat) (rest : List Char) :
    Starts (Text.isBlank · = false) (Digits.padded width n ++ rest) := by
  obtain ⟨c, digits, hcons, hc⟩ :=
    (Digits.allDigits_padded width n).exists_cons (Digits.padded_ne_nil width n)
  rw [hcons]
  rintro _ ⟨⟩
  exact Text.isBlank_of_isPlain (Digits.isPlain_of_isDigit hc)

/-- Blanks are passed over where there are none. -/
theorem trimStart_padded (width n : Nat) (rest : List Char) :
    Text.trimStart (Digits.padded width n ++ rest) = Digits.padded width n ++ rest :=
  Text.trimStart_eq_self (starts_padded width n rest)

/-- A year is read up to a character that is no digit. -/
theorem scanYear_renderYear (year : Int) {rest : List Char}
    (hrest : Starts (isDigit · = false) rest) :
    scanYear (Text.trimStart (renderYear year ++ rest)) = some (year, rest) := by
  have hdigits := Digits.allDigits_padded 4 year.natAbs
  have hne := Digits.padded_ne_nil 4 year.natAbs
  have hlong : scanDigits (Digits.padded 4 year.natAbs ++ rest).length
      (Digits.padded 4 year.natAbs ++ rest) = some (year.natAbs, rest) := by
    rw [scanDigits_append hdigits hne (by simp) (Or.inr hrest), Digits.value_padded]
  rw [renderYear]
  by_cases hnegative : year < 0
  · -- behind a sign all digits are taken
    rw [if_pos hnegative, List.cons_append, Text.trimStart_eq_self (by rintro _ ⟨⟩; decide),
      scanYear, hlong]
    simp only [Option.map_some, Option.some.injEq, Prod.mk.injEq, and_true]
    omega
  rw [if_neg hnegative]
  by_cases hshort : year ≤ 9999
  · -- without a sign four digits are taken, and there are four
    have hlength : (Digits.padded 4 year.natAbs).length = 4 :=
      Digits.length_padded (by decide) (by omega)
    have hfour : scanDigits 4 (Digits.padded 4 year.natAbs ++ rest) =
        some (year.natAbs, rest) := by
      rw [scanDigits_append hdigits hne hlength.le (Or.inl hlength), Digits.value_padded]
    rw [if_pos hshort, trimStart_padded]
    obtain ⟨c, digits, hcons, hc⟩ := hdigits.exists_cons hne
    rw [hcons, List.cons_append] at hfour ⊢
    unfold scanYear
    split
    · next heq =>
      cases heq
      exact absurd hc (by decide)
    · next heq =>
      cases heq
      exact absurd hc (by decide)
    · rw [hfour]
      simp only [Option.map_some, Option.some.injEq, Prod.mk.injEq, and_true]
      omega
  · -- a longer year is written with a plus sign
    rw [if_neg hshort, List.cons_append, Text.trimStart_eq_self (by rintro _ ⟨⟩; decide),
      scanYear, hlong]
    simp only [Option.map_some, Option.some.injEq, Prod.mk.injEq, and_true]
    omega

/-! ## Fractions -/

/-- Digits after a point are read as a part of the nanoseconds of a second. -/
theorem scanFraction_padded {width n : Nat} (hwidth : 1 ≤ width) (hnine : width ≤ 9)
    (h : n < 10 ^ width) {rest : List Char} (hrest : Starts (isDigit · = false) rest) :
    scanFraction ('.' :: Digits.padded width n ++ rest) = some (n * 10 ^ (9 - width), rest) := by
  have hdigits := Digits.allDigits_padded width n
  have hlength := Digits.length_padded hwidth h
  have hdrop : (Digits.padded width n ++ rest).dropWhile isDigit = rest := by
    rw [List.dropWhile_append_of_pos hdigits]
    cases rest with
    | nil => rfl
    | cons c rest => rw [List.dropWhile_cons, hrest c rfl, if_neg Bool.false_ne_true]
  rw [List.cons_append, scanFraction, takeWhile_isDigit_append hdigits hrest, hdrop]
  rw [List.isEmpty_eq_false_iff.2 (Digits.padded_ne_nil width n), if_neg Bool.false_ne_true,
    nanoseconds]
  rw [List.take_of_length_le (hlength.trans_le hnine), Digits.value_padded, hlength]

/-- A fraction is read up to a character that is neither a digit nor a point. -/
theorem scanFraction_renderFraction {nano : Nat} (h : nano < 10 ^ 9) {rest : List Char}
    (hrest : Starts (fun c => isDigit c = false ∧ c ≠ '.') rest) :
    scanFraction (renderFraction nano ++ rest) = some (nano, rest) := by
  have hdigits : Starts (isDigit · = false) rest := fun c hc => (hrest c hc).1
  rw [renderFraction]
  by_cases hzero : nano = 0
  · -- nothing is written for a whole second, so no point may follow
    rw [if_pos hzero, List.nil_append, hzero]
    unfold scanFraction
    split
    · exact absurd rfl (hrest '.' rfl).2
    · rfl
  rw [if_neg hzero]
  -- three, six or nine digits are written, as many as are needed
  by_cases hmilli : nano % 1000000 = 0
  · rw [if_pos hmilli, scanFraction_padded (by decide) (by decide) (by omega) hdigits]
    simp only [Option.some.injEq, Prod.mk.injEq, and_true]
    omega
  rw [if_neg hmilli]
  by_cases hmicro : nano % 1000 = 0
  · rw [if_pos hmicro, scanFraction_padded (by decide) (by decide) (by omega) hdigits]
    simp only [Option.some.injEq, Prod.mk.injEq, and_true]
    omega
  · rw [if_neg hmicro, scanFraction_padded (by decide) (by decide) h hdigits]
    simp

/-! ## Items -/

/-- Takes over from a moment the number that an item shows. -/
def Item.set (start m : Moment) : Item → Moment
  | .year => { start with year := m.year }
  | .month => { start with month := m.month }
  | .day => { start with day := m.day }
  | .hour => { start with hour := m.hour }
  | .minute => { start with minute := m.minute }
  | .second => { start with second := m.second }
  | .fraction => { start with nano := m.nano }
  | .blank => start
  | .literal _ => start

/-- An item does not run into the text behind it. -/
def Item.Ends (rest : List Char) : Item → Prop
  | .year => Starts (isDigit · = false) rest
  | .fraction => Starts (fun c => isDigit c = false ∧ c ≠ '.') rest
  | .blank => Starts (Text.isBlank · = false) rest
  | _ => True

/-- What an item writes is read by it. -/
theorem Item.scan_render {m : Moment} (hm : m.Fits) (start : Moment) {item : Item}
    {rest : List Char} (h : item.Ends rest) :
    item.scan start (item.render m ++ rest) = some (item.set start m, rest) := by
  cases item with
  | year => simp only [Item.scan, Item.render, scanYear_renderYear m.year h]; rfl
  | month =>
    simp only [Item.scan, Item.render, trimStart_padded, scanDigits_padded hm.month_lt]; rfl
  | day => simp only [Item.scan, Item.render, trimStart_padded, scanDigits_padded hm.day_lt]; rfl
  | hour => simp only [Item.scan, Item.render, trimStart_padded, scanDigits_padded hm.hour_lt]; rfl
  | minute =>
    simp only [Item.scan, Item.render, trimStart_padded, scanDigits_padded hm.minute_lt]; rfl
  | second =>
    simp only [Item.scan, Item.render, trimStart_padded, scanDigits_padded hm.second_lt]; rfl
  | fraction => simp only [Item.scan, Item.render, scanFraction_renderFraction hm.nano_lt h]; rfl
  | blank =>
    have hblank : Text.trimStart (' ' :: rest) = rest := by
      rw [Text.trimStart, List.dropWhile_cons, if_pos (by decide)]
      exact Text.trimStart_eq_self h
    simp only [Item.scan, Item.render, List.cons_append, List.nil_append, hblank]; rfl
  | literal c => simp only [Item.scan, Item.render, List.cons_append, List.nil_append, if_true]; rfl

/-! ## Patterns -/

/-- No item of a pattern runs into what stands behind it. -/
def Separated (m : Moment) : Pattern → Prop
  | [] => True
  | item :: items => item.Ends (Pattern.render items m) ∧ Separated m items

/-- A rendered pattern is scanned up to its end, and each item sets its part of the moment to what
was rendered. -/
theorem scanItems_render {m : Moment} (hm : m.Fits) (start : Moment) {pattern : Pattern}
    (h : Separated m pattern) :
    scanItems start pattern (pattern.render m) =
      some (pattern.foldl (fun start item => item.set start m) start, []) := by
  induction pattern generalizing start with
  | nil => rfl
  | cons item items ih =>
    have hrender : Pattern.render (item :: items) m = item.render m ++ Pattern.render items m := rfl
    rw [hrender, scanItems, Item.scan_render hm start h.1]
    exact ih _ h.2

/-- What a pattern writes is read by it. -/
theorem scan_render {m : Moment} (hm : m.Fits) {pattern : Pattern} (h : Separated m pattern) :
    pattern.scan (pattern.render m) =
      some (pattern.foldl (fun start item => item.set start m) Moment.zero) := by
  rw [scan, scanItems_render hm Moment.zero h]

/-! ## Plain characters -/

/-- An item writes plain characters. -/
def Item.IsSolid : Item → Prop
  | .blank => False
  | .literal c => Text.isPlain c = true
  | _ => True

/-- The digits of a padded number are plain characters. -/
theorem isPlain_of_mem_padded {width n : Nat} {c : Char} (h : c ∈ Digits.padded width n) :
    Text.isPlain c = true :=
  Digits.isPlain_of_isDigit (Digits.allDigits_padded width n c h)

/-- A rendered year has plain characters only. -/
theorem isPlain_of_mem_renderYear {year : Int} {c : Char} (h : c ∈ renderYear year) :
    Text.isPlain c = true := by
  rw [renderYear] at h
  split at h
  · rcases List.mem_cons.1 h with rfl | h
    · decide
    · exact isPlain_of_mem_padded h
  · split at h
    · exact isPlain_of_mem_padded h
    · rcases List.mem_cons.1 h with rfl | h
      · decide
      · exact isPlain_of_mem_padded h

/-- A rendered fraction of a second has plain characters only. -/
theorem isPlain_of_mem_renderFraction {nano : Nat} {c : Char} (h : c ∈ renderFraction nano) :
    Text.isPlain c = true := by
  have hpoint {width n : Nat} (h : c ∈ '.' :: Digits.padded width n) : Text.isPlain c = true := by
    rcases List.mem_cons.1 h with rfl | h
    · decide
    · exact isPlain_of_mem_padded h
  rw [renderFraction] at h
  split at h
  · cases h
  · split at h
    · exact hpoint h
    · split at h
      · exact hpoint h
      · exact hpoint h

/-- A pattern without blanks renders to plain characters only. -/
theorem isPlain_of_mem_render {pattern : Pattern} (hsolid : ∀ item ∈ pattern, item.IsSolid)
    {m : Moment} {c : Char} (h : c ∈ pattern.render m) : Text.isPlain c = true := by
  obtain ⟨item, hitem, hc⟩ := List.mem_flatMap.1 h
  have hsolid := hsolid item hitem
  cases item with
  | year => exact isPlain_of_mem_renderYear hc
  | month | day | hour | minute | second => exact isPlain_of_mem_padded hc
  | fraction => exact isPlain_of_mem_renderFraction hc
  | blank => exact hsolid.elim
  | literal c' =>
    rw [List.mem_singleton.1 hc]
    exact hsolid

end Pattern

end TypedCsv
