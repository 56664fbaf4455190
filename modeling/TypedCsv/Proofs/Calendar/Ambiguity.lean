import TypedCsv.Proofs.Calendar.Formats

/-! # Dates in each of their forms

The forms of a date are tried in order, so the text of a date may fit an earlier form than the one
it has been written in. Only one pair of forms can be confused: a month in front of its day is read
as the day if the day can be a month (`Date.read_renderAs`). Any other text is refused by the forms
before its own: a number is not followed by the separator of the form, or digits of a year are left
over. -/

namespace TypedCsv

open Digits (AllDigits isDigit)
open Pattern (Starts renderYear scanDigits scanItems scanYear)

namespace Pattern

/-! ## Short numbers and years -/

/-- A text that starts with a digit is read as a year without a sign. -/
theorem scanYear_of_isDigit {c : Char} (h : isDigit c = true) (text : List Char) :
    scanYear (c :: text) = (scanDigits 4 (c :: text)).map fun (n, rest) => ((n : Int), rest) := by
  unfold scanYear
  split
  · next heq =>
    cases heq
    exact absurd h (by decide)
  · next heq =>
    cases heq
    exact absurd h (by decide)
  · rfl

/-- A number of two digits is read as a year, if no digit follows. -/
theorem scanYear_padded {n : Nat} (h : n < 100) {rest : List Char}
    (hrest : Starts (isDigit · = false) rest) :
    scanYear (Digits.padded 2 n ++ rest) = some ((n : Int), rest) := by
  have hdigits := Digits.allDigits_padded 2 n
  have hne := Digits.padded_ne_nil 2 n
  have hlength : (Digits.padded 2 n).length = 2 := Digits.length_padded (by decide) h
  have hfour : scanDigits 4 (Digits.padded 2 n ++ rest) = some (n, rest) := by
    rw [scanDigits_append hdigits hne (by omega) (Or.inr hrest), Digits.value_padded]
  obtain ⟨c, digits, hcons, hc⟩ := hdigits.exists_cons hne
  rw [hcons, List.cons_append] at hfour ⊢
  rw [scanYear_of_isDigit hc, hfour]
  rfl

/-- Two digits are never all of a year: where a year starts with two digits, another one follows. -/
theorem isDigit_of_scanDigits_renderYear {year : Int} {n : Nat} {text rest : List Char}
    (h : scanDigits 2 (Text.trimStart (renderYear year ++ text)) = some (n, rest)) :
    ∃ c ∈ rest.head?, isDigit c = true := by
  have hsigned {sign : Char} (hsign : isDigit sign = false) (text : List Char) :
      scanDigits 2 (sign :: text) = none := by
    simp [scanDigits, hsign]
  rw [renderYear] at h
  split at h
  · rw [List.cons_append, Text.trimStart_eq_self (by rintro _ ⟨⟩; decide),
      hsigned (by decide)] at h
    cases h
  split at h
  · -- at least two of the digits are left
    have hdigits := Digits.allDigits_padded 4 year.natAbs
    have hlength := Digits.le_length_padded 4 year.natAbs
    rw [trimStart_padded] at h
    generalize Digits.padded 4 year.natAbs = digits at h hdigits hlength
    have htwo : (digits.take 2).length = 2 := List.length_take_of_le (by omega)
    have hne : digits.take 2 ≠ [] := List.ne_nil_of_length_pos (by omega)
    rw [← List.take_append_drop 2 digits, List.append_assoc,
      scanDigits_append (hdigits.take 2) hne htwo.le (Or.inl htwo)] at h
    cases h
    have hleft : digits.drop 2 ≠ [] := List.ne_nil_of_length_pos (by rw [List.length_drop]; omega)
    obtain ⟨c, left, hcons, hc⟩ := (hdigits.drop 2).exists_cons hleft
    exact ⟨c, by rw [hcons]; rfl, hc⟩
  · rw [List.cons_append, Text.trimStart_eq_self (by rintro _ ⟨⟩; decide),
      hsigned (by decide)] at h
    cases h

end Pattern

namespace Date

open Pattern (Item)

/-! ## Texts that a form refuses -/

/-- A form refuses a text whose first number is not followed by the separator of the form. -/
theorem readAs_eq_none_of_separator {first : Item} {separator : Char} {text : List Char}
    (h : ∀ m rest, first.scan Moment.zero text = some (m, rest) → rest.head? ≠ some separator)
    (items : Pattern) : readAs (first :: .literal separator :: items) text = none := by
  rw [readAs, Pattern.scan, scanItems]
  cases hfirst : first.scan Moment.zero text with
  | none => rfl
  | some found =>
    obtain ⟨m, rest⟩ := found
    have hne := h m rest hfirst
    cases rest with
    | nil => rfl
    | cons c rest =>
      have hc : ¬ c = separator := fun heq => hne (congrArg some heq)
      simp [scanItems, Item.scan, hc]

/-- A number of two digits is read by any item of a date, a year too if no digit follows. -/
theorem exists_scan_padded {item : Item} (hitem : item = .year ∨ item = .month ∨ item = .day)
    {n : Nat} (hn : n < 100) {rest : List Char} (hrest : Starts (isDigit · = false) rest)
    (m : Moment) : ∃ m', item.scan m (Digits.padded 2 n ++ rest) = some (m', rest) := by
  rcases hitem with rfl | rfl | rfl <;>
    simp [Item.scan, Pattern.trimStart_padded, Pattern.scanDigits_padded hn,
      Pattern.scanYear_padded hn hrest]

/-- A text that starts with two digits is refused by the forms with another separator. -/
theorem readAs_padded_eq_none {first : Item}
    (hfirst : first = .year ∨ first = .month ∨ first = .day) {n : Nat} (hn : n < 100)
    {separator other : Char} (hdigit : isDigit separator = false) (hne : separator ≠ other)
    (text : List Char) (items : Pattern) :
    readAs (first :: .literal other :: items) (Digits.padded 2 n ++ separator :: text) = none := by
  refine readAs_eq_none_of_separator (fun m rest h => ?_) items
  have hend : Starts (isDigit · = false) (separator :: text) := by
    rintro _ ⟨⟩
    exact hdigit
  obtain ⟨m', hscan⟩ := exists_scan_padded hfirst hn hend Moment.zero
  rw [hscan] at h
  cases h
  simpa using hne

/-- A text that starts with a year is refused by the forms that start with a month or a day. -/
theorem readAs_renderYear_eq_none {first : Item} (hfirst : first = .month ∨ first = .day)
    {separator : Char} (hdigit : isDigit separator = false) (year : Int) (text : List Char)
    (items : Pattern) :
    readAs (first :: .literal separator :: items) (renderYear year ++ text) = none := by
  refine readAs_eq_none_of_separator (fun m rest h hhead => ?_) items
  have hscan : ∃ n, scanDigits 2 (Text.trimStart (renderYear year ++ text)) = some (n, rest) := by
    rcases hfirst with rfl | rfl <;>
    · obtain ⟨⟨n, after⟩, hscan, heq⟩ := Option.map_eq_some_iff.1 h
      cases heq
      exact ⟨n, hscan⟩
  obtain ⟨n, hscan⟩ := hscan
  obtain ⟨c, hc, hisDigit⟩ := Pattern.isDigit_of_scanDigits_renderYear hscan
  rw [Option.mem_def, hhead] at hc
  cases hc
  rw [hdigit] at hisDigit
  cases hisDigit

/-! ## Texts of dates -/

/-- A hyphen is no digit. -/
theorem isDigit_hyphen : isDigit '-' = false := by decide

/-- A slash is no digit. -/
theorem isDigit_slash : isDigit '/' = false := by decide

variable (d : Date)

/-- A day has at most two digits. -/
theorem day_lt : d.day < 100 := by
  have := d.month_le
  omega

/-- A month has at most two digits. -/
theorem month_lt : d.month < 100 := by
  have := d.month_le
  omega

/-- The day-first form with slashes, written out. -/
theorem renderAs_dayFirst : d.renderAs dayFirst =
    Digits.padded 2 d.day ++ '/' :: (Digits.padded 2 d.month ++ '/' :: renderYear d.year) := by
  simp [renderAs, dayFirst, Pattern.render, Item.render, Moment.withDate]

/-- The month-first form, written out. -/
theorem renderAs_monthFirst : d.renderAs monthFirst =
    Digits.padded 2 d.month ++ '/' :: (Digits.padded 2 d.day ++ '/' :: renderYear d.year) := by
  simp [renderAs, monthFirst, Pattern.render, Item.render, Moment.withDate]

/-- The year-first form, written out. -/
theorem renderAs_yearFirst : d.renderAs yearFirst =
    renderYear d.year ++ '/' :: (Digits.padded 2 d.month ++ '/' :: Digits.padded 2 d.day) := by
  simp [renderAs, yearFirst, Pattern.render, Item.render, Moment.withDate]

/-- The day-first form with hyphens, written out. -/
theorem renderAs_dayFirstHyphens : d.renderAs dayFirstHyphens =
    Digits.padded 2 d.day ++ '-' :: (Digits.padded 2 d.month ++ '-' :: renderYear d.year) := by
  simp [renderAs, dayFirstHyphens, Pattern.render, Item.render, Moment.withDate]

/-! ## Forms that refuse the text of another form -/

/-- The day-first form is not read as the canonical one: a slash stands where the first hyphen
would. -/
theorem readAs_canonical_dayFirst : readAs canonical (d.renderAs dayFirst) = none := by
  rw [renderAs_dayFirst]
  exact readAs_padded_eq_none (Or.inl rfl) d.day_lt isDigit_slash (by decide) _ _

/-- The month-first form is not read as the canonical one. -/
theorem readAs_canonical_monthFirst : readAs canonical (d.renderAs monthFirst) = none := by
  rw [renderAs_monthFirst]
  exact readAs_padded_eq_none (Or.inl rfl) d.month_lt isDigit_slash (by decide) _ _

/-- The year-first form is not read as the canonical one. -/
theorem readAs_canonical_yearFirst : readAs canonical (d.renderAs yearFirst) = none := by
  rw [renderAs_yearFirst]
  refine readAs_eq_none_of_separator (fun m rest h => ?_) _
  have hend : Starts (isDigit · = false)
      ('/' :: (Digits.padded 2 d.month ++ '/' :: Digits.padded 2 d.day)) := by
    rintro _ ⟨⟩
    exact isDigit_slash
  have hscan := Pattern.scanYear_renderYear d.year hend
  simp only [Item.scan, hscan, Option.map_some, Option.some.injEq, Prod.mk.injEq] at h
  rw [← h.2]
  simp

/-- The forms with slashes that start with a month or a day refuse a year in their place. -/
theorem readAs_yearFirst_eq_none {first : Item} (hfirst : first = .month ∨ first = .day)
    (items : Pattern) : readAs (first :: .literal '/' :: items) (d.renderAs yearFirst) = none := by
  rw [renderAs_yearFirst]
  exact readAs_renderYear_eq_none hfirst isDigit_slash _ _ _

/-- The forms with slashes refuse hyphens. -/
theorem readAs_dayFirstHyphens_eq_none {first : Item}
    (hfirst : first = .year ∨ first = .month ∨ first = .day) (items : Pattern) :
    readAs (first :: .literal '/' :: items) (d.renderAs dayFirstHyphens) = none := by
  rw [renderAs_dayFirstHyphens]
  exact readAs_padded_eq_none hfirst d.day_lt isDigit_hyphen (by decide) _ _

/-- The day in front is read as a year, and a part of the year as the day: digits are left over. -/
theorem readAs_canonical_dayFirstHyphens :
    readAs canonical (d.renderAs dayFirstHyphens) = none := by
  have hhyphen (text : List Char) : Starts (isDigit · = false) ('-' :: text) := by
    rintro _ ⟨⟩
    exact isDigit_hyphen
  obtain ⟨m₁, hyear⟩ := exists_scan_padded (Or.inl rfl) d.day_lt
    (hhyphen (Digits.padded 2 d.month ++ '-' :: renderYear d.year)) Moment.zero
  obtain ⟨m₂, hmonth⟩ := exists_scan_padded (Or.inr (Or.inl rfl)) d.month_lt
    (hhyphen (renderYear d.year)) m₁
  have hitems : scanItems Moment.zero canonical (d.renderAs dayFirstHyphens) =
      scanItems m₂ [.day] (renderYear d.year) := by
    rw [renderAs_dayFirstHyphens, canonical, scanItems, hyear]
    simp only [scanItems, Item.scan] at hmonth ⊢
    simp only [hmonth, if_true]
  rw [readAs, Pattern.scan, hitems, scanItems]
  cases hday : Item.scan .day m₂ (renderYear d.year) with
  | none => rfl
  | some found =>
    obtain ⟨⟨n, rest⟩, hscan, rfl⟩ := Option.map_eq_some_iff.1 hday
    rw [← List.append_nil (renderYear d.year)] at hscan
    obtain ⟨c, hc, -⟩ := Pattern.isDigit_of_scanDigits_renderYear hscan
    cases rest with
    | nil => cases hc
    | cons c rest => rfl

/-! ## Day and month exchanged -/

/-- Every month has at least twenty-eight days. -/
theorem le_daysInMonth (year : Int) {month : Nat} (h : 1 ≤ month ∧ month ≤ 12) :
    28 ≤ daysInMonth year month := by
  unfold daysInMonth
  split
  · split <;> omega
  · split <;> omega

variable {d} in
/-- The numbers of a date with the day as the month name a date if the day can be a month. -/
theorem valid_exchanged_iff : Valid d.year d.day d.month ↔ d.day ≤ 12 := by
  obtain ⟨hfirst, hlast, hday, hdays⟩ := d.valid
  constructor
  · rintro ⟨-, -, hmonth, hmonths⟩
    exact ((daysInMonth_le d.year d.day).2 (by omega)).2
  · intro h
    have hmonth := (daysInMonth_le d.year d.month).2 (by omega)
    have := le_daysInMonth d.year ⟨hday, h⟩
    exact ⟨hfirst, hlast, hmonth.1, by omega⟩

/-- The date with its day and its month exchanged. -/
def exchanged (h : d.day ≤ 12) : Date :=
  ⟨d.year, d.day, d.month, valid_exchanged_iff.2 h⟩

/-- Read with the day first, a text with the month first gives the two numbers exchanged. -/
theorem readAs_dayFirst_monthFirst :
    readAs dayFirst (d.renderAs monthFirst) = ofNumbers? d.year d.day d.month := by
  let m : Moment := { Moment.zero.withDate d with month := d.day, day := d.month }
  have hfits : m.Fits := by
    have := d.month_le
    constructor <;> simp only [m, Moment.withDate, Moment.zero] <;> omega
  have hseparated : Pattern.Separated m dayFirst := separated (by simp [forms]) m
  have hscan := Pattern.scan_render hfits hseparated
  have htext : d.renderAs monthFirst = Pattern.render dayFirst m := rfl
  rw [readAs, htext, hscan]
  rfl

/-! ## Reading in order -/

/-- **A date is read from its text in each form**, but for a text with the month first whose day
can be a month: it is read with the day first, as the date with the two exchanged. -/
theorem read_renderAs :
    (∀ form ∈ forms, (form = monthFirst → 12 < d.day) → read (d.renderAs form) = some d) ∧
      ∀ h : d.day ≤ 12, read (d.renderAs monthFirst) = some (d.exchanged h) := by
  refine ⟨fun form hform hday => ?_, fun h => ?_⟩
  · have hown := readAs_renderAs hform d
    simp only [forms, List.mem_cons, List.not_mem_nil, or_false] at hform
    rcases hform with rfl | rfl | rfl | rfl | rfl
    · simp only [read, forms, List.findSome?_cons, hown]
    · simp only [read, forms, List.findSome?_cons, readAs_canonical_dayFirst, hown]
    · -- no month has the number of the day
      have hdayFirst : readAs dayFirst (d.renderAs monthFirst) = none := by
        have := hday rfl
        rw [readAs_dayFirst_monthFirst]
        exact dif_neg (mt valid_exchanged_iff.1 (by omega))
      simp only [read, forms, List.findSome?_cons, readAs_canonical_monthFirst, hdayFirst, hown]
    · have hdayFirst : readAs dayFirst (d.renderAs yearFirst) = none :=
        d.readAs_yearFirst_eq_none (Or.inr rfl) _
      have hmonthFirst : readAs monthFirst (d.renderAs yearFirst) = none :=
        d.readAs_yearFirst_eq_none (Or.inl rfl) _
      simp only [read, forms, List.findSome?_cons, readAs_canonical_yearFirst, hdayFirst,
        hmonthFirst, hown]
    · have hdayFirst : readAs dayFirst (d.renderAs dayFirstHyphens) = none :=
        d.readAs_dayFirstHyphens_eq_none (Or.inr (Or.inr rfl)) _
      have hmonthFirst : readAs monthFirst (d.renderAs dayFirstHyphens) = none :=
        d.readAs_dayFirstHyphens_eq_none (Or.inr (Or.inl rfl)) _
      have hyearFirst : readAs yearFirst (d.renderAs dayFirstHyphens) = none :=
        d.readAs_dayFirstHyphens_eq_none (Or.inl rfl) _
      simp only [read, forms, List.findSome?_cons, readAs_canonical_dayFirstHyphens, hdayFirst,
        hmonthFirst, hyearFirst, hown]
  · have hdayFirst : readAs dayFirst (d.renderAs monthFirst) = some (d.exchanged h) := by
      rw [readAs_dayFirst_monthFirst]
      exact dif_pos (valid_exchanged_iff.2 h)
    simp only [read, forms, List.findSome?_cons, readAs_canonical_monthFirst, hdayFirst]

/-- With the month first, the thirteenth of February is read as itself, and the fourth of May as the
fifth of April. -/
theorem read_renderAs_signed :
    read "02/13/-0400".toList = some ⟨-400, 2, 13, by decide⟩ ∧
      read "05/04/+12024".toList = some ⟨12024, 4, 5, by decide⟩ := by
  obtain ⟨hitself, -⟩ := read_renderAs ⟨-400, 2, 13, by decide⟩
  obtain ⟨-, hexchanged⟩ := read_renderAs ⟨12024, 5, 4, by decide⟩
  have htext : renderAs monthFirst ⟨-400, 2, 13, by decide⟩ = "02/13/-0400".toList := by
    decide +kernel
  have htext' : renderAs monthFirst ⟨12024, 5, 4, by decide⟩ = "05/04/+12024".toList := by
    decide +kernel
  rw [← htext, ← htext']
  exact ⟨hitself monthFirst (by simp [forms]) (fun _ => by decide), hexchanged (by decide)⟩

end Date

end TypedCsv
