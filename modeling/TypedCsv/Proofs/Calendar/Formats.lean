import TypedCsv.Calendar.Formats
import TypedCsv.Proofs.Calendar.Pattern

/-! # Dates and times are read back

A date that is written in one of its forms is read in that form as the date
(`Date.readAs_renderAs`), and the canonical texts of dates, times of day and timestamps are read as
what they show (`Date.read_display`, `TimeOfDay.read_display`, `Timestamp.read_display`). That is
the time itself unless it has a stray leap second, one that is not at the end of a minute
(`TimeOfDay.shown_eq_self_iff`), and no text is read as such a time
(`TimeOfDay.not_hasStrayLeap_of_read`).

* `TimeOfDay.HasStrayLeap`: the times of day that no numbers name.
* `TimeOfDay.shown`: the time of day that a clock shows. -/

namespace TypedCsv

open Pattern (Separated Starts)

/-! ## Stray leap seconds -/

namespace TimeOfDay

variable {t : TimeOfDay}

/-- A leap second that is not at the end of a minute. -/
def HasStrayLeap (t : TimeOfDay) : Prop :=
  nanosPerSecond ≤ t.nano ∧ t.second ≠ 59

instance (t : TimeOfDay) : Decidable t.HasStrayLeap :=
  inferInstanceAs (Decidable (_ ∧ _))

/-- Behind a second other than the last of a minute there is another one. -/
theorem HasStrayLeap.valid_next (h : t.HasStrayLeap) :
    Valid t.hour t.minute (t.second + 1) (t.nano - nanosPerSecond) := by
  obtain ⟨hhour, hminute, hsecond, hnano⟩ := t.valid
  obtain ⟨-, hlast⟩ := h
  exact ⟨hhour, hminute, by omega, by omega⟩

/-- The time of day that a clock shows: a stray leap second looks like the second behind it. -/
def shown (t : TimeOfDay) : TimeOfDay :=
  if h : t.HasStrayLeap then
    ⟨t.hour, t.minute, t.second + 1, t.nano - nanosPerSecond, h.valid_next⟩
  else t

/-- A clock shows a time of day as it is exactly if it has no stray leap second. -/
theorem shown_eq_self_iff : t.shown = t ↔ ¬ t.HasStrayLeap := by
  rw [shown]
  split
  · next h =>
    -- the seconds differ
    refine iff_of_false (fun heq => ?_) (not_not_intro h)
    have := congrArg second heq
    simp at this
  · next h => exact iff_of_true rfl h

/-- What a clock shows has no stray leap second. -/
theorem not_hasStrayLeap_shown (t : TimeOfDay) : ¬ t.shown.HasStrayLeap := by
  rw [shown]
  split
  · have := t.valid.2.2.2
    rintro ⟨hnano, -⟩
    simp only at hnano
    omega
  · next h => exact h

/-- A time of day without a stray leap second is named by its numbers. -/
theorem ofNumbers?_eq_some (h : ¬ t.HasStrayLeap) :
    ofNumbers? t.hour t.minute t.second t.nano = some t := by
  rw [HasStrayLeap, not_and_or, not_not, not_le] at h
  exact dif_pos ⟨t.valid, h⟩

/-- Numbers name no stray leap second. -/
theorem not_hasStrayLeap_of_ofNumbers? {hour minute second nano : Nat}
    (h : ofNumbers? hour minute second nano = some t) : ¬ t.HasStrayLeap := by
  rw [ofNumbers?] at h
  split at h
  · next hnumbers =>
    cases h
    rintro ⟨hnano, hsecond⟩
    exact hnumbers.2.elim (fun hless => absurd hnano (not_le.2 hless)) hsecond
  · cases h

end TimeOfDay

/-- No moment is one of a stray leap second. -/
theorem Moment.not_hasStrayLeap_of_time? {m : Moment} {t : TimeOfDay} (h : m.time? = some t) :
    ¬ t.HasStrayLeap := by
  rw [time?, TimeOfDay.ofClock?] at h
  split at h <;> exact TimeOfDay.not_hasStrayLeap_of_ofNumbers? h

/-- A clock shows the same numbers at a time of day and at the one that it shows. -/
theorem Moment.withTime_shown (m : Moment) (t : TimeOfDay) : m.withTime t.shown = m.withTime t := by
  rw [TimeOfDay.shown]
  split
  · next h =>
    have hpos : TimeOfDay.nanosPerSecond = 1000000000 := rfl
    have hvalid := t.valid.2.2.2
    have hnano := h.1
    simp only [hpos] at hvalid hnano
    simp only [withTime, hpos, Moment.mk.injEq, true_and]
    omega
  · rfl

/-! ## Numbers of dates and times -/

/-- No month has more than 31 days, and only the numbers 1 to 12 have any. -/
theorem Date.daysInMonth_le (year : Int) (month : Nat) :
    daysInMonth year month ≤ 31 ∧ (1 ≤ daysInMonth year month → 1 ≤ month ∧ month ≤ 12) := by
  unfold daysInMonth
  split
  · split <;> omega
  · split
    · omega
    · split <;> omega

/-- The month and the day of a date have two digits. -/
theorem Date.month_le (d : Date) : d.month ≤ 12 ∧ d.day ≤ 31 := by
  obtain ⟨-, -, hday, hdays⟩ := d.valid
  obtain ⟨hthirtyOne, hmonth⟩ := daysInMonth_le d.year d.month
  have := hmonth (by omega)
  omega

/-- A clock shows at most a second 60, and less than a second of nanoseconds. -/
theorem TimeOfDay.second_le (t : TimeOfDay) :
    t.second + t.nano / nanosPerSecond ≤ 60 ∧ t.nano % nanosPerSecond < 10 ^ 9 := by
  obtain ⟨-, -, hsecond, hnano⟩ := t.valid
  have hpos : nanosPerSecond = 1000000000 := rfl
  rw [hpos] at hnano ⊢
  omega

/-- The numbers of a date fit their items. -/
theorem Moment.fits_withDate (d : Date) : (Moment.zero.withDate d).Fits := by
  have := d.month_le
  constructor <;> simp only [Moment.withDate, Moment.zero] <;> omega

/-- The numbers that a clock shows fit their items. -/
theorem Moment.fits_withTime {m : Moment} (hm : m.Fits) (t : TimeOfDay) : (m.withTime t).Fits := by
  have hsecond := t.second_le
  have hvalid := t.valid
  have hmonth := hm.month_lt
  have hday := hm.day_lt
  simp only [TimeOfDay.Valid] at hvalid
  constructor <;> simp only [Moment.withTime] <;> omega

/-- The numbers before anything has been read fit their items. -/
theorem Moment.fits_zero : Moment.zero.Fits := by
  constructor <;> decide

/-- The numbers of a date name it. -/
theorem Moment.date?_withDate (m : Moment) (d : Date) : (m.withDate d).date? = some d :=
  dif_pos d.valid

/-- The numbers that a clock shows at a time of day name it, unless it has a stray leap second. -/
theorem Moment.time?_withTime_of_not_hasStrayLeap (m : Moment) {t : TimeOfDay}
    (h : ¬ t.HasStrayLeap) : (m.withTime t).time? = some t := by
  have hpos : TimeOfDay.nanosPerSecond = 1000000000 := rfl
  have hvalid := t.valid
  have hnamed := TimeOfDay.ofNumbers?_eq_some h
  simp only [TimeOfDay.HasStrayLeap, TimeOfDay.Valid, hpos] at h hvalid
  simp only [Moment.time?, Moment.withTime, TimeOfDay.ofClock?, hpos]
  by_cases hleap : t.second + t.nano / 1000000000 = 60
  · -- a leap second is shown as the second after the fifty-ninth
    have hnano : t.nano % 1000000000 + 1000000000 = t.nano := by omega
    have hsecond : 59 = t.second := by omega
    rw [if_pos hleap, hnano, hsecond, hnamed]
  · have hnano : t.nano % 1000000000 = t.nano := by omega
    have hsecond : t.second + t.nano / 1000000000 = t.second := by omega
    rw [if_neg hleap, hnano, hsecond, hnamed]

/-- The numbers that a clock shows at a time of day name the time that it shows. -/
theorem Moment.time?_withTime (m : Moment) (t : TimeOfDay) :
    (m.withTime t).time? = some t.shown := by
  rw [← withTime_shown]
  exact time?_withTime_of_not_hasStrayLeap m t.not_hasStrayLeap_shown

/-! ## Dates -/

namespace Date

/-- In the forms of a date a year stands at the end or in front of a character that is no digit. -/
theorem separated {form : Pattern} (h : form ∈ forms) (m : Moment) : Separated m form := by
  have hhyphen : Digits.isDigit '-' = false := by decide
  have hslash : Digits.isDigit '/' = false := by decide
  simp only [forms, List.mem_cons, List.not_mem_nil, or_false] at h
  rcases h with rfl | rfl | rfl | rfl | rfl <;>
    simp [Separated, Pattern.Item.Ends, Starts, canonical, dayFirst, monthFirst, yearFirst,
      dayFirstHyphens, Pattern.render, Pattern.Item.render, hhyphen, hslash]

/-- A date that is written in a form is read in the form as the date. -/
theorem readAs_renderAs {form : Pattern} (h : form ∈ forms) (d : Date) :
    readAs form (renderAs form d) = some d := by
  have hscan := Pattern.scan_render (Moment.fits_withDate d) (separated h _)
  have hset : form.foldl (fun start item => item.set start (Moment.zero.withDate d)) Moment.zero =
      Moment.zero.withDate d := by
    simp only [forms, List.mem_cons, List.not_mem_nil, or_false] at h
    rcases h with rfl | rfl | rfl | rfl | rfl <;> rfl
  rw [readAs, renderAs, hscan, hset]
  exact Moment.date?_withDate Moment.zero d

/-- The canonical text of a date is read as the date. -/
theorem read_display (d : Date) : read d.display = some d := by
  rw [read, display, forms, List.findSome?_cons, readAs_renderAs List.mem_cons_self]

/-- The canonical text of a date is plain. -/
theorem isPlain_of_mem_display {d : Date} {c : Char} (h : c ∈ d.display) :
    Text.isPlain c = true := by
  refine Pattern.isPlain_of_mem_render ?_ h
  simp only [canonical, List.forall_mem_cons]
  exact ⟨trivial, rfl, trivial, rfl, trivial, by simp⟩

/-- No date has an empty text. -/
theorem display_ne_nil (d : Date) : d.display ≠ [] := by
  intro h
  have := d.read_display
  rw [h] at this
  cases this

end Date

/-! ## Times of day and timestamps -/

namespace TimeOfDay

/-- The canonical text of a time of day is read as the time that it shows. -/
theorem read_display (t : TimeOfDay) : read t.display = some t.shown := by
  have hseparated : Separated (Moment.zero.withTime t) canonical := by
    simp [Separated, Pattern.Item.Ends, Starts, canonical, Pattern.render]
  have hscan := Pattern.scan_render (Moment.fits_withTime Moment.fits_zero t) hseparated
  have hset : canonical.foldl (fun start item => item.set start (Moment.zero.withTime t))
      Moment.zero = Moment.zero.withTime t := rfl
  rw [read, display, forms, List.findSome?_cons, hscan, hset, Option.bind_some,
    Moment.time?_withTime]

/-- A time of day and the one that its text shows have the same text. -/
theorem display_shown (t : TimeOfDay) : t.shown.display = t.display := by
  rw [display, display, Moment.withTime_shown]

/-- **No text is read as a stray leap second.** -/
theorem not_hasStrayLeap_of_read {text : List Char} {t : TimeOfDay} (h : read text = some t) :
    ¬ t.HasStrayLeap := by
  obtain ⟨form, -, hform⟩ := List.exists_of_findSome?_eq_some h
  obtain ⟨m, -, hm⟩ := Option.bind_eq_some_iff.1 hform
  exact Moment.not_hasStrayLeap_of_time? hm

/-- The canonical text of a time of day is plain. -/
theorem isPlain_of_mem_display {t : TimeOfDay} {c : Char} (h : c ∈ t.display) :
    Text.isPlain c = true := by
  refine Pattern.isPlain_of_mem_render ?_ h
  simp only [canonical, List.forall_mem_cons]
  exact ⟨trivial, rfl, trivial, rfl, trivial, trivial, by simp⟩

/-- No time of day has an empty text. -/
theorem display_ne_nil (t : TimeOfDay) : t.display ≠ [] := by
  intro h
  have := t.read_display
  rw [h] at this
  cases this

end TimeOfDay

namespace Timestamp

/-- The time of day of a timestamp has a stray leap second. -/
def HasStrayLeap (t : Timestamp) : Prop :=
  t.time.HasStrayLeap

/-- The timestamp that a calendar and a clock show. -/
def shown (t : Timestamp) : Timestamp :=
  { t with time := t.time.shown }

/-- A timestamp is shown as it is exactly if it has no stray leap second. -/
theorem shown_eq_self_iff {t : Timestamp} : t.shown = t ↔ ¬ t.HasStrayLeap := by
  rw [HasStrayLeap, ← TimeOfDay.shown_eq_self_iff]
  obtain ⟨date, time⟩ := t
  simp [shown]

/-- The canonical text of a timestamp is the texts of its date and its time, a blank between. -/
theorem display_eq (t : Timestamp) : t.display = t.date.display ++ ' ' :: t.time.display := by
  rw [display, canonical, Pattern.render, List.flatMap_append]
  rfl

/-- A timestamp and the one that its text shows have the same text. -/
theorem display_shown (t : Timestamp) : t.shown.display = t.display := by
  rw [display_eq, display_eq, shown, TimeOfDay.display_shown]

/-- The canonical text of a timestamp is read as the timestamp that it shows. -/
theorem read_display (t : Timestamp) : read t.display = some t.shown := by
  have hfits := Moment.fits_withTime (Moment.fits_withDate t.date) t.time
  have hhyphen : Digits.isDigit '-' = false := by decide
  have hseparated : Separated ((Moment.zero.withDate t.date).withTime t.time) canonical := by
    -- the digits of the hour end the blank
    refine ⟨?_, trivial, trivial, trivial, trivial, Pattern.starts_padded 2 _ _, trivial, trivial,
      trivial, trivial, trivial, ?_, trivial⟩
    · rintro _ ⟨⟩
      exact hhyphen
    · rintro _ ⟨⟩
  have hset : canonical.foldl
      (fun start item => item.set start ((Moment.zero.withDate t.date).withTime t.time))
      Moment.zero = (Moment.zero.withDate t.date).withTime t.time := rfl
  have hdate : ((Moment.zero.withDate t.date).withTime t.time).date? = some t.date :=
    Moment.date?_withDate Moment.zero t.date
  have htime : ((Moment.zero.withDate t.date).withTime t.time).time? = some t.time.shown :=
    Moment.time?_withTime _ t.time
  rw [read, display, forms, List.findSome?_cons, Pattern.scan_render hfits hseparated, hset,
    Option.bind_some, Moment.timestamp?, hdate, htime]
  rfl

/-- **No text is read as a timestamp with a stray leap second.** -/
theorem not_hasStrayLeap_of_read {text : List Char} {t : Timestamp} (h : read text = some t) :
    ¬ t.HasStrayLeap := by
  obtain ⟨form, -, hform⟩ := List.exists_of_findSome?_eq_some h
  obtain ⟨m, -, hm⟩ := Option.bind_eq_some_iff.1 hform
  obtain ⟨date, -, hdate⟩ := Option.bind_eq_some_iff.1 hm
  obtain ⟨time, htime, heq⟩ := Option.bind_eq_some_iff.1 hdate
  cases heq
  exact Moment.not_hasStrayLeap_of_time? htime

end Timestamp

end TypedCsv
