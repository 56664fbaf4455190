import TypedCsv.Scalar
import TypedCsv.Proofs.Calendar.Formats
import TypedCsv.Proofs.Guid
import TypedCsv.Proofs.Number.Decimal
import TypedCsv.Proofs.Number.Integer
import TypedCsv.Proofs.Typing

/-! # Scalars are read back

The canonical text of a scalar is read as the value that it shows (`Value.read_display_eq`): a zero
loses its sign, and a stray leap second is read as the second behind it. So the value that is read
is an equal one exactly if there is no stray leap second, and a decimal keeps its places
(`Value.display_read_back`). No canonical text has blanks or braces at its ends, so nothing is
trimmed off it. -/

namespace TypedCsv

/-! ## Texts that trimming keeps -/

/-- Trimming keeps a plain text. -/
theorem Text.trim_eq_self_of_forall {text : List Char} (h : ∀ c ∈ text, isPlain c = true) :
    trim text = text :=
  trim_eq_self (fun c hc => isBlank_of_isPlain (h c (List.mem_of_mem_head? hc)))
    (fun c hc => isBlank_of_isPlain (h c (List.mem_of_mem_getLast? hc)))

/-- A text without braces keeps all its characters. -/
theorem Scalar.trimBraces_eq_self_of_forall {text : List Char}
    (h : ∀ c ∈ text, isBrace c = false) : trimBraces text = text := by
  have hdrop {text : List Char} (h : ∀ c ∈ text, isBrace c = false) :
      text.dropWhile isBrace = text := by
    cases text with
    | nil => rfl
    | cons c text =>
      rw [List.dropWhile_cons, h c List.mem_cons_self, if_neg Bool.false_ne_true]
  rw [trimBraces, hdrop h, hdrop (fun c hc => h c (List.mem_reverse.1 hc)), List.reverse_reverse]

/-- The text of a whole number is plain. -/
theorem Integer.isPlain_of_mem_display {n : Int64} {c : Char} (h : c ∈ display n) :
    Text.isPlain c = true := by
  have hdigits {c : Char} (h : c ∈ Digits.ofNat n.toInt.natAbs) : Text.isPlain c = true :=
    Digits.isPlain_of_isDigit (Digits.allDigits_ofNat _ c h)
  rw [display, Digits.ofInt] at h
  split at h
  · rcases List.mem_cons.1 h with rfl | h
    · decide
    · exact hdigits h
  · exact hdigits h

/-- The text of a decimal is plain. -/
theorem Decimal.isPlain_of_mem_display {d : Decimal} {c : Char} (h : c ∈ d.display) :
    Text.isPlain c = true := by
  have hfixed {c : Char} (h : c ∈ Digits.fixed d.mantissa d.scale) : Text.isPlain c = true := by
    rw [Digits.fixed] at h
    split at h
    · exact Digits.isPlain_of_isDigit (Digits.allDigits_ofNat _ c h)
    · have hdigits := Digits.allDigits_padded (d.scale + 1) d.mantissa
      rcases List.mem_append.1 h with h | h
      · exact Digits.isPlain_of_isDigit (hdigits.take _ c h)
      · rcases List.mem_cons.1 h with rfl | h
        · decide
        · exact Digits.isPlain_of_isDigit (hdigits.drop _ c h)
  rw [display] at h
  split at h
  · rcases List.mem_cons.1 h with rfl | h
    · decide
    · exact hfixed h
  · exact hfixed h

/-- The text of an identifier is plain and has no braces. -/
theorem Guid.isPlain_of_mem_display {g : Guid} {c : Char} (h : c ∈ g.display) :
    Text.isPlain c = true ∧ Scalar.isBrace c = false := by
  rcases mem_display h with rfl | ⟨d, hd, rfl⟩
  · decide
  · clear h
    revert d
    decide

/-- A timestamp starts and ends with no blank; there is one inside. -/
theorem Timestamp.trim_display (t : Timestamp) : Text.trim t.display = t.display := by
  rw [display_eq]
  refine Text.trim_eq_self ?_ ?_
  · rw [List.head?_append_of_ne_nil _ t.date.display_ne_nil]
    exact fun c hc =>
      Text.isBlank_of_isPlain (Date.isPlain_of_mem_display (List.mem_of_mem_head? hc))
  · rw [List.getLast?_append_of_ne_nil _ (List.cons_ne_nil _ _), List.getLast?_cons,
      List.getLast?_eq_some_getLast t.time.display_ne_nil]
    rintro c ⟨⟩
    exact Text.isBlank_of_isPlain (TimeOfDay.isPlain_of_mem_display (List.getLast_mem _))

/-! ## Reading canonical texts -/

namespace Value

/-- The text of a boolean is read as the boolean. -/
theorem read_boolean (b : Bool) :
    Value.read .boolean (Value.boolean b).display = .ok (.boolean b) := by
  cases b <;> rfl

/-- The text of a whole number is read as the number. -/
theorem read_integer (n : Int64) :
    Value.read .integer (Value.integer n).display = .ok (.integer n) := by
  rw [Value.read, display, String.toList_ofList,
    Text.trim_eq_self_of_forall fun c => Integer.isPlain_of_mem_display, Integer.read_display]
  rfl

/-- A decimal keeps its scale; a zero loses its sign. -/
theorem read_decimal (d : Decimal) :
    Value.read .decimal (Value.decimal d).display = .ok (.decimal d.unsignedZero) := by
  rw [Value.read, display, String.toList_ofList,
    Text.trim_eq_self_of_forall fun c => Decimal.isPlain_of_mem_display, Decimal.read_display]
  rfl

/-- The text of a date is read as the date. -/
theorem read_date (d : Date) : Value.read .date (Value.date d).display = .ok (.date d) := by
  rw [Value.read, display, String.toList_ofList,
    Text.trim_eq_self_of_forall fun c => Date.isPlain_of_mem_display, Date.read_display]
  rfl

/-- The text of a time of day is read as the time that it shows. -/
theorem read_time (t : TimeOfDay) :
    Value.read .time (Value.time t).display = .ok (.time t.shown) := by
  rw [Value.read, display, String.toList_ofList,
    Text.trim_eq_self_of_forall fun c => TimeOfDay.isPlain_of_mem_display, TimeOfDay.read_display]
  rfl

/-- The text of a timestamp is read as the timestamp that it shows. -/
theorem read_timestamp (t : Timestamp) :
    Value.read .timestamp (Value.timestamp t).display = .ok (.timestamp t.shown) := by
  rw [Value.read, display, String.toList_ofList, Timestamp.trim_display, Timestamp.read_display]
  rfl

/-- The text of an identifier is read as the identifier. -/
theorem read_guid (g : Guid) : Value.read .guid (Value.guid g).display = .ok (.guid g) := by
  rw [Value.read, display, String.toList_ofList,
    Text.trim_eq_self_of_forall fun c hc => (Guid.isPlain_of_mem_display hc).1,
    Scalar.trimBraces_eq_self_of_forall fun c hc => (Guid.isPlain_of_mem_display hc).2,
    Guid.read_display]
  rfl

end Value

/-- The types whose values have no members and are not rounded. -/
def DataType.IsExact : DataType → Prop
  | .float => False
  | .array _ => False
  | .row _ => False
  | _ => True

namespace Value

/-- The value that the canonical text of a scalar shows: a zero without a sign, and the second
behind a stray leap second. -/
def shown : Value → Value
  | decimal d => decimal d.unsignedZero
  | time t => time t.shown
  | timestamp t => timestamp t.shown
  | value => value

/-- A zero with a sign. -/
def IsNegativeZero : Value → Prop
  | decimal d => d.negative = true ∧ d.mantissa = 0
  | _ => False

/-- A time of day or a timestamp with a leap second that is not at the end of a minute. -/
def HasStrayLeap : Value → Prop
  | time t => t.HasStrayLeap
  | timestamp t => t.HasStrayLeap
  | _ => False

/-- All other scalars are shown as they are. -/
theorem shown_eq_self {value : Value} (hsign : ¬ value.IsNegativeZero)
    (hleap : ¬ value.HasStrayLeap) : value.shown = value := by
  cases value with
  | decimal d => exact congrArg decimal (Decimal.unsignedZero_eq_self hsign)
  | time t => exact congrArg time (TimeOfDay.shown_eq_self_iff.2 hleap)
  | timestamp t => exact congrArg timestamp (Timestamp.shown_eq_self_iff.2 hleap)
  | _ => rfl

/-- What is shown is an equal value exactly if there is no stray leap second. -/
theorem shown_equal_iff {value : Value} {type : DataType} (htype : type.IsExact)
    (h : value.matches type = true) : value.shown.equal value = true ↔ ¬ value.HasStrayLeap := by
  cases value with
  | float x | array items | row items => cases type <;> first | exact htype.elim | cases h
  | decimal d => exact iff_of_true d.unsignedZero_equal id
  | time t => simpa [shown, Value.equal, HasStrayLeap] using TimeOfDay.shown_eq_self_iff
  | timestamp t => simpa [shown, Value.equal, HasStrayLeap] using Timestamp.shown_eq_self_iff
  | _ => simp [shown, Value.equal, HasStrayLeap]

/-- A scalar and what its text shows have the same text, unless it is a zero with a sign. -/
theorem display_shown {value : Value} (h : ¬ value.IsNegativeZero) :
    value.shown.display = value.display := by
  cases value with
  | decimal d => rw [shown, Decimal.unsignedZero_eq_self h]
  | time t => rw [shown, display, display, TimeOfDay.display_shown]
  | timestamp t => rw [shown, display, display, Timestamp.display_shown]
  | _ => rfl

/-- **The canonical text of a scalar is read as the value that it shows.** -/
theorem read_display_eq {value : Value} {type : DataType} (htype : type.IsExact)
    (h : value.matches type = true) : Value.read type value.display = .ok value.shown := by
  cases type with
  | float | array | row => exact htype.elim
  | boolean =>
    cases value with
    | boolean b => exact read_boolean b
    | _ => cases h
  | integer =>
    cases value with
    | integer n => exact read_integer n
    | _ => cases h
  | decimal =>
    cases value with
    | decimal d => exact read_decimal d
    | _ => cases h
  | string =>
    cases value with
    | string s => rfl
    | _ => cases h
  | date =>
    cases value with
    | date d => exact read_date d
    | _ => cases h
  | time =>
    cases value with
    | time t => exact read_time t
    | _ => cases h
  | timestamp =>
    cases value with
    | timestamp t => exact read_timestamp t
    | _ => cases h
  | guid =>
    cases value with
    | guid g => exact read_guid g
    | _ => cases h

/-- The canonical text of a scalar is read as an equal value exactly if it has no stray leap
second. -/
theorem exists_read_display_iff {value : Value} {type : DataType} (htype : type.IsExact)
    (h : value.matches type = true) :
    (∃ found, Value.read type value.display = .ok found ∧ found.equal value = true) ↔
      ¬ value.HasStrayLeap := by
  rw [read_display_eq htype h, ← shown_equal_iff htype h]
  simp

/-- **No text is read as a stray leap second.** -/
theorem not_hasStrayLeap_of_read {type : DataType} {text : String} {value : Value}
    (h : Value.read type text = .ok value) : ¬ value.HasStrayLeap := by
  have hmatches := matches_of_read h
  cases value with
  | time t =>
    cases type with
    | time =>
      rw [Value.read, Scalar.orFault_eq_ok_iff] at h
      obtain ⟨_, ht, heq⟩ := Option.map_eq_some_iff.1 h
      cases heq
      exact TimeOfDay.not_hasStrayLeap_of_read ht
    | _ => cases hmatches
  | timestamp t =>
    cases type with
    | timestamp =>
      rw [Value.read, Scalar.orFault_eq_ok_iff] at h
      obtain ⟨_, ht, heq⟩ := Option.map_eq_some_iff.1 h
      cases heq
      exact Timestamp.not_hasStrayLeap_of_read ht
    | _ => cases hmatches
  | _ => exact id

/-- **Canonical texts are read back.** The text of a scalar is read as a value of its type, and this
is an equal one unless the scalar is a time of day or a timestamp with a stray leap second, which is
read as what a clock shows. A decimal keeps its digits and places, and anything but a zero with a
sign and a stray leap second is read as it was. -/
theorem display_read_back {value : Value} {type : DataType} (htype : type.IsExact)
    (h : value.matches type = true) :
    ∃ found, Value.read type value.display = .ok found ∧
      (found.equal value = true ↔ ¬ value.HasStrayLeap) ∧
      (∀ d, value = .decimal d →
        ∃ e, found = .decimal e ∧ e.mantissa = d.mantissa ∧ e.scale = d.scale) ∧
      (∀ t, value = .time t → found = .time t.shown) ∧
      (∀ t, value = .timestamp t → found = .timestamp ⟨t.date, t.time.shown⟩) ∧
      (¬ value.IsNegativeZero → ¬ value.HasStrayLeap → found = value) := by
  refine ⟨value.shown, read_display_eq htype h, shown_equal_iff htype h, ?_, ?_, ?_, shown_eq_self⟩
  · rintro d rfl
    exact ⟨d.unsignedZero, rfl, rfl, rfl⟩
  · rintro t rfl
    rfl
  · rintro t rfl
    rfl

/-- The last second of a day in a year before the first, which runs past its end. -/
def leapSecond : Timestamp :=
  ⟨⟨-44, 2, 29, by decide⟩, ⟨23, 59, 59, 1000000500, by decide⟩⟩

/-- A zero with a sign and the most places. -/
def negativeZero : Decimal :=
  ⟨true, 0, 28, by decide, by decide⟩

/-- A second in the middle of a minute that runs past its end. -/
def strayLeap : TimeOfDay :=
  ⟨23, 56, 4, 1333333333, by decide⟩

/-- The time of day that a clock shows then. -/
def strayLeapShown : TimeOfDay :=
  ⟨23, 56, 5, 333333333, by decide⟩

/-- A leap second at the end of a minute is read back, and a zero with its places. A stray leap
second is read as the second behind it. -/
theorem display_read_back_extremes :
    (Value.timestamp leapSecond).display = "-0044-02-29 23:59:60.000000500" ∧
      Value.read .timestamp (Value.timestamp leapSecond).display = .ok (.timestamp leapSecond) ∧
      (∃ e : Decimal, Value.read .decimal (Value.decimal negativeZero).display = .ok (.decimal e) ∧
        e.equal negativeZero = true ∧ e.scale = 28) ∧
      Value.read .time (Value.time strayLeap).display = .ok (.time strayLeapShown) := by
  refine ⟨by decide +kernel, ?_, ?_, ?_⟩
  · obtain ⟨found, hread, -, -, -, -, hsame⟩ :=
      @display_read_back (.timestamp leapSecond) .timestamp trivial rfl
    rw [hread, hsame id (by simp [HasStrayLeap, Timestamp.HasStrayLeap, leapSecond,
      TimeOfDay.HasStrayLeap])]
  · obtain ⟨found, hread, hequal, hplaces, -⟩ :=
      @display_read_back (.decimal negativeZero) .decimal trivial rfl
    obtain ⟨e, rfl, -, hscale⟩ := hplaces negativeZero rfl
    exact ⟨e, hread, hequal.2 id, hscale⟩
  · obtain ⟨found, hread, -, -, htime, -⟩ := @display_read_back (.time strayLeap) .time trivial rfl
    have hshown : strayLeap.shown = strayLeapShown := by decide
    rw [hread, htime strayLeap rfl, hshown]

/-- A time of day whose fifth second runs past its end has a text, but no equal time is read of
it. -/
theorem stray_leap_not_read_back :
    (Value.time strayLeap).matches .time = true ∧
      (Value.time strayLeap).display = "23:56:05.333333333" ∧
      Value.read .time "23:56:05.333333333" = .ok (.time strayLeapShown) ∧
      ¬ ∃ found, Value.read .time (Value.time strayLeap).display = .ok found ∧
        found.equal (.time strayLeap) = true := by
  have hdisplay : (Value.time strayLeap).display = "23:56:05.333333333" := by decide +kernel
  have hshown : strayLeap.shown = strayLeapShown := by decide
  refine ⟨rfl, hdisplay, ?_, fun h => ?_⟩
  · rw [← hdisplay, read_time, hshown]
  · have hstray : strayLeap.HasStrayLeap := by decide
    exact (@exists_read_display_iff (.time strayLeap) .time trivial rfl).1 h hstray

end Value

/-- Only strings have texts with characters that are not of ASCII. -/
theorem Value.toNat_lt_of_mem_display {value : Value} {type : DataType} (htype : type.IsExact)
    (hstring : type ≠ .string) (h : value.matches type = true) {c : Char}
    (hc : c ∈ value.display.toList) : c.toNat < 128 := by
  have hplain {text : List Char} (h : ∀ c ∈ text, Text.isPlain c = true)
      (hc : c ∈ (String.ofList text).toList) : c.toNat < 128 :=
    Text.toNat_lt_of_isPlain (h c (by rwa [String.toList_ofList] at hc))
  cases value with
  | float x | array items | row items => cases type <;> first | exact htype.elim | cases h
  | string s => cases type <;> first | exact absurd rfl hstring | cases h
  | boolean b =>
    have hascii : ∀ c ∈ (boolean b).display.toList, c.toNat < 128 := by
      cases b <;> simp [display]
    exact hascii c hc
  | integer n => exact hplain (fun _ => Integer.isPlain_of_mem_display) hc
  | decimal d => exact hplain (fun _ => Decimal.isPlain_of_mem_display) hc
  | date d => exact hplain (fun _ => Date.isPlain_of_mem_display) hc
  | time t => exact hplain (fun _ => TimeOfDay.isPlain_of_mem_display) hc
  | guid g => exact hplain (fun _ hc => (Guid.isPlain_of_mem_display hc).1) hc
  | timestamp t =>
    -- a date, a blank and a time of day
    rw [display, String.toList_ofList, Timestamp.display_eq] at hc
    rcases List.mem_append.1 hc with hc | hc
    · exact Text.toNat_lt_of_isPlain (Date.isPlain_of_mem_display hc)
    · rcases List.mem_cons.1 hc with rfl | hc
      · decide
      · exact Text.toNat_lt_of_isPlain (TimeOfDay.isPlain_of_mem_display hc)

end TypedCsv
