import TypedCsv.Number.DecimalText
import TypedCsv.Proofs.Number.Digits

/-! # Decimal numbers are read back

`Decimal.read_display`: the text of a decimal is read as the decimal with its scale. A zero alone
loses its sign. -/

namespace TypedCsv.Decimal

open Digits (AllDigits isDigit valueFrom value)

/-- Digits are read as their number while the mantissa and the scale stay in range. -/
theorem readMagnitude_append (inFraction started : Bool) {mantissa : Nat} (scale : Nat)
    {digits : List Char} (hdigits : AllDigits digits)
    (hmantissa : valueFrom mantissa digits < mantissaBound)
    (hscale : inFraction = true → scale + digits.length ≤ maxScale) (rest : List Char) :
    readMagnitude inFraction started mantissa scale (digits ++ rest) =
      readMagnitude inFraction (started || ! digits.isEmpty) (valueFrom mantissa digits)
        (if inFraction then scale + digits.length else scale) rest := by
  induction digits generalizing started mantissa scale with
  | nil => cases inFraction <;> simp
  | cons c digits ih =>
    obtain ⟨d, hd, -⟩ := Digits.exists_digit? (hdigits c List.mem_cons_self)
    rw [Digits.valueFrom_cons, hd, Option.getD_some] at hmantissa ⊢
    have hstep := (Digits.le_valueFrom (mantissa * 10 + d) digits).trans_lt hmantissa
    -- neither the scale nor the mantissa is used up by this digit
    have hfits :
        ¬ (inFraction && scale == maxScale || mantissa * 10 + d ≥ mantissaBound) = true := by
      simp only [Bool.or_eq_true, Bool.and_eq_true, beq_iff_eq, decide_eq_true_eq, not_or, not_and,
        ge_iff_le, Nat.not_le]
      refine ⟨fun hin => ?_, hstep⟩
      have := hscale hin
      rw [List.length_cons] at this
      omega
    rw [List.cons_append, readMagnitude, hd]
    dsimp only
    rw [if_neg hfits, ih true _ (fun c hc => hdigits c (List.mem_cons_of_mem _ hc)) hmantissa]
    · cases inFraction <;> simp [Nat.add_assoc, Nat.add_comm 1]
    · intro hin
      have := hscale hin
      rw [List.length_cons] at this
      rw [if_pos hin]
      omega

/-- A magnitude with as many places as its scale is read as it is. -/
theorem readMagnitude_fixed {mantissa scale : Nat} (hmantissa : mantissa < mantissaBound)
    (hscale : scale ≤ maxScale) :
    readMagnitude false false 0 0 (Digits.fixed mantissa scale) = .ok (mantissa, scale) := by
  rw [Digits.fixed]
  by_cases h : scale = 0
  · have hvalue : valueFrom 0 (Digits.ofNat mantissa) = mantissa := Digits.value_ofNat mantissa
    have hread := readMagnitude_append false false 0 (Digits.allDigits_ofNat mantissa)
      (hvalue.trans_lt hmantissa) (fun h => by cases h) []
    rw [List.append_nil, hvalue] at hread
    rw [if_pos h, hread, h]
    simp [readMagnitude, Digits.ofNat_ne_nil]
  · rw [if_neg h]
    have hdigits := Digits.allDigits_padded (scale + 1) mantissa
    have hlength := Digits.le_length_padded (scale + 1) mantissa
    have hvalue : value (Digits.padded (scale + 1) mantissa) = mantissa := Digits.value_padded _ _
    generalize Digits.padded (scale + 1) mantissa = digits at hdigits hlength hvalue ⊢
    dsimp only
    -- the digits before the point, of which there is one, and those after it
    have hwhole : (digits.take (digits.length - scale)).isEmpty = false := by
      rw [List.isEmpty_eq_false_iff, ← List.length_pos_iff, List.length_take]
      omega
    have hplaces : (digits.drop (digits.length - scale)).length = scale := by
      rw [List.length_drop]
      omega
    have hall : valueFrom (valueFrom 0 (digits.take (digits.length - scale)))
        (digits.drop (digits.length - scale)) = mantissa := by
      rw [← Digits.valueFrom_append, List.take_append_drop]
      exact hvalue
    have hfirst := Digits.le_valueFrom (valueFrom 0 (digits.take (digits.length - scale)))
      (digits.drop (digits.length - scale))
    rw [hall] at hfirst
    have hpoint : Digits.digit? '.' = none := by decide
    have hrest := readMagnitude_append true true 0 (hdigits.drop (digits.length - scale))
      (hall.trans_lt hmantissa) (fun _ => by rw [hplaces]; omega) []
    rw [List.append_nil, hall, hplaces, if_pos rfl] at hrest
    rw [readMagnitude_append false false 0 (hdigits.take _) (hfirst.trans_lt hmantissa)
      (fun h => by cases h), hwhole, readMagnitude, hpoint]
    dsimp only
    rw [if_pos rfl, if_neg Bool.false_ne_true, if_neg Bool.false_ne_true]
    refine hrest.trans ?_
    rw [Nat.zero_add]
    rfl

/-- The text of a magnitude starts with a digit. -/
theorem exists_fixed_eq_cons (n scale : Nat) :
    ∃ c rest, Digits.fixed n scale = c :: rest ∧ isDigit c = true := by
  rw [Digits.fixed]
  by_cases h : scale = 0
  · rw [if_pos h]
    exact (Digits.allDigits_ofNat n).exists_cons (Digits.ofNat_ne_nil n)
  · rw [if_neg h]
    have hdigits := Digits.allDigits_padded (scale + 1) n
    have hlength := Digits.le_length_padded (scale + 1) n
    generalize Digits.padded (scale + 1) n = digits at hdigits hlength ⊢
    have hne : digits.take (digits.length - scale) ≠ [] := by
      rw [← List.length_pos_iff, List.length_take]
      omega
    obtain ⟨c, rest, hcons, hc⟩ := (hdigits.take (digits.length - scale)).exists_cons hne
    exact ⟨c, _, by dsimp only; rw [hcons]; rfl, hc⟩

/-- A number that starts with a digit has no sign. -/
theorem readPlain_of_isDigit {c : Char} {rest : List Char} (h : isDigit c = true) :
    readPlain (c :: rest) = readSigned false (c :: rest) := by
  unfold readPlain
  split
  · next heq => cases heq
  · next heq =>
    cases heq
    exact absurd h (by decide)
  · next heq =>
    cases heq
    exact absurd h (by decide)
  · rfl

/-- The same decimal; a zero has no sign. -/
def unsignedZero (d : Decimal) : Decimal :=
  { d with negative := d.negative && d.mantissa != 0 }

/-- The digits of a decimal are read as it, under its own sign. -/
theorem readSigned_fixed (d : Decimal) :
    readSigned d.negative (Digits.fixed d.mantissa d.scale) = .ok d.unsignedZero := by
  rw [readSigned, readMagnitude_fixed d.mantissa_lt d.scale_le]
  show ofMagnitude d.negative d.mantissa d.scale = _
  rw [ofMagnitude, ofParts?, dif_pos ⟨d.mantissa_lt, d.scale_le⟩]
  rfl

/-- The text of a decimal is read as the decimal with its scale; a zero loses its sign. -/
theorem read_display (d : Decimal) : read d.display = .ok d.unsignedZero := by
  have hplain : readPlain d.display = .ok d.unsignedZero := by
    rw [display, ← readSigned_fixed]
    by_cases hnegative : d.negative = true
    · rw [if_pos hnegative, hnegative]
      rfl
    · obtain ⟨c, rest, hcons, hc⟩ := exists_fixed_eq_cons d.mantissa d.scale
      rw [if_neg hnegative, hcons, readPlain_of_isDigit hc, Bool.eq_false_iff.2 hnegative]
  rw [read, hplain]

/-- Zeros are equal whatever their signs. -/
theorem unsignedZero_equal (d : Decimal) : d.unsignedZero.equal d = true := by
  rw [equal, unsignedZero]
  by_cases hzero : d.mantissa = 0
  · simp [hzero]
  · simp [hzero]

/-- Only a zero with a sign changes. -/
theorem unsignedZero_eq_self {d : Decimal} (h : ¬ (d.negative = true ∧ d.mantissa = 0)) :
    d.unsignedZero = d := by
  have hsign : (d.negative && d.mantissa != 0) = d.negative := by
    cases hnegative : d.negative with
    | false => rfl
    | true => simpa [hnegative] using h
  rw [unsignedZero, hsign]

end TypedCsv.Decimal
