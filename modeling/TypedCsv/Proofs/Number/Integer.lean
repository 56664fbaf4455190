import TypedCsv.Number.Integer
import TypedCsv.Proofs.Number.Digits

/-! # Whole numbers are read back

`Integer.read_display`: the text of a whole number of 64 bits is read as the number. -/

namespace TypedCsv.Integer

open Digits (AllDigits isDigit valueFrom value)

/-- Digits are read as their number while it stays in range. -/
theorem readMagnitude_of_allDigits (negative : Bool) {n : Nat} {digits : List Char}
    (hdigits : AllDigits digits) (hbound : valueFrom n digits ≤ bound negative) :
    readMagnitude negative n digits = .ok (valueFrom n digits) := by
  induction digits generalizing n with
  | nil => rfl
  | cons c digits ih =>
    obtain ⟨d, hd, -⟩ := Digits.exists_digit? (hdigits c List.mem_cons_self)
    rw [Digits.valueFrom_cons, hd, Option.getD_some] at hbound ⊢
    -- no earlier number is greater
    have hstep := (Digits.le_valueFrom (n * 10 + d) digits).trans hbound
    rw [readMagnitude, hd]
    dsimp only
    rw [if_pos hstep]
    exact ih (fun c hc => hdigits c (List.mem_cons_of_mem _ hc)) hbound

/-- The digits of a number within the bound of a sign are read as the number with that sign. -/
theorem readDigits_ofNat {negative : Bool} {n : Nat} (h : n ≤ bound negative) :
    readDigits negative (Digits.ofNat n) =
      .ok (Int64.ofInt (if negative then -(n : Int) else n)) := by
  have hvalue : valueFrom 0 (Digits.ofNat n) = n := Digits.value_ofNat n
  have hread := readMagnitude_of_allDigits negative (Digits.allDigits_ofNat n)
    (hvalue.trans_le h)
  rw [hvalue] at hread
  rw [readDigits.eq_def]
  split
  · next hnil => exact absurd hnil (Digits.ofNat_ne_nil n)
  · rw [hread]
    rfl

/-- Without a sign in front a number is not negative. -/
theorem read_of_isDigit {c : Char} {rest : List Char} (h : isDigit c = true) :
    read (c :: rest) = readDigits false (c :: rest) := by
  unfold read
  split
  · next heq => cases heq
  · next heq =>
    cases heq
    exact absurd h (by decide)
  · next heq =>
    cases heq
    exact absurd h (by decide)
  · rfl

/-- The text of a whole number is read as the number. -/
theorem read_display (n : Int64) : read (display n) = .ok n := by
  have hlow := n.le_toInt
  have hhigh := n.toInt_lt
  rw [display, Digits.ofInt]
  by_cases hn : n.toInt < 0
  · have hbound : n.toInt.natAbs ≤ bound true := by
      show _ ≤ 2 ^ 63
      omega
    have hint : -(n.toInt.natAbs : Int) = n.toInt := by omega
    rw [if_pos hn, read, readDigits_ofNat hbound, if_pos rfl, hint, Int64.ofInt_toInt]
  · have hbound : n.toInt.natAbs ≤ bound false := by
      show _ ≤ 2 ^ 63 - 1
      omega
    have hint : (n.toInt.natAbs : Int) = n.toInt := by omega
    obtain ⟨c, rest, htext, hc⟩ :=
      (Digits.allDigits_ofNat n.toInt.natAbs).exists_cons (Digits.ofNat_ne_nil _)
    rw [if_neg hn, htext, read_of_isDigit hc, ← htext, readDigits_ofNat hbound,
      if_neg Bool.false_ne_true, hint, Int64.ofInt_toInt]

end TypedCsv.Integer
