import Mathlib.Tactic.Ring
import TypedCsv.Number.Digits
import TypedCsv.Text.Blank

/-! # Rows of digits and their numbers

The digits of a number stand for the number (`Digits.value_ofNat`, `Digits.value_padded`). The
readers of numbers walk over rows of digits, so their lemmas ask for `Digits.AllDigits`. -/

namespace TypedCsv

/-! ## Plain characters -/

/-- A character of ASCII that is not blank. -/
def Text.isPlain (c : Char) : Bool :=
  ! isBlank c && c.toNat < 128

/-- A plain character is one of ASCII that is not blank. -/
theorem Text.isPlain_iff {c : Char} : isPlain c = true ↔ isBlank c = false ∧ c.toNat < 128 := by
  simp [isPlain]

/-- A plain character is not blank. -/
theorem Text.isBlank_of_isPlain {c : Char} (h : isPlain c = true) : isBlank c = false :=
  (isPlain_iff.1 h).1

/-- A plain character is one of ASCII. -/
theorem Text.toNat_lt_of_isPlain {c : Char} (h : isPlain c = true) : c.toNat < 128 :=
  (isPlain_iff.1 h).2

namespace Digits

/-! ## Single digits -/

/-- The digits stand at the places 48 to 57 of ASCII. -/
theorem isDigit_iff {c : Char} : isDigit c = true ↔ 48 ≤ c.toNat ∧ c.toNat ≤ 57 := by
  have hlow : '0' ≤ c ↔ 48 ≤ c.toNat := Char.le_def.trans UInt32.le_iff_toNat_le
  have hhigh : c ≤ '9' ↔ c.toNat ≤ 57 := Char.le_def.trans UInt32.le_iff_toNat_le
  rw [← hlow, ← hhigh, isDigit, digit?]
  split <;> simp_all

/-- The character of a digit is read as the digit. -/
theorem digit?_char {d : Nat} (h : d < 10) : digit? (char d) = some d := by
  revert d
  decide

/-- The character of a digit is a digit. -/
theorem isDigit_char {d : Nat} (h : d < 10) : isDigit (char d) = true := by
  rw [isDigit, digit?_char h]
  rfl

/-- A digit stands for a number below ten. -/
theorem exists_digit? {c : Char} (h : isDigit c = true) : ∃ d, digit? c = some d ∧ d < 10 := by
  have hc := isDigit_iff.1 h
  rw [isDigit, digit?] at h
  split at h
  · next hrange => exact ⟨c.toNat - 48, if_pos hrange, by omega⟩
  · cases h

/-- Digits are plain characters. -/
theorem isPlain_of_isDigit {c : Char} (h : isDigit c = true) : Text.isPlain c = true := by
  rw [isDigit_iff] at h
  simp only [Text.isPlain_iff, Text.isBlank, Text.blankRanges, List.any_cons, List.any_nil,
    Bool.or_false, Bool.or_eq_false_iff, Bool.and_eq_false_iff, decide_eq_false_iff_not]
  omega

/-! ## Rows of digits -/

/-- All characters are digits. -/
def AllDigits (text : List Char) : Prop :=
  ∀ c ∈ text, isDigit c = true

/-- A row of digits starts with a digit. -/
theorem AllDigits.exists_cons {text : List Char} (h : AllDigits text) (hne : text ≠ []) :
    ∃ c rest, text = c :: rest ∧ isDigit c = true := by
  obtain ⟨c, rest, rfl⟩ := List.exists_cons_of_ne_nil hne
  exact ⟨c, rest, rfl, h c List.mem_cons_self⟩

/-- Digits behind digits are digits. -/
theorem AllDigits.append {s t : List Char} (hs : AllDigits s) (ht : AllDigits t) :
    AllDigits (s ++ t) := by
  intro c hc
  rw [List.mem_append] at hc
  exact hc.elim (hs c) (ht c)

/-- The first of some digits are digits. -/
theorem AllDigits.take {text : List Char} (h : AllDigits text) (n : Nat) :
    AllDigits (text.take n) :=
  fun c hc => h c (List.mem_of_mem_take hc)

/-- The last of some digits are digits. -/
theorem AllDigits.drop {text : List Char} (h : AllDigits text) (n : Nat) :
    AllDigits (text.drop n) :=
  fun c hc => h c (List.mem_of_mem_drop hc)

/-- A number in front moves up by the number of digits behind it. -/
theorem valueFrom_eq (n : Nat) (digits : List Char) :
    valueFrom n digits = n * 10 ^ digits.length + value digits := by
  induction digits generalizing n with
  | nil => simp [value]
  | cons c digits ih =>
    have hvalue : value (c :: digits) = (digit? c).getD 0 * 10 ^ digits.length + value digits := by
      rw [value, valueFrom_cons, ih, Nat.zero_mul, Nat.zero_add]
    rw [valueFrom_cons, ih, hvalue, List.length_cons, Nat.pow_succ]
    ring

/-- Digits behind a number do not make it smaller. -/
theorem le_valueFrom (n : Nat) (digits : List Char) : n ≤ valueFrom n digits := by
  rw [valueFrom_eq]
  have hpos : 1 ≤ 10 ^ digits.length := Nat.one_le_pow _ _ (by decide)
  have hmul := Nat.mul_le_mul_left n hpos
  omega

/-- The digits in front count by the number of those behind them. -/
theorem value_append (s t : List Char) : value (s ++ t) = value s * 10 ^ t.length + value t := by
  rw [value, valueFrom_append, valueFrom_eq]
  rfl

/-! ## Digits of a number -/

/-- A number below ten has one digit. -/
theorem ofNat_of_lt {n : Nat} (h : n < 10) : ofNat n = [char n] := by
  rw [ofNat, if_pos h]

/-- A larger number has the digits of its tenth part and its last digit. -/
theorem ofNat_of_le {n : Nat} (h : 10 ≤ n) : ofNat n = ofNat (n / 10) ++ [char (n % 10)] := by
  rw [ofNat, if_neg (by omega)]

/-- Every number has a digit. -/
theorem ofNat_ne_nil (n : Nat) : ofNat n ≠ [] := by
  rw [ofNat]
  split <;> simp

/-- The digits of a number are digits. -/
theorem allDigits_ofNat (n : Nat) : AllDigits (ofNat n) := by
  fun_induction ofNat n with
  | case1 n h =>
    intro c hc
    rw [List.mem_singleton.1 hc]
    exact isDigit_char h
  | case2 n h ih =>
    refine ih.append ?_
    intro c hc
    rw [List.mem_singleton.1 hc]
    exact isDigit_char (Nat.mod_lt n (by decide))

/-- The digits of a number stand for it. -/
@[simp] theorem value_ofNat (n : Nat) : value (ofNat n) = n := by
  fun_induction ofNat n with
  | case1 n h =>
    rw [value, valueFrom_cons, digit?_char h]
    simp
  | case2 n h ih =>
    have hlast := digit?_char (Nat.mod_lt n (by decide : 0 < 10))
    rw [value_append, ih, value, valueFrom_cons, hlast]
    simp only [List.length_singleton, Option.getD_some, valueFrom_nil]
    omega

/-- A number below a power of ten has no more digits than its exponent. -/
theorem length_ofNat_le {n width : Nat} (hwidth : 1 ≤ width) (h : n < 10 ^ width) :
    (ofNat n).length ≤ width := by
  induction width generalizing n with
  | zero => omega
  | succ width ih =>
    by_cases hn : n < 10
    · rw [ofNat_of_lt hn]
      simp
    · -- without its last digit the number has one place less
      rw [ofNat_of_le (by omega), List.length_append, List.length_singleton]
      have hdiv : n / 10 < 10 ^ width := by
        rw [Nat.div_lt_iff_lt_mul (by decide), ← Nat.pow_succ]
        exact h
      have hpos : 1 ≤ width := by
        by_contra hzero
        rw [show width = 0 by omega] at hdiv
        omega
      have := ih hpos hdiv
      omega

/-! ## Digits with zeros in front -/

/-- A padded number consists of digits. -/
theorem allDigits_padded (width n : Nat) : AllDigits (padded width n) := by
  refine AllDigits.append ?_ (allDigits_ofNat n)
  intro c hc
  rw [List.eq_of_mem_replicate hc]
  decide

/-- Zeros in front do not change a number. -/
@[simp] theorem value_padded (width n : Nat) : value (padded width n) = n := by
  have hzeros (k : Nat) : value (List.replicate k '0') = 0 := by
    induction k with
    | zero => rfl
    | succ k ih =>
      rw [List.replicate_succ, value, valueFrom_cons]
      exact ih
  rw [padded, value_append, hzeros, value_ofNat]
  omega

/-- A padded number is as long as the width if it has no more digits. -/
theorem length_padded {width n : Nat} (hwidth : 1 ≤ width) (h : n < 10 ^ width) :
    (padded width n).length = width := by
  have hlength := length_ofNat_le hwidth h
  rw [padded, List.length_append, List.length_replicate]
  omega

/-- A padded number is at least as long as the width. -/
theorem le_length_padded (width n : Nat) : width ≤ (padded width n).length := by
  rw [padded, List.length_append, List.length_replicate]
  omega

/-- A padded number is not empty. -/
theorem padded_ne_nil (width n : Nat) : padded width n ≠ [] := by
  intro h
  exact ofNat_ne_nil n (List.append_eq_nil_iff.1 h).2

end Digits

end TypedCsv
