import TypedCsv.Number.Digits

/-! # Decimal numbers

A `Decimal` is a sign, a mantissa of 96 bits and a scale of at most 28: the number
`± mantissa / 10 ^ scale`. Numbers of different scales may be equal (`Decimal.equal`); the text
form (`Decimal.display`) shows the scale. -/

namespace TypedCsv

/-- The number `± mantissa / 10 ^ scale`. -/
structure Decimal where
  negative : Bool
  mantissa : Nat
  scale : Nat
  mantissa_lt : mantissa < 2 ^ 96
  scale_le : scale ≤ 28
deriving DecidableEq

namespace Decimal

/-- The greatest scale. -/
def maxScale : Nat := 28

/-- Mantissas lie below this bound. -/
def mantissaBound : Nat := 2 ^ 96

/-- The decimal with the given parts, if they are in range. -/
def ofParts? (negative : Bool) (mantissa scale : Nat) : Option Decimal :=
  if h : mantissa < 2 ^ 96 ∧ scale ≤ 28 then some ⟨negative, mantissa, scale, h.1, h.2⟩ else none

/-- Whether two decimals are the same number; both zeros are. -/
def equal (a b : Decimal) : Bool :=
  a.mantissa * 10 ^ b.scale == b.mantissa * 10 ^ a.scale
    && (a.negative == b.negative || a.mantissa == 0)

/-- The text of a decimal, with as many places as its scale. -/
def display (d : Decimal) : List Char :=
  let magnitude := Digits.fixed d.mantissa d.scale
  if d.negative then '-' :: magnitude else magnitude

/-- A decimal with fewer places has a scale in range too. -/
theorem scale_sub_le (d : Decimal) (places : Nat) : d.scale - places ≤ 28 :=
  Nat.le_trans (Nat.sub_le _ _) d.scale_le

/-- The same decimal with `places` places fewer after the point, rounded to the nearest; a half
goes away from zero. The sign stays, also of a zero. -/
def dropPlaces (d : Decimal) (places : Nat) : Decimal :=
  if h : 0 < places then
    { d with
      mantissa := (d.mantissa + 5 * 10 ^ (places - 1)) / 10 ^ places
      scale := d.scale - places
      mantissa_lt := by
        have hm := d.mantissa_lt
        obtain ⟨k, rfl⟩ : ∃ k, places = k + 1 := ⟨places - 1, by omega⟩
        have hpos : 0 < 10 ^ k := Nat.pow_pos (by decide)
        rw [Nat.div_lt_iff_lt_mul (Nat.pow_pos (by decide)), Nat.pow_succ, Nat.add_sub_cancel]
        calc d.mantissa + 5 * 10 ^ k
            < 2 ^ 96 + 5 * 10 ^ k := by omega
          _ ≤ 2 ^ 96 * 10 ^ k + 2 ^ 96 * 10 ^ k := by
              have h1 : 2 ^ 96 * 1 ≤ 2 ^ 96 * 10 ^ k := Nat.mul_le_mul_left _ hpos
              have h2 : 5 * 10 ^ k ≤ 2 ^ 96 * 10 ^ k := Nat.mul_le_mul_right _ (by decide)
              omega
          _ ≤ 2 ^ 96 * (10 ^ k * 10) := by
              have := Nat.mul_pos (show 0 < 2 ^ 96 by decide) hpos
              have h3 : 2 ^ 96 * (10 ^ k * 10) = 10 * (2 ^ 96 * 10 ^ k) := by
                rw [← Nat.mul_assoc, Nat.mul_comm]
              omega
      scale_le := d.scale_sub_le places }
  else d

end Decimal

end TypedCsv
