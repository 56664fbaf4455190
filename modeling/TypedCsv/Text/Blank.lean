/-! # Blank characters and trimming

The blank characters are those of the Unicode property `White_Space`.

* `isBlank c`: membership in the table.
* `trimStart`, `trimEnd`, `trim`: blanks taken off the ends of a text.

A text without blanks at its ends is left as it is (`trim_eq_self`). -/

namespace TypedCsv.Text

/-- The ranges of the Unicode property `White_Space`, ascending, ends included. -/
def blankRanges : List (Nat × Nat) :=
  [(0x09, 0x0D), (0x20, 0x20), (0x85, 0x85), (0xA0, 0xA0), (0x1680, 0x1680), (0x2000, 0x200A),
    (0x2028, 0x2029), (0x202F, 0x202F), (0x205F, 0x205F), (0x3000, 0x3000)]

/-- Whether a character is white space in the sense of Unicode. -/
def isBlank (c : Char) : Bool :=
  blankRanges.any fun (low, high) => low ≤ c.toNat && c.toNat ≤ high

/-- The text from its first character that is not blank. -/
def trimStart (text : List Char) : List Char :=
  text.dropWhile isBlank

/-- The text up to its last character that is not blank. -/
def trimEnd (text : List Char) : List Char :=
  (text.reverse.dropWhile isBlank).reverse

/-- The text without the blanks at its two ends. -/
def trim (text : List Char) : List Char :=
  trimEnd (trimStart text)

/-- A text that does not start with a blank keeps its start. -/
theorem trimStart_eq_self {text : List Char} (h : ∀ c ∈ text.head?, isBlank c = false) :
    trimStart text = text := by
  cases text with
  | nil => rfl
  | cons c rest => simp [trimStart, h c (by simp)]

/-- A text that does not end with a blank keeps its end. -/
theorem trimEnd_eq_self {text : List Char} (h : ∀ c ∈ text.getLast?, isBlank c = false) :
    trimEnd text = text := by
  have hhead : ∀ c ∈ text.reverse.head?, isBlank c = false := by
    rwa [List.head?_reverse]
  have := trimStart_eq_self hhead
  simp only [trimStart] at this
  simp [trimEnd, this]

/-- Trimming keeps a text that neither starts nor ends with a blank. -/
theorem trim_eq_self {text : List Char} (hstart : ∀ c ∈ text.head?, isBlank c = false)
    (hend : ∀ c ∈ text.getLast?, isBlank c = false) : trim text = text := by
  rw [trim, trimStart_eq_self hstart, trimEnd_eq_self hend]

end TypedCsv.Text
