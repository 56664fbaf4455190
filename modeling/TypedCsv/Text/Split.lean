/-! # Cutting texts

`split` cuts a text at each occurrence of a separator. There is always at least one part, and
joining the parts with the separator gives the text again (`intercalate_split`). -/

namespace TypedCsv.Text

/-- Adds a character to the first of some parts. -/
def consFirst (c : Char) : List (List Char) → List (List Char)
  | [] => [[c]]
  | part :: parts => (c :: part) :: parts

/-- The parts of a text between the separators. -/
def split (separator : Char) : List Char → List (List Char)
  | [] => [[]]
  | c :: rest =>
    if c = separator then [] :: split separator rest else consFirst c (split separator rest)

/-- Every text has at least one part. -/
theorem split_ne_nil (separator : Char) (text : List Char) : split separator text ≠ [] := by
  cases text with
  | nil => simp [split]
  | cons c rest =>
    rw [split]
    split
    · simp
    · cases h : split separator rest <;> simp [consFirst]

/-- The parts with the separator between them are the text. -/
theorem intercalate_split (separator : Char) (text : List Char) :
    [separator].intercalate (split separator text) = text := by
  induction text with
  | nil => simp [split, List.intercalate]
  | cons c rest ih =>
    rw [split]
    obtain ⟨part, parts, h⟩ := List.exists_cons_of_ne_nil (split_ne_nil separator rest)
    rw [h] at ih ⊢
    split
    · next hc => simp [List.intercalate, List.intersperse, hc] at ih ⊢; exact ih
    · cases parts <;> simp_all [consFirst, List.intercalate, List.intersperse]

end TypedCsv.Text
