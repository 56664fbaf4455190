/-! # Inputs

A `Source` hands out the bytes of an input piece by piece and then ends, or fails.

* `Source.next?`: the next byte and the source after it.
* `Source.bytes`: all bytes that are still to come.
* `Source.readLine`: the next line.

What is read depends on the bytes and the ending only, not on the pieces
(`Source.next?_eq_none_iff`, `Source.bytes_of_next?`). -/

namespace TypedCsv

/-- Why an input or an output fails. -/
structure IoFault where
  message : String
deriving DecidableEq, Repr

/-- What comes after the last byte of an input. -/
inductive Ending where
  | complete
  | failure (fault : IoFault)
deriving DecidableEq, Repr

/-- An input that is handed out in pieces. -/
structure Source where
  pieces : List (List UInt8)
  ending : Ending
deriving DecidableEq, Repr

namespace Source

/-- The bytes that are still to come. -/
def bytes (s : Source) : List UInt8 :=
  s.pieces.flatten

/-- The number of bytes that are still to come. -/
def size (s : Source) : Nat :=
  s.bytes.length

/-- A complete input in one piece. -/
def ofBytes (bytes : List UInt8) : Source :=
  ⟨[bytes], .complete⟩

/-- Cuts bytes into pieces of the given size, the last one perhaps shorter. -/
def cut (size : Nat) (bytes : List UInt8) : List (List UInt8) :=
  if _h : size = 0 ∨ bytes.length ≤ size then [bytes]
  else bytes.take size :: cut size (bytes.drop size)
termination_by bytes.length
decreasing_by simp only [List.length_drop]; omega

/-- The first byte of some pieces and what is left of them. -/
def firstByte? : List (List UInt8) → Option (UInt8 × List (List UInt8))
  | [] => none
  | [] :: pieces => firstByte? pieces
  | (byte :: piece) :: pieces => some (byte, piece :: pieces)

/-- The next byte and the source after it. -/
def next? (s : Source) : Option (UInt8 × Source) :=
  match firstByte? s.pieces with
  | some (byte, pieces) => some (byte, { s with pieces := pieces })
  | none => none

/-- There is no first byte exactly if all pieces are empty. -/
theorem firstByte?_eq_none_iff (pieces : List (List UInt8)) :
    firstByte? pieces = none ↔ pieces.flatten = [] := by
  induction pieces with
  | nil => simp [firstByte?]
  | cons piece pieces ih => cases piece <;> simp [firstByte?, ih]

/-- The first byte of some pieces is the first one of their bytes. -/
theorem flatten_of_firstByte? {pieces rest : List (List UInt8)} {byte : UInt8}
    (h : firstByte? pieces = some (byte, rest)) : pieces.flatten = byte :: rest.flatten := by
  induction pieces with
  | nil => simp [firstByte?] at h
  | cons piece pieces ih =>
    cases piece with
    | nil => simpa using ih (by simpa [firstByte?] using h)
    | cons b piece =>
      simp only [firstByte?, Option.some.injEq, Prod.mk.injEq] at h
      simp [← h.1, ← h.2]

/-- There is no next byte exactly when no bytes are to come. -/
theorem next?_eq_none_iff (s : Source) : s.next? = none ↔ s.bytes = [] := by
  rw [bytes, ← firstByte?_eq_none_iff, next?]
  split <;> simp_all

/-- The next byte is the first of those to come. -/
theorem bytes_of_next? {s rest : Source} {byte : UInt8} (h : s.next? = some (byte, rest)) :
    s.bytes = byte :: rest.bytes ∧ rest.ending = s.ending := by
  unfold next? at h
  split at h
  · next b pieces hb =>
    simp only [Option.some.injEq, Prod.mk.injEq] at h
    obtain ⟨rfl, rfl⟩ := h
    exact ⟨flatten_of_firstByte? hb, rfl⟩
  · simp at h

/-- Reading a byte leaves fewer. -/
theorem size_lt_of_next? {s rest : Source} {byte : UInt8} (h : s.next? = some (byte, rest)) :
    rest.size < s.size := by
  simp [size, (bytes_of_next? h).1]

/-! ## Lines -/

/-- The byte that ends a line. -/
def lineFeed : UInt8 := 0x0A

/-- The byte that may stand before the end of a line. -/
def carriageReturn : UInt8 := 0x0D

/-- The bytes up to the next line feed, that included, and the source after them; without a line
feed these are all bytes. -/
def takeLine (s : Source) : List UInt8 × Source :=
  match _h : s.next? with
  | none => ([], s)
  | some (byte, rest) =>
    if byte = lineFeed then ([byte], rest)
    else
      let (line, rest) := rest.takeLine
      (byte :: line, rest)
termination_by s.size
decreasing_by exact size_lt_of_next? _h

/-- The next line of an input. -/
inductive Line where
  | line (bytes : List UInt8) (rest : Source)
  | ended
  | failed (fault : IoFault)

/-- Reads the next line; the last one need not have a line feed. -/
def readLine (s : Source) : Line :=
  let (line, rest) := s.takeLine
  if line.getLast? = some lineFeed then .line line rest
  else
    match s.ending with
    | .failure fault => .failed fault
    | .complete => if line.isEmpty then .ended else .line line rest

/-- A line and what follows it are all the bytes. -/
theorem bytes_takeLine (s : Source) : s.bytes = s.takeLine.1 ++ s.takeLine.2.bytes := by
  fun_induction takeLine s with
  | case1 s h => simp
  | case2 s rest h => simp [(bytes_of_next? h).1]
  | case3 s byte rest h _ line rest' heq ih => simp [(bytes_of_next? h).1, ih, heq]

/-- A line that is read is not empty and comes before the rest. -/
theorem bytes_of_readLine {s rest : Source} {line : List UInt8}
    (h : s.readLine = .line line rest) : s.bytes = line ++ rest.bytes ∧ line ≠ [] := by
  have hb := bytes_takeLine s
  unfold readLine at h
  split at h
  next taken after heq =>
  rw [heq] at hb
  split at h
  · next hl =>
    cases h
    exact ⟨hb, fun he => by simp [he] at hl⟩
  · split at h
    · cases h
    · split at h
      · cases h
      · next hne =>
        cases h
        exact ⟨hb, by simpa using hne⟩

/-- Reading a line leaves fewer bytes. -/
theorem size_lt_of_readLine {s rest : Source} {line : List UInt8}
    (h : s.readLine = .line line rest) : rest.size < s.size := by
  obtain ⟨hb, hne⟩ := bytes_of_readLine h
  have := List.length_pos_iff.2 hne
  simp only [size, hb, List.length_append]
  omega

end Source

end TypedCsv
