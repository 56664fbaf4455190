import Mathlib.Data.List.Basic
import TypedCsv.Source

/-! # Reading from an input with known bytes

What `Source.next?` and `Source.readLine` give is settled by the bytes that are to come and by the
ending, not by the pieces that hold the bytes.

* `Source.readLine_of_bytes`: the line that some bytes start with.
* `Source.readLine_cases`: all that reading a line can come to. -/

namespace TypedCsv.Source

variable {s : Source} {tail : List UInt8}

/-- An input of some bytes has these bytes. -/
@[simp] theorem bytes_ofBytes (bytes : List UInt8) : (ofBytes bytes).bytes = bytes := by
  simp [ofBytes, Source.bytes]

/-- The next byte of an input that is not at its end. -/
theorem next?_of_bytes {byte : UInt8} (h : s.bytes = byte :: tail) :
    ∃ rest, s.next? = some (byte, rest) ∧ rest.bytes = tail ∧ rest.ending = s.ending := by
  cases hn : s.next? with
  | none =>
    rw [(next?_eq_none_iff s).1 hn] at h
    cases h
  | some found =>
    obtain ⟨b, rest⟩ := found
    obtain ⟨hb, he⟩ := bytes_of_next? hn
    rw [hb] at h
    cases h
    exact ⟨rest, rfl, rfl, he⟩

/-- At the end of an input no line is left. -/
theorem takeLine_of_next?_eq_none (h : s.next? = none) : s.takeLine = ([], s) := by
  rw [takeLine.eq_def]
  split
  · rfl
  · next hn => rw [h] at hn; cases hn

/-- A line goes on byte by byte up to its line feed. -/
theorem takeLine_of_next? {byte : UInt8} {rest : Source} (h : s.next? = some (byte, rest)) :
    s.takeLine = if byte = lineFeed then ([byte], rest)
      else (byte :: rest.takeLine.1, rest.takeLine.2) := by
  rw [takeLine.eq_def]
  split
  · next hn => rw [h] at hn; cases hn
  · next hn =>
    rw [h] at hn
    cases hn
    rfl

/-- The bytes up to the first line feed and that line feed make a line. -/
theorem takeLine_of_bytes {line : List UInt8} (hl : lineFeed ∉ line)
    (h : s.bytes = line ++ lineFeed :: tail) :
    ∃ rest, s.takeLine = (line ++ [lineFeed], rest) ∧ rest.bytes = tail ∧
      rest.ending = s.ending := by
  induction line generalizing s with
  | nil =>
    obtain ⟨rest, hn, hb, he⟩ := next?_of_bytes (by simpa using h)
    exact ⟨rest, by simp [takeLine_of_next? hn], hb, he⟩
  | cons byte line ih =>
    obtain ⟨rest, hn, hb, he⟩ := next?_of_bytes (by simpa using h)
    obtain ⟨hne, hl⟩ := not_or.1 (mt List.mem_cons.2 hl)
    obtain ⟨last, ht, hbytes, hend⟩ := ih hl hb
    refine ⟨last, ?_, hbytes, hend.trans he⟩
    rw [takeLine_of_next? hn, if_neg (Ne.symm hne), ht, List.cons_append]

/-- Reading a line takes the bytes up to the first line feed and that line feed. -/
theorem readLine_of_bytes {line : List UInt8} (hl : lineFeed ∉ line)
    (h : s.bytes = line ++ lineFeed :: tail) :
    ∃ rest, s.readLine = .line (line ++ [lineFeed]) rest ∧ rest.bytes = tail ∧
      rest.ending = s.ending := by
  obtain ⟨rest, ht, hb, he⟩ := takeLine_of_bytes hl h
  exact ⟨rest, by simp [readLine, ht], hb, he⟩

/-- At the end of its bytes a complete input has no line left. -/
theorem readLine_of_bytes_eq_nil (h : s.bytes = []) (he : s.ending = .complete) :
    s.readLine = .ended := by
  simp [readLine, takeLine_of_next?_eq_none ((next?_eq_none_iff s).2 h), he]

/-! ## What reading a line tells about the input -/

/-- Without a line feed all bytes that are to come are taken. -/
theorem takeLine_of_not_mem (h : lineFeed ∉ s.bytes) :
    ∃ rest, s.takeLine = (s.bytes, rest) ∧ rest.bytes = [] ∧ rest.ending = s.ending := by
  generalize hbytes : s.bytes = bytes at h
  induction bytes generalizing s with
  | nil => exact ⟨s, takeLine_of_next?_eq_none ((next?_eq_none_iff s).2 hbytes), hbytes, rfl⟩
  | cons byte bytes ih =>
    obtain ⟨hne, hmem⟩ := not_or.1 (mt List.mem_cons.2 h)
    obtain ⟨rest, hn, hb, he⟩ := next?_of_bytes hbytes
    obtain ⟨last, ht, hlast, hend⟩ := ih hb hmem
    refine ⟨last, ?_, hlast, hend.trans he⟩
    rw [takeLine_of_next? hn, if_neg (Ne.symm hne), ht]

/-- Reading a line takes it up to its line feed. Where there is none, the input fails or ends, or
its last bytes are a line. -/
theorem readLine_cases (s : Source) :
    (∃ body rest, lineFeed ∉ body ∧ s.bytes = body ++ lineFeed :: rest.bytes ∧
        rest.ending = s.ending ∧ s.readLine = .line (body ++ [lineFeed]) rest) ∨
      lineFeed ∉ s.bytes ∧ ((∃ fault, s.ending = .failure fault ∧ s.readLine = .failed fault) ∨
        s.ending = .complete ∧ (s.bytes = [] ∧ s.readLine = .ended ∨
          s.bytes ≠ [] ∧ ∃ rest, s.readLine = .line s.bytes rest ∧ rest.bytes = [] ∧
            rest.ending = .complete)) := by
  by_cases hmem : lineFeed ∈ s.bytes
  · obtain ⟨body, tail, hbytes, hbody⟩ := List.eq_append_cons_of_mem hmem
    obtain ⟨rest, hread, hrest, hend⟩ := readLine_of_bytes hbody hbytes
    exact Or.inl ⟨body, rest, hbody, by rw [hbytes, hrest], hend, hread⟩
  · obtain ⟨rest, ht, hrest, hend⟩ := takeLine_of_not_mem hmem
    have hlast : s.bytes.getLast? ≠ some lineFeed := fun h => hmem (List.mem_of_getLast? h)
    refine Or.inr ⟨hmem, ?_⟩
    simp only [readLine, ht, if_neg hlast]
    cases he : s.ending with
    | failure fault => exact Or.inl ⟨fault, rfl, rfl⟩
    | complete =>
      refine Or.inr ⟨rfl, ?_⟩
      by_cases hb : s.bytes = []
      · exact Or.inl ⟨hb, by simp [hb]⟩
      · exact Or.inr ⟨hb, rest, by simp [hb], hrest, hend.trans he⟩

/-- Reading fails only where no line feed comes before the failure of the input. -/
theorem of_readLine_eq_failed {fault : IoFault} (h : s.readLine = .failed fault) :
    lineFeed ∉ s.bytes ∧ s.ending = .failure fault := by
  obtain ⟨body, rest, -, -, -, hread⟩ | ⟨hmem, ⟨fault', he, hread⟩ |
    ⟨-, ⟨-, hread⟩ | ⟨-, rest, hread, -⟩⟩⟩ := s.readLine_cases <;> rw [hread] at h <;> cases h
  exact ⟨hmem, he⟩

/-- Only a complete input at the end of its bytes has ended. -/
theorem of_readLine_eq_ended (h : s.readLine = .ended) : s.bytes = [] ∧ s.ending = .complete := by
  obtain ⟨body, rest, -, -, -, hread⟩ | ⟨-, ⟨fault, -, hread⟩ |
    ⟨he, ⟨hb, hread⟩ | ⟨-, rest, hread, -⟩⟩⟩ := s.readLine_cases <;> rw [hread] at h <;> cases h
  exact ⟨hb, he⟩

/-- A line ends with its only line feed, or is what a complete input ends with. -/
theorem of_readLine_eq_line {rest : Source} {line : List UInt8} (h : s.readLine = .line line rest) :
    rest.ending = s.ending ∧
      ((∃ body, lineFeed ∉ body ∧ line = body ++ [lineFeed] ∧
          s.bytes = body ++ lineFeed :: rest.bytes) ∨
        lineFeed ∉ line ∧ line ≠ [] ∧ s.bytes = line ∧ rest.bytes = [] ∧
          s.ending = .complete) := by
  obtain ⟨body, last, hbody, hb, hend, hread⟩ | ⟨hmem, ⟨fault, -, hread⟩ |
    ⟨he, ⟨-, hread⟩ | ⟨hne, last, hread, hrest, hend⟩⟩⟩ := s.readLine_cases <;>
    rw [hread] at h <;> cases h
  · exact ⟨hend, Or.inl ⟨body, hbody, rfl, hb⟩⟩
  · exact ⟨hend.trans he.symm, Or.inr ⟨hmem, hne, rfl, hrest, he⟩⟩

end TypedCsv.Source
