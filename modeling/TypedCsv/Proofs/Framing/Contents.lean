import TypedCsv.Proofs.Framing.Bytewise
import TypedCsv.Proofs.Framing.Runs

/-! # What a cell holds stands in the input

The quoted framing leaves bytes out but changes none and moves none. So if quotes and escapes are
left out on both sides, the bytes of a cell stand in those of the input
(`Quoted.contents_of_mem_outcomes`).

* `Quoted.bare`: bytes without quotes and escapes.
* `Quoted.Traces`: what the machine holds between two bytes stands in the bytes it has read. -/

namespace TypedCsv.Framing

/-- Only the bytes of cells are read as the cells. -/
theorem eq_map_cellBytes_of_decodeCells {index : Nat} {raw : List (List UInt8)}
    {cells : List String} (h : decodeCells index raw = .ok cells) : raw = cells.map cellBytes := by
  induction raw generalizing index cells with
  | nil =>
    cases h
    rfl
  | cons bytes raw ih =>
    rw [decodeCells] at h
    split at h
    · cases h
    · next text htext =>
      split at h
      · cases h
      · next texts htexts =>
        cases h
        rw [List.map_cons, ← ih htexts, cellBytes, String.toList_ofList,
          Utf8.encode_of_decode htext]

/-- The cells of a record that has been read. -/
def Outcome.cells? : Outcome → Option (List String)
  | record _ cells => some cells
  | _ => none

namespace Quoted

variable {d : Dialect} {m n : Machine} {done more : List UInt8} {byte : UInt8}

/-- Bytes without quotes and escapes. -/
def bare (d : Dialect) (bytes : List UInt8) : List UInt8 :=
  bytes.filter fun byte => d.quote != some byte && d.escape != some byte

/-- Of no bytes none are left. -/
@[simp] theorem bare_nil (d : Dialect) : bare d [] = [] := rfl

/-- Quotes and escapes are taken out byte by byte. -/
@[simp] theorem bare_append (d : Dialect) (xs ys : List UInt8) :
    bare d (xs ++ ys) = bare d xs ++ bare d ys :=
  List.filter_append xs ys

/-- A quote is taken out. -/
theorem bare_quote (h : d.quote = some byte) : bare d [byte] = [] := by
  simp [bare, h]

/-- An escape is taken out. -/
theorem bare_escape (h : d.escape = some byte) : bare d [byte] = [] := by
  simp [bare, h]

/-- Each of some cells stands in the given bytes. -/
def StandIn (d : Dialect) (bytes : List UInt8) (cells : List (List UInt8)) : Prop :=
  ∀ cell ∈ cells, bare d cell <:+: bare d bytes

/-- Cells stand in longer bytes too. -/
theorem StandIn.append {cells : List (List UInt8)} (h : StandIn d done cells)
    (more : List UInt8) : StandIn d (done ++ more) cells := by
  intro cell hcell
  rw [bare_append]
  exact (h cell hcell).trans (List.prefix_append _ _).isInfix

/-- What the machine holds stands in the bytes that it has read, the current cell at their end.
Between two records and inside a comment there is no current cell. -/
structure Traces (d : Dialect) (done : List UInt8) (m : Machine) : Prop where
  current : bare d m.current.reverse <:+ bare d done
  cells : StandIn d done m.cells
  idle : m.mode = .recordStart ∨ m.mode = .inComment → m.current = []

/-- The same of what a byte leads to; a record has a cell. -/
def Step.Traces (d : Dialect) (done : List UInt8) : Step → Prop
  | .more m => Quoted.Traces d done m
  | .record cells => cells ≠ [] ∧ StandIn d done cells

/-- The machine holds nothing at its start. -/
theorem Traces.start (d : Dialect) (done : List UInt8) : Traces d done Machine.start :=
  ⟨List.nil_suffix, by simp [StandIn, Machine.start], fun _ => rfl⟩

section Steps

variable (h : Traces d done m)
include h

/-- A byte that is left out is a quote or an escape, or stands outside all cells. -/
theorem Traces.skip (mode : Mode) (hbyte : bare d [byte] = [] ∨ m.current = [])
    (hidle : mode = .recordStart ∨ mode = .inComment → m.current = []) :
    Traces d (done ++ [byte]) { m with mode := mode } where
  current := by
    obtain hbare | hnil := hbyte
    · rw [bare_append, hbare, List.append_nil]
      exact h.current
    · simp [hnil]
  cells := h.cells.append [byte]
  idle := hidle

/-- A byte of a cell stands at the end of the bytes that were read. -/
theorem Traces.keep {mode : Mode} (hmode : ¬ (mode = .recordStart ∨ mode = .inComment)) :
    Traces d (done ++ [byte]) (m.keep mode byte) where
  current := by
    rw [Machine.keep, List.reverse_cons, bare_append, bare_append]
    exact List.suffix_append_self_iff.2 h.current
  cells := h.cells.append [byte]
  idle hidle := absurd hidle hmode

/-- The cells of a record that ends stand in its bytes. -/
theorem Traces.finished : StandIn d done m.finished := by
  intro cell hcell
  rw [Machine.finished, List.mem_reverse] at hcell
  obtain rfl | hcell := List.mem_cons.1 hcell
  · exact h.current.isInfix
  · exact h.cells cell hcell

/-- A record that the end of the input completes has a cell, and its cells stand in its bytes. -/
theorem Traces.atEnd {cells : List (List UInt8)} (hend : m.atEnd = some cells) :
    cells ≠ [] ∧ StandIn d done cells := by
  rw [Machine.atEnd] at hend
  split at hend
  · cases hend
  · cases hend
    exact ⟨by simp [Machine.finished], h.finished⟩

/-- A byte outside of quotes keeps the cells where they stand. -/
theorem Traces.stepOutside : (stepOutside d m byte).Traces d (done ++ [byte]) := by
  have hfinished := h.finished.append [byte]
  rw [Quoted.stepOutside]
  split
  · -- the current cell is one of those of the record now
    simp only [StandIn, Machine.finished, List.mem_reverse] at hfinished
    exact ⟨List.nil_suffix, hfinished, fun _ => rfl⟩
  · split
    · exact ⟨by simp [Machine.finished], hfinished⟩
    · exact h.keep (by simp)

/-- A byte at the start of a cell keeps the cells where they stand. -/
theorem Traces.stepCellStart : (stepCellStart d m byte).Traces d (done ++ [byte]) := by
  rw [Quoted.stepCellStart]
  split
  · next hquote => exact h.skip .inQuotes (Or.inl (bare_quote hquote)) (by simp)
  · exact h.stepOutside

/-- **A byte keeps what the machine holds in the bytes that it has read.** -/
theorem Traces.step : (step d m byte).Traces d (done ++ [byte]) := by
  unfold Quoted.step
  split
  · -- blank lines and the start of a comment are passed over
    next hmode =>
    have hcurrent := h.idle (Or.inl hmode)
    split
    · exact h.skip m.mode (Or.inr hcurrent) fun _ => hcurrent
    · split
      · exact h.skip .inComment (Or.inr hcurrent) fun _ => hcurrent
      · exact h.stepCellStart
  · exact h.stepCellStart
  · exact h.stepOutside
  · split
    · next hquote => exact h.skip .afterQuote (Or.inl (bare_quote hquote)) (by simp)
    · split
      · next hescape => exact h.skip .afterEscape (Or.inl (bare_escape hescape)) (by simp)
      · exact h.keep (by simp)
  · exact h.keep (by simp)
  · split
    · exact h.keep (by simp)
    · exact h.stepOutside
  · next hmode =>
    have hcurrent := h.idle (Or.inr hmode)
    split
    · exact h.skip .recordStart (Or.inr hcurrent) fun _ => hcurrent
    · exact h.skip m.mode (Or.inr hcurrent) fun _ => hcurrent

end Steps

/-- What the machine holds behind some bytes stands in them, and so does what it has found. -/
theorem traces_run (d : Dialect) (bytes : List UInt8) :
    Traces d bytes ((automaton d).after Machine.start bytes) ∧
      ∀ cells ∈ (automaton d).records Machine.start bytes,
        cells ≠ [] ∧ StandIn d bytes cells := by
  have hstep {done : List UInt8} {m : Machine} {byte : UInt8} {next : Step}
      (h : Traces d done m) (hnext : step d m byte = next) : next.Traces d (done ++ [byte]) :=
    hnext ▸ h.step
  refine @Automaton.run_of_step (automaton d) Machine.start (Traces d)
    (fun done cells => cells ≠ [] ∧ StandIn d done cells) ?_ ?_ ?_ [] (Traces.start d []) bytes
  · exact fun done m byte n h hn => hstep h (step_of_automaton_inl hn)
  · exact fun done m byte cells h hcells =>
      ⟨hstep h (step_of_automaton_inr hcells), Traces.start d _⟩
  · exact fun done more cells h => ⟨h.1, h.2.append more⟩

/-! ## Whole inputs -/

/-- The cells of a record are its texts, if all of them are texts. -/
theorem cells?_tell (d : Dialect) (place : Position) (lead : List UInt8)
    (raw : List (List UInt8)) :
    ((automaton d).tell place lead raw).cells? = (decodeCells 0 raw).toOption := by
  simp only [automaton]
  split
  · next hcells =>
    rw [hcells]
    rfl
  · next hcells =>
    rw [hcells]
    rfl

/-- The bytes of a record that is told with its cells are those of the cells. -/
theorem eq_map_cellBytes_of_tell {place : Position} {lead : List UInt8}
    {raw : List (List UInt8)} {cells : List String}
    (h : ((automaton d).tell place lead raw).cells? = some cells) : raw = cells.map cellBytes := by
  rw [cells?_tell] at h
  cases hcells : decodeCells 0 raw with
  | ok found =>
    rw [hcells] at h
    cases h
    exact eq_map_cellBytes_of_decodeCells hcells
  | error fault =>
    rw [hcells] at h
    cases h

/-- The record that the end of an input completes. -/
theorem exists_tell_of_mem_closing {ending : Ending} {m : (automaton d).State} {outcome : Outcome}
    {cells : List String} (h : outcome ∈ (automaton d).closing ending m)
    (hcells : outcome.cells? = some cells) :
    ∃ raw, (automaton d).atEnd m = some raw ∧
      (automaton d).tell Position.start [] raw = outcome := by
  cases ending with
  | failure fault =>
    rw [List.mem_singleton.1 h] at hcells
    cases hcells
  | complete =>
    rw [Automaton.closing, Option.mem_toList] at h
    exact Option.map_eq_some_iff.1 h

/-- **The cells of a record stand in the input**, if quotes and escapes are left out on both sides;
a record has a cell. -/
theorem contents_of_mem_outcomes (hquoted : d.quote.isSome = true) {source : Source} {line : Nat}
    {cells : List String} (h : .record line cells ∈ (Framing.Reader.ofSource d source).outcomes) :
    cells ≠ [] ∧ ∀ cell ∈ cells, bare d (cellBytes cell) <:+: bare d source.bytes := by
  let bytes := (opening d source).1.bytes
  have hbytes : bare d bytes <:+: bare d source.bytes := by
    by_cases hnil : bytes = []
    · rw [hnil]
      exact List.nil_infix
    · obtain ⟨mark, hmark, -⟩ := exists_mark_append hnil
      rw [hmark]
      exact (List.suffix_append mark bytes).isInfix.filter _
  -- the bytes of the cells are what the machine has found, behind a byte or at the end
  obtain ⟨raw, hraw, hne, hstand⟩ : ∃ raw, raw = cells.map cellBytes ∧ raw ≠ [] ∧
      StandIn d bytes raw := by
    obtain ⟨hafter, hrecords⟩ := traces_run d bytes
    have hmem : some cells ∈ (Framing.Reader.ofSource d source).outcomes.map Outcome.cells? :=
      List.mem_map_of_mem h
    rw [Reader.outcomes_ofSource, automaton_of_quoted hquoted,
      Automaton.map_outcomes fun _ _ _ _ _ => by rw [cells?_tell, cells?_tell]] at hmem
    obtain hmem | hmem := List.mem_append.1 hmem
    · obtain ⟨raw, hraw, htell⟩ := List.mem_map.1 hmem
      exact ⟨raw, eq_map_cellBytes_of_tell htell, hrecords raw hraw⟩
    · obtain ⟨outcome, houtcome, hcells⟩ := List.mem_map.1 hmem
      obtain ⟨raw, hraw, rfl⟩ := exists_tell_of_mem_closing houtcome hcells
      exact ⟨raw, eq_map_cellBytes_of_tell hcells, hafter.atEnd hraw⟩
  subst hraw
  refine ⟨fun hnil => hne (by rw [hnil]; rfl), fun cell hcell => ?_⟩
  exact (hstand _ (List.mem_map_of_mem hcell)).trans hbytes

end Quoted

end TypedCsv.Framing
