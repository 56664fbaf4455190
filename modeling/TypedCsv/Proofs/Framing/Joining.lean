import TypedCsv.Proofs.Framing.Bytewise
import TypedCsv.Proofs.Framing.Runs
import TypedCsv.Proofs.Places

/-! # Inputs joined at the end of a line

Behind a line feed that belongs to no cell both framings are back at their start, whatever they have
read before (`Framing.after_of_isWhole`). So what is found in two inputs one after the other is what
is found in each, up to places (`Framing.outcomes_joined`).

* `Framing.isGuarded`: whether a line feed behind some bytes would belong to a cell.
* `Framing.IsWhole`: inputs that another one may follow. -/

namespace TypedCsv

/-- An input with some more bytes in front of it. -/
def Source.behind (bytes : List UInt8) (source : Source) : Source :=
  ⟨bytes :: source.pieces, source.ending⟩

/-- The bytes of an input stand behind those put in front of it. -/
@[simp] theorem Source.bytes_behind (bytes : List UInt8) (source : Source) :
    (source.behind bytes).bytes = bytes ++ source.bytes := rfl

/-- Bytes in front of an empty input are an input of their own. -/
theorem Source.behind_empty (bytes : List UInt8) :
    (⟨[], .complete⟩ : Source).behind bytes = .ofBytes bytes := rfl

namespace Framing

/-! ## The quoted framing -/

namespace Quoted

variable {d : Dialect} {m n : Machine}

namespace Machine

/-- Whether a line feed would belong to a cell. -/
def isGuarded (m : Machine) : Bool :=
  m.mode == .inQuotes || m.mode == .afterEscape

/-- Between records there are no cells. -/
def IsClean (m : Machine) : Prop :=
  m.mode = .recordStart ∨ m.mode = .inComment → m.cells = [] ∧ m.current = []

/-- The start has no cells. -/
theorem isClean_start : Machine.start.IsClean := fun _ => ⟨rfl, rfl⟩

/-- Only the two states between records restrict what the machine holds. -/
theorem IsClean.of_mode (h : m.mode ≠ .recordStart ∧ m.mode ≠ .inComment) : m.IsClean := by
  rintro (hm | hm)
  · exact absurd hm h.1
  · exact absurd hm h.2

end Machine

/-- A byte outside of quotes goes on with the record or leaves nothing of it. -/
theorem isClean_of_stepOutside {byte : UInt8} (h : stepOutside d m byte = .more n) :
    n.IsClean := by
  simp only [stepOutside] at h
  split at h
  · cases h
    exact .of_mode (by simp [Machine.endCell])
  · split at h
    · cases h
    · cases h
      exact .of_mode (by simp [Machine.keep])

/-- The same at the start of a cell. -/
theorem isClean_of_stepCellStart {byte : UInt8} (h : stepCellStart d m byte = .more n) :
    n.IsClean := by
  simp only [stepCellStart] at h
  split at h
  · cases h
    exact .of_mode (by simp)
  · exact isClean_of_stepOutside h

/-- No step leaves cells behind between records. -/
theorem isClean_of_step {byte : UInt8} (hm : m.IsClean) (h : step d m byte = .more n) :
    n.IsClean := by
  rw [step] at h
  split at h
  · next hmode =>
    have hnone := hm (Or.inl hmode)
    split at h
    · cases h
      exact hm
    · split at h
      · cases h
        exact fun _ => hnone
      · exact isClean_of_stepCellStart h
  · exact isClean_of_stepCellStart h
  · exact isClean_of_stepOutside h
  · -- in quotes the machine stays among the modes of a cell
    split at h
    · cases h
      exact .of_mode (by simp)
    · split at h
      · cases h
        exact .of_mode (by simp)
      · cases h
        exact .of_mode (by simp [Machine.keep])
  · cases h
    exact .of_mode (by simp [Machine.keep])
  · split at h
    · cases h
      exact .of_mode (by simp [Machine.keep])
    · exact isClean_of_stepOutside h
  · next hmode =>
    have hnone := hm (Or.inr hmode)
    split at h
    · cases h
      exact fun _ => hnone
    · cases h
      exact hm

/-- The same of a step of the automaton, which starts anew behind a record. -/
theorem isClean_next (hm : m.IsClean) (byte : UInt8) :
    Machine.IsClean ((automaton d).next m byte) := by
  cases hstep : step d m byte with
  | more n =>
    rw [Automaton.next_of_inl (step_automaton_more hstep)]
    exact isClean_of_step hm hstep
  | record cells =>
    rw [Automaton.next_of_inr (step_automaton_record hstep)]
    exact Machine.isClean_start

/-- Nor does any number of bytes leave cells behind. -/
theorem isClean_after (d : Dialect) (hm : m.IsClean) (bytes : List UInt8) :
    Machine.IsClean ((automaton d).after m bytes) := by
  induction bytes generalizing m with
  | nil => exact hm
  | cons byte bytes ih => exact ih (isClean_next hm byte)

/-- Outside of quotes a line feed ends the record. -/
theorem stepOutside_lineFeed_eq_record (hdelimiter : d.delimiter ≠ Source.lineFeed) (m : Machine) :
    stepOutside d m Source.lineFeed = .record m.finished := by
  rw [stepOutside, if_neg (Ne.symm hdelimiter), if_pos (by decide)]

/-- A line feed that belongs to no cell ends the record, the comment or a blank line. -/
theorem after_lineFeed (hdelimiter : d.delimiter ≠ Source.lineFeed)
    (hquote : d.quote ≠ some Source.lineFeed) (hm : m.IsClean) (h : m.isGuarded = false) :
    (automaton d).after m [Source.lineFeed] = Machine.start := by
  have houtside := stepOutside_lineFeed_eq_record hdelimiter m
  have hrecord (hstep : step d m Source.lineFeed = .record m.finished) :
      (automaton d).after m [Source.lineFeed] = Machine.start :=
    Automaton.next_of_inr (step_automaton_record hstep)
  have hmore (hstep : step d m Source.lineFeed = .more Machine.start) :
      (automaton d).after m [Source.lineFeed] = Machine.start :=
    Automaton.next_of_inl (step_automaton_more hstep)
  have hblank (hmode : m.mode = .recordStart ∨ m.mode = .inComment) :
      ({ m with mode := .recordStart } : Machine) = Machine.start := by
    obtain ⟨hcells, hcurrent⟩ := hm hmode
    rw [Machine.start, hcells, hcurrent]
  cases hmode : m.mode with
  | recordStart =>
    refine hmore ?_
    rw [step, hmode]
    refine (if_pos (by decide)).trans (congrArg Step.more ?_)
    rw [← hblank (Or.inl hmode), ← hmode]
  | cellStart => exact hrecord (by simp only [step, hmode, stepCellStart, if_neg hquote, houtside])
  | inCell => exact hrecord (by simp only [step, hmode, houtside])
  | inQuotes => simp [Machine.isGuarded, hmode] at h
  | afterEscape => simp [Machine.isGuarded, hmode] at h
  | afterQuote => exact hrecord (by simp only [step, hmode, if_neg hquote, houtside])
  | inComment =>
    refine hmore ?_
    rw [step, hmode]
    exact (if_pos rfl).trans (congrArg Step.more (hblank (Or.inr hmode)))

/-- A comment goes on up to a line feed. -/
theorem cut_comment (hcomment : d.comment = some Dialect.hash) {text : List UInt8}
    (h : Source.lineFeed ∉ text) :
    (automaton d).cut Machine.start (Dialect.hash :: text) = .unended ⟨.inComment, [], []⟩ := by
  have htext (text : List UInt8) (h : Source.lineFeed ∉ text) :
      (automaton d).cut ⟨.inComment, [], []⟩ text = .unended ⟨.inComment, [], []⟩ := by
    induction text with
    | nil => rfl
    | cons byte text ih =>
      obtain ⟨hne, htext⟩ := not_or.1 (mt List.mem_cons.2 h)
      have hstep : step d ⟨.inComment, [], []⟩ byte = .more ⟨.inComment, [], []⟩ :=
        if_neg (Ne.symm hne)
      rw [Automaton.cut_cons_inl (step_automaton_more hstep), ih htext]
      rfl
  have hstep : step d Machine.start Dialect.hash = .more ⟨.inComment, [], []⟩ := by
    have hterminator : isTerminator Dialect.hash = false := by decide
    simp only [step, Machine.start, hterminator, hcomment, Bool.false_eq_true, if_false, if_true]
  rw [Automaton.cut_cons_inl (step_automaton_more hstep), htext text h]
  rfl

end Quoted

/-! ## The plain framing -/

namespace Plain

/-- Whether a line feed would belong to a cell. -/
def Place.isGuarded : Place → Bool
  | inRecord p => p.escaped
  | _ => false

/-- A line feed that belongs to no cell leads back to the start of a record. -/
theorem after_lineFeed (d : Dialect) {place : Place} (h : place.isGuarded = false) :
    (automaton d).after place [Source.lineFeed] = .recordStart := by
  have hrecord (p : Pending) (hp : p.escaped = false) :
      stepRecord d p Source.lineFeed = .inr p.atLineFeed :=
    if_pos (by simp [hp])
  cases place with
  | recordStart =>
    by_cases hcomment : d.comment = some Source.lineFeed
    · exact Automaton.next_of_inl (if_pos hcomment)
    · exact Automaton.next_of_inr ((if_neg hcomment).trans (hrecord Pending.start rfl))
  | inComment => rfl
  | inRecord p => exact Automaton.next_of_inr (hrecord p h)

end Plain

/-! ## Both framings -/

variable {d : Dialect} {x : List UInt8} {y : Source}

/-- The bytes of an input behind the byte order mark that the quoted framing passes over. -/
def unmarked (d : Dialect) (bytes : List UInt8) : List UInt8 :=
  if d.quote.isSome ∧ Quoted.byteOrderMark <+: bytes then
    bytes.drop Quoted.byteOrderMark.length
  else bytes

/-- Whether a line feed behind some bytes would belong to a cell: within quotes or behind an
escape. -/
def isGuarded (d : Dialect) (bytes : List UInt8) : Bool :=
  if d.quote.isSome then
    Quoted.Machine.isGuarded ((Quoted.automaton d).after Quoted.Machine.start (unmarked d bytes))
  else Plain.Place.isGuarded ((Plain.automaton d).after .recordStart (unmarked d bytes))

/-- An input that is empty or ends with a line feed that belongs to no cell. -/
def IsWhole (d : Dialect) (bytes : List UInt8) : Prop :=
  bytes = [] ∨ ∃ body, bytes = body ++ [Source.lineFeed] ∧ isGuarded d body = false

/-- Bytes that do not start with the mark are left as they are. -/
theorem unmarked_of_not_prefix (h : d.quote.isSome → ¬ Quoted.byteOrderMark <+: x) :
    unmarked d x = x :=
  if_neg fun hmark => h hmark.1 hmark.2

/-- A line feed is no part of a byte order mark. -/
theorem mark_prefix_append_iff {body : List UInt8} (others : List UInt8) :
    Quoted.byteOrderMark <+: body ++ Source.lineFeed :: others ↔
      Quoted.byteOrderMark <+: body := by
  constructor
  · intro h
    obtain hmark | ⟨rest, hrest⟩ :=
      List.prefix_or_prefix_of_prefix h (List.prefix_append body (Source.lineFeed :: others))
    · exact hmark
    · cases rest with
      | nil =>
        rw [List.append_nil] at hrest
        exact hrest ▸ List.prefix_rfl
      | cons byte rest =>
        rw [← hrest, List.prefix_append_right_inj] at h
        obtain rfl := (List.cons_prefix_cons.1 h).1
        have hmem : Source.lineFeed ∈ Quoted.byteOrderMark := by simp [← hrest]
        exact absurd hmem (by decide)
  · exact fun h => h.trans (List.prefix_append body _)

/-- What stands behind a line feed does not change what is passed over at the start. -/
theorem unmarked_append (body others : List UInt8) :
    unmarked d (body ++ Source.lineFeed :: others) =
      unmarked d body ++ Source.lineFeed :: others := by
  simp only [unmarked, mark_prefix_append_iff]
  split
  · next hmark => rw [List.drop_append_of_le_length hmark.2.length_le]
  · rfl

/-- **A whole input leads back to the start.** -/
theorem after_of_isWhole (hdelimiter : d.delimiter ≠ Source.lineFeed)
    (hquote : d.quote ≠ some Source.lineFeed) (hx : IsWhole d x) :
    (automaton d).after (automaton d).start (unmarked d x) = (automaton d).start := by
  obtain rfl | ⟨body, rfl, hbody⟩ := hx
  · rw [unmarked]
    split <;> rfl
  · rw [unmarked_append, Automaton.after_append]
    rw [isGuarded] at hbody
    generalize unmarked d body = text at hbody ⊢
    by_cases hquoted : d.quote.isSome = true
    · rw [if_pos hquoted] at hbody
      rw [automaton_of_quoted hquoted]
      exact Quoted.after_lineFeed hdelimiter hquote
        (Quoted.isClean_after d Quoted.Machine.isClean_start text) hbody
    · rw [if_neg hquoted] at hbody
      rw [automaton_of_plain hquoted]
      exact Plain.after_lineFeed d hbody

/-- A whole input does not end with its byte order mark. -/
theorem ne_mark_of_isWhole {piece : List UInt8} (hx : IsWhole d (Quoted.byteOrderMark ++ piece)) :
    piece ≠ [] := by
  rintro rfl
  obtain hnil | ⟨body, hbody, -⟩ := hx
  · exact absurd hnil (by decide)
  · have hmem : Source.lineFeed ∈ Quoted.byteOrderMark ++ [] := by simp [hbody]
    exact absurd hmem (by decide)

/-- What is read of an input behind a whole one. -/
theorem opening_joined (hx : IsWhole d x)
    (hy : d.quote.isSome → ¬ Quoted.byteOrderMark <+: y.bytes) :
    (opening d (y.behind x)).1.bytes = unmarked d x ++ y.bytes ∧
      (opening d (y.behind x)).1.ending = y.ending := by
  by_cases hmark : d.quote.isSome = true ∧ Quoted.byteOrderMark <+: x
  · -- the mark is passed over in the first piece
    obtain ⟨hquoted, piece, rfl⟩ := hmark
    have hpiece : piece.isEmpty = false := by simpa using ne_mark_of_isWhole hx
    have hopening : opening d (y.behind (Quoted.byteOrderMark ++ piece)) =
        (⟨piece :: y.pieces, y.ending⟩, ⟨Quoted.byteOrderMark.length, 1, 0⟩) := by
      rw [opening, if_pos hquoted]
      simp only [Source.behind, Quoted.Reader.opening, Quoted.Reader.ofSource, Position.start,
        if_true, Quoted.byteOrderMark, List.cons_append, List.nil_append, hpiece,
        Bool.false_eq_true, if_false]
    rw [hopening, unmarked, if_pos ⟨hquoted, List.prefix_append _ _⟩, List.drop_left]
    exact ⟨rfl, rfl⟩
  · have hnone (hquoted : d.quote.isSome = true) :
        ¬ Quoted.byteOrderMark <+: (y.behind x).bytes := by
      obtain rfl | ⟨body, rfl, -⟩ := hx
      · exact hy hquoted
      · intro hstarts
        rw [Source.bytes_behind, List.append_assoc, List.singleton_append,
          mark_prefix_append_iff] at hstarts
        exact hmark ⟨hquoted, hstarts.trans (List.prefix_append body _)⟩
    rw [opening_eq hnone, unmarked, if_neg hmark]
    exact ⟨rfl, rfl⟩

/-- Alone, an input is read behind its byte order mark. -/
theorem bytes_opening_ofBytes (hx : IsWhole d x) :
    (opening d (.ofBytes x)).1.bytes = unmarked d x := by
  obtain ⟨hbytes, -⟩ := opening_joined (d := d) (y := ⟨[], .complete⟩) hx fun _ => by decide
  rw [Source.behind_empty] at hbytes
  exact hbytes.trans (List.append_nil _)

/-- Opening an input does not make it fail. -/
theorem ending_opening_ofBytes (d : Dialect) (x : List UInt8) :
    (opening d (.ofBytes x)).1.ending = .complete := by
  rw [opening]
  split
  · obtain hopening | ⟨piece, pieces, -, hopening⟩ :=
      (Quoted.Reader.ofSource d (.ofBytes x)).opening_cases
    · rw [hopening]
      rfl
    · rw [hopening]
      dsimp only
      split <;> rfl
  · rfl

/-- How a record is told depends on places only in what it tells of places. -/
theorem tell_seen (d : Dialect) (place place' : Position) (lead lead' : List UInt8)
    (cells : List (List UInt8)) :
    ((automaton d).tell place lead cells).seen Fault.unplaced =
      ((automaton d).tell place' lead' cells).seen Fault.unplaced := by
  rw [automaton]
  split
  · simp only [Quoted.automaton]
    split <;> rfl
  · simp only [Plain.automaton, Plain.Reader.outcome]
    split <;> rfl

/-- **What is found behind a whole input is what is found without it**, up to places. -/
theorem outcomes_joined (hdelimiter : d.delimiter ≠ Source.lineFeed)
    (hquote : d.quote ≠ some Source.lineFeed) (hx : IsWhole d x)
    (hy : d.quote.isSome → ¬ Quoted.byteOrderMark <+: y.bytes) :
    (Reader.ofSource d (y.behind x)).outcomes.map (Outcome.seen Fault.unplaced) =
      (Reader.ofSource d (.ofBytes x)).outcomes.map (Outcome.seen Fault.unplaced) ++
        (Reader.ofSource d y).outcomes.map (Outcome.seen Fault.unplaced) := by
  have hview := fun place lead place' lead' cells => tell_seen d place place' lead lead' cells
  obtain ⟨hbytes, hending⟩ := opening_joined hx hy
  rw [Reader.outcomes_ofSource, Reader.outcomes_ofSource, Reader.outcomes_ofSource, opening_eq hy,
    hbytes, hending, bytes_opening_ofBytes hx, ending_opening_ofBytes,
    Automaton.map_outcomes_append hview (after_of_isWhole hdelimiter hquote hx)]

/-- What is told of a record is a record. -/
theorem isRecord_tell (d : Dialect) (place : Position) (lead : List UInt8)
    (cells : List (List UInt8)) : ((automaton d).tell place lead cells).isRecord = true := by
  rw [automaton]
  split
  · simp only [Quoted.automaton]
    split <;> rfl
  · simp only [Plain.automaton, Plain.Reader.outcome]
    split <;> rfl

/-- A complete input holds nothing but records. -/
theorem isRecord_of_mem_outcomes (d : Dialect) (x : List UInt8) :
    ∀ outcome ∈ (Reader.ofSource d (.ofBytes x)).outcomes, outcome.isRecord = true := by
  intro outcome hmem
  rw [Reader.outcomes_ofSource, ending_opening_ofBytes] at hmem
  exact Automaton.isRecord_of_mem_outcomes (isRecord_tell d) hmem

/-! ## Comments -/

/-- The bytes of a comment. -/
def commentLine (text : List UInt8) : List UInt8 :=
  Dialect.hash :: text ++ [Source.lineFeed]

/-- A comment does not start with a byte order mark. -/
theorem not_mark_prefix_commentLine (text others : List UInt8) :
    ¬ Quoted.byteOrderMark <+: commentLine text ++ others := by
  intro h
  exact absurd (List.cons_prefix_cons.1 h).1 (by decide)

section Comments

variable {text : List UInt8}

/-- The bytes of a comment lead to a state that only a line feed ends, and with the line feed back
to the start. -/
theorem after_comment (hcomment : d.comment = some Dialect.hash) (h : Source.lineFeed ∉ text) :
    isGuarded d (Dialect.hash :: text) = false ∧
      (automaton d).cut (automaton d).start (commentLine text) = .unended (automaton d).start := by
  have hmark : unmarked d (Dialect.hash :: text) = Dialect.hash :: text :=
    unmarked_of_not_prefix fun _ hstarts =>
      absurd (List.cons_prefix_cons.1 hstarts).1 (by decide)
  rw [isGuarded, hmark]
  by_cases hquoted : d.quote.isSome = true
  · have hcut := Quoted.cut_comment hcomment h
    rw [if_pos hquoted, automaton_of_quoted hquoted]
    exact ⟨congrArg Quoted.Machine.isGuarded (Automaton.of_cut_unended hcut).2,
      Automaton.cut_append hcut [Source.lineFeed]⟩
  · have hcut := @Plain.cut_lastComment d (Dialect.hash :: text)
      (fun hmem => (List.mem_cons.1 hmem).elim (by decide) h) (by simp [Plain.isComment, hcomment])
    rw [if_neg hquoted, automaton_of_plain hquoted]
    exact ⟨congrArg Plain.Place.isGuarded (Automaton.of_cut_unended hcut).2,
      Automaton.cut_append hcut [Source.lineFeed]⟩

/-- A comment ends with a line feed that belongs to no cell. -/
theorem isWhole_commentLine (hcomment : d.comment = some Dialect.hash)
    (h : Source.lineFeed ∉ text) : IsWhole d (commentLine text) :=
  Or.inr ⟨_, rfl, (after_comment hcomment h).1⟩

/-- A comment holds no record. -/
theorem outcomes_commentLine (hcomment : d.comment = some Dialect.hash)
    (h : Source.lineFeed ∉ text) :
    (Reader.ofSource d (.ofBytes (commentLine text))).outcomes = [] := by
  have hnone := not_mark_prefix_commentLine text []
  rw [List.append_nil] at hnone
  rw [Reader.outcomes_ofSource, opening_eq fun _ => by rwa [Source.bytes_ofBytes],
    Source.bytes_ofBytes, Automaton.outcomes_of_unended (after_comment hcomment h).2,
    (automaton d).atEnd_start]
  rfl

end Comments

end Framing

end TypedCsv
