import TypedCsv.Proofs.Framing.Record

/-! # Framings as automata

An `Automaton` reads records byte by byte and is back at its start behind each of them. What it
finds in an input is thus settled by the bytes of the input and by its ending
(`Automaton.outcomes`).

* `Automaton.cut`: the first record of some bytes, and the bytes behind it.
* `Automaton.lead`: the bytes that are passed over in front of it.
* `Automaton.outcomes_failure`: before a failure those records are found whose last byte is there.
* `Automaton.getElem?_outcomes`: where in the input an outcome is found. -/

namespace TypedCsv.Framing

/-- The place behind a record of some bytes. -/
def Position.past (p : Position) (bytes : List UInt8) : Position :=
  ⟨p.byte + bytes.length, p.line + bytes.count Source.lineFeed, p.record + 1⟩

/-- Each line feed that is read leads to the next line. -/
@[simp] theorem Position.line_past (p : Position) (bytes : List UInt8) :
    (p.past bytes).line = p.line + bytes.count Source.lineFeed := rfl

/-- A reader that takes one byte after the other. -/
structure Automaton where
  State : Type
  /-- The state between two records. -/
  start : State
  /-- The state after a byte, or the cells of the record that the byte ends. -/
  step : State → UInt8 → State ⊕ List (List UInt8)
  /-- The cells of the record that the end of the input completes, if one has been started. -/
  atEnd : State → Option (List (List UInt8))
  /-- Whether no byte of a record has been read yet. -/
  isIdle : State → Bool
  /-- How a record is told: from the place where the one before it ended, the bytes that are passed
  over in front of it, and its cells. -/
  tell : Position → List UInt8 → List (List UInt8) → Outcome
  atEnd_start : atEnd start = none

namespace Automaton

/-! ## The first record -/

/-- What some bytes hold: a record with the bytes it takes and those behind it, or no end of a
record. -/
inductive Cut (State : Type) where
  | record (taken : List UInt8) (cells : List (List UInt8)) (rest : List UInt8)
  | unended (state : State)

/-- The same behind some more bytes. -/
def Cut.behind {State : Type} (bytes : List UInt8) : Cut State → Cut State
  | .record taken cells rest => .record (bytes ++ taken) cells rest
  | .unended state => .unended state

/-- Behind no bytes nothing changes. -/
@[simp] theorem Cut.behind_nil {State : Type} (cut : Cut State) : cut.behind [] = cut := by
  cases cut <;> rfl

/-- Bytes in front of bytes stand in front as a whole. -/
@[simp] theorem Cut.behind_behind {State : Type} (xs ys : List UInt8) (cut : Cut State) :
    (cut.behind ys).behind xs = cut.behind (xs ++ ys) := by
  cases cut with
  | record taken cells rest => simp [behind]
  | unended state => rfl

/-- Putting bytes in front takes no record away. -/
theorem Cut.of_behind_eq_unended {State : Type} {cut : Cut State} {bytes : List UInt8}
    {state : State} (h : cut.behind bytes = .unended state) : cut = .unended state := by
  cases cut with
  | record taken cells rest => cases h
  | unended found => exact h

/-- Reads bytes up to the end of a record. -/
def cut (a : Automaton) (s : a.State) : List UInt8 → Cut a.State
  | [] => .unended s
  | byte :: bytes =>
    match a.step s byte with
    | .inl t => (a.cut t bytes).behind [byte]
    | .inr cells => .record [byte] cells bytes

/-- The bytes that are passed over in front of the first record. -/
def lead (a : Automaton) (s : a.State) : List UInt8 → List UInt8
  | [] => []
  | byte :: bytes =>
    match a.step s byte with
    | .inl t => if a.isIdle t then byte :: a.lead t bytes else []
    | .inr _ => []

variable {a : Automaton} {s t : a.State} {byte : UInt8} {bytes taken rest : List UInt8}
  {cells : List (List UInt8)}

/-- Without bytes no record ends. -/
@[simp] theorem cut_nil (a : Automaton) (s : a.State) : a.cut s [] = .unended s := rfl

/-- A byte that ends no record stands in front of what the bytes behind it hold. -/
theorem cut_cons_inl (h : a.step s byte = .inl t) :
    a.cut s (byte :: bytes) = (a.cut t bytes).behind [byte] := by
  rw [cut, h]

/-- A byte that ends a record is the last one that the record takes. -/
theorem cut_cons_inr (h : a.step s byte = .inr cells) :
    a.cut s (byte :: bytes) = .record [byte] cells bytes := by
  rw [cut, h]

/-- Two states that a byte leads to the same cannot be told apart in front of it. -/
theorem cut_congr (h : a.step s byte = a.step t byte) (bytes : List UInt8) :
    a.cut s (byte :: bytes) = a.cut t (byte :: bytes) := by
  rw [cut, cut, h]

/-- States that take the first byte alike pass over the same bytes. -/
theorem lead_congr (h : a.step s byte = a.step t byte) (bytes : List UInt8) :
    a.lead s (byte :: bytes) = a.lead t (byte :: bytes) := by
  rw [lead, lead, h]

/-- A byte that leads to an idle state is passed over. -/
theorem lead_cons_of_idle (h : a.step s byte = .inl t) (hidle : a.isIdle t = true)
    (bytes : List UInt8) : a.lead s (byte :: bytes) = byte :: a.lead t bytes := by
  simp only [lead, h, hidle, if_true]

/-- Nothing is passed over in front of a byte that starts a record. -/
theorem lead_cons_of_not_idle (h : ∀ t, a.step s byte = .inl t → a.isIdle t = false)
    (bytes : List UInt8) : a.lead s (byte :: bytes) = [] := by
  rw [lead]
  split
  · next t hstep => simp [h t hstep]
  · rfl

/-- Behind bytes that end no record the reading goes on where they have led. -/
theorem cut_append (h : a.cut s bytes = .unended t) (others : List UInt8) :
    a.cut s (bytes ++ others) = (a.cut t others).behind bytes := by
  induction bytes generalizing s with
  | nil =>
    cases h
    rw [List.nil_append, Cut.behind_nil]
  | cons byte bytes ih =>
    cases hstep : a.step s byte with
    | inr cells =>
      rw [cut_cons_inr hstep] at h
      cases h
    | inl u =>
      rw [cut_cons_inl hstep] at h
      rw [List.cons_append, cut_cons_inl hstep, ih (Cut.of_behind_eq_unended h),
        Cut.behind_behind, List.singleton_append]

/-- A record takes the first bytes, and what comes behind it changes neither the record nor what is
passed over in front of it. -/
theorem of_cut_eq_record (h : a.cut s bytes = .record taken cells rest) :
    bytes = taken ++ rest ∧ taken ≠ [] ∧
      ∀ others, a.cut s (taken ++ others) = .record taken cells others ∧
        a.lead s (taken ++ others) = a.lead s bytes := by
  induction bytes generalizing s taken with
  | nil => cases h
  | cons byte bytes ih =>
    cases hstep : a.step s byte with
    | inr found =>
      rw [cut_cons_inr hstep] at h
      cases h
      refine ⟨rfl, by simp, fun others => ⟨cut_cons_inr hstep, ?_⟩⟩
      simp [lead, hstep]
    | inl t =>
      rw [cut_cons_inl hstep] at h
      cases hcut : a.cut t bytes with
      | unended state =>
        rw [hcut] at h
        cases h
      | record inner found after =>
        rw [hcut] at h
        cases h
        obtain ⟨rfl, -, hothers⟩ := ih hcut
        refine ⟨rfl, by simp, fun others => ⟨?_, ?_⟩⟩
        · rw [List.singleton_append, List.cons_append, cut_cons_inl hstep, (hothers others).1]
          rfl
        · simp only [List.cons_append, List.nil_append, lead, hstep, (hothers others).2]

/-- A record takes at least one byte. -/
theorem length_lt_of_cut (h : a.cut s bytes = .record taken cells rest) :
    rest.length < bytes.length := by
  obtain ⟨rfl, hne, -⟩ := of_cut_eq_record h
  have := List.length_pos_iff.2 hne
  simp only [List.length_append]
  omega

/-! ## All records -/

/-- What is found in some bytes before an ending. The first record is told at the place `told`, and
its bytes start at the place `position`. -/
def outcomes (a : Automaton) (ending : Ending) (told position : Position)
    (bytes : List UInt8) : List Outcome :=
  match _h : a.cut a.start bytes with
  | .record taken cells rest =>
    a.tell told (a.lead a.start bytes) cells ::
      a.outcomes ending (position.past taken) (position.past taken) rest
  | .unended state =>
    match ending with
    | .failure fault => [.failed fault]
    | .complete =>
      match a.atEnd state with
      | some cells => [a.tell told (a.lead a.start bytes) cells]
      | none => []
termination_by bytes.length
decreasing_by exact length_lt_of_cut _h

section Outcomes

variable {ending : Ending} {told position : Position}

/-- The first record is told at its place, and the others are found behind it. -/
theorem outcomes_of_record (h : a.cut a.start bytes = .record taken cells rest) :
    a.outcomes ending told position bytes =
      a.tell told (a.lead a.start bytes) cells ::
        a.outcomes ending (position.past taken) (position.past taken) rest := by
  rw [outcomes.eq_def]
  split
  · next hcut =>
    rw [h] at hcut
    cases hcut
    rfl
  · next hcut =>
    rw [h] at hcut
    cases hcut

/-- Where no record ends, a failed input has failed, and a complete one may have a last record. -/
theorem outcomes_of_unended {state : a.State} (h : a.cut a.start bytes = .unended state) :
    a.outcomes ending told position bytes =
      match ending with
      | .failure fault => [.failed fault]
      | .complete =>
        match a.atEnd state with
        | some cells => [a.tell told (a.lead a.start bytes) cells]
        | none => [] := by
  rw [outcomes.eq_def]
  split
  · next hcut =>
    rw [h] at hcut
    cases hcut
  · next hcut =>
    rw [h] at hcut
    cases hcut
    rfl

/-- Without bytes there is nothing to find but a failure. -/
theorem outcomes_nil (a : Automaton) (ending : Ending) (told position : Position) :
    a.outcomes ending told position [] =
      match ending with
      | .failure fault => [.failed fault]
      | .complete => [] := by
  rw [outcomes_of_unended (cut_nil a a.start), a.atEnd_start]

end Outcomes

/-! ## Before a failure -/

/-- The bytes of so many records, each with the byte that ends it. -/
inductive Ended (a : Automaton) : Nat → List UInt8 → Prop where
  | nil : Ended a 0 []
  | cons {n : Nat} {bytes taken rest : List UInt8} {cells : List (List UInt8)} :
    a.cut a.start bytes = .record taken cells rest → Ended a n rest → Ended a (n + 1) bytes

/-- Bytes in which no record ends. -/
def Unended (a : Automaton) (bytes : List UInt8) : Prop :=
  ∃ state, a.cut a.start bytes = .unended state

/-- **Before a failure those records are found that have ended**, as if the input were complete
behind the last of them. -/
theorem outcomes_failure (a : Automaton) (fault : IoFault) (told position : Position)
    (bytes : List UInt8) :
    ∃ n whole rest, bytes = whole ++ rest ∧ a.Ended n whole ∧ a.Unended rest ∧
      a.outcomes (.failure fault) told position bytes =
        a.outcomes .complete told position whole ++ [.failed fault] ∧
      (a.outcomes .complete told position whole).length = n := by
  generalize hlength : bytes.length = length
  induction length using Nat.strongRecOn generalizing told position bytes with
  | ind length ih =>
    cases hcut : a.cut a.start bytes with
    | unended state =>
      refine ⟨0, [], bytes, rfl, .nil, ⟨state, hcut⟩, ?_, by rw [outcomes_nil]; rfl⟩
      rw [outcomes_of_unended hcut, outcomes_nil]
      rfl
    | record taken cells rest =>
      obtain ⟨rfl, -, hothers⟩ := of_cut_eq_record hcut
      obtain ⟨n, whole, after, rfl, hwhole, hafter, houtcomes, hcount⟩ :=
        ih rest.length (hlength ▸ length_lt_of_cut hcut) (position.past taken)
          (position.past taken) rest rfl
      obtain ⟨hwholeCut, hwholeLead⟩ := hothers whole
      refine ⟨n + 1, taken ++ whole, after, by rw [List.append_assoc], .cons hwholeCut hwhole,
        hafter, ?_, ?_⟩
      · rw [outcomes_of_record hcut, houtcomes, outcomes_of_record hwholeCut, hwholeLead]
        rfl
      · rw [outcomes_of_record hwholeCut, List.length_cons, hcount]

/-! ## Places in the input -/

/-- The bytes of the first records, and what is passed over in front of them. -/
def behind (a : Automaton) : Nat → List UInt8 → List UInt8
  | 0, _ => []
  | n + 1, bytes =>
    match a.cut a.start bytes with
    | .record taken _ rest => taken ++ a.behind n rest
    | .unended _ => bytes

/-- The bytes that are passed over behind so many records, in front of the next. -/
def gap (a : Automaton) : Nat → List UInt8 → List UInt8
  | 0, bytes => a.lead a.start bytes
  | n + 1, bytes =>
    match a.cut a.start bytes with
    | .record _ _ rest => a.gap n rest
    | .unended _ => []

/-- The bytes in front of the first byte of the record with the given number, the first one having
the number 0. -/
def ahead (a : Automaton) (n : Nat) (bytes : List UInt8) : List UInt8 :=
  a.behind n bytes ++ a.gap n bytes

/-- What is passed over stands at the start of the bytes. -/
theorem isPrefix_lead (a : Automaton) (s : a.State) (bytes : List UInt8) :
    a.lead s bytes <+: bytes := by
  induction bytes generalizing s with
  | nil => exact List.prefix_rfl
  | cons byte bytes ih =>
    rw [lead]
    split
    · split
      · exact List.cons_prefix_cons.2 ⟨rfl, ih _⟩
      · exact List.nil_prefix
    · exact List.nil_prefix

/-- What is in front of a record is where the input starts. -/
theorem isPrefix_ahead (a : Automaton) (n : Nat) (bytes : List UInt8) :
    a.ahead n bytes <+: bytes := by
  induction n generalizing bytes with
  | zero => exact isPrefix_lead a a.start bytes
  | succ n ih =>
    rw [ahead, behind, gap]
    cases hcut : a.cut a.start bytes with
    | unended state =>
      simp only [List.append_nil, List.prefix_rfl]
    | record taken cells rest =>
      obtain ⟨rfl, -, -⟩ := of_cut_eq_record hcut
      rw [List.append_assoc, List.prefix_append_right_inj]
      exact ih rest

/-- An outcome that is no failure is told from the bytes in front of it. -/
theorem getElem?_outcomes {ending : Ending} {told position : Position} {n : Nat}
    {outcome : Outcome} (htold : told.line = position.line)
    (h : (a.outcomes ending told position bytes)[n]? = some outcome) :
    (∃ fault, outcome = .failed fault) ∨
      ∃ place cells, outcome = a.tell place (a.gap n bytes) cells ∧
        place.line = position.line + (a.behind n bytes).count Source.lineFeed := by
  induction n generalizing told position bytes with
  | zero =>
    cases hcut : a.cut a.start bytes with
    | record taken cells rest =>
      rw [outcomes_of_record hcut, List.getElem?_cons_zero] at h
      cases h
      exact Or.inr ⟨told, cells, rfl, htold⟩
    | unended state =>
      rw [outcomes_of_unended hcut] at h
      cases ending with
      | failure fault =>
        cases h
        exact Or.inl ⟨fault, rfl⟩
      | complete =>
        cases hend : a.atEnd state with
        | none => simp [hend] at h
        | some cells =>
          simp only [hend, List.getElem?_cons_zero, Option.some.injEq] at h
          exact Or.inr ⟨told, cells, h.symm, htold⟩
  | succ n ih =>
    cases hcut : a.cut a.start bytes with
    | record taken cells rest =>
      rw [outcomes_of_record hcut, List.getElem?_cons_succ] at h
      obtain hfailed | ⟨place, found, houtcome, hline⟩ := ih rfl h
      · exact Or.inl hfailed
      · refine Or.inr ⟨place, found, by rw [houtcome, gap, hcut], ?_⟩
        rw [hline, behind, hcut, List.count_append, Position.line_past, Nat.add_assoc]
    | unended state =>
      -- there is at most one outcome
      rw [outcomes_of_unended hcut] at h
      cases ending with
      | failure fault => cases h
      | complete => cases hend : a.atEnd state <;> simp [hend] at h

end Automaton

end TypedCsv.Framing
