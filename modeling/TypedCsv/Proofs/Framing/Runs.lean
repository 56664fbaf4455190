import TypedCsv.Proofs.Decoding
import TypedCsv.Proofs.Framing.Automaton

/-! # Runs of a framing

What an automaton finds in an input is settled, up to places, by the records that end in a run over
its bytes and by the state at the end of the run (`Automaton.map_outcomes`). Both can be followed
byte by byte.

* `Automaton.next`, `Automaton.emit`: what a byte leads to, over the end of a record.
* `Automaton.after`, `Automaton.records`: the same of some bytes.
* `Automaton.run_of_step`: what each byte keeps, a run keeps. -/

namespace TypedCsv.Framing.Automaton

variable {a : Automaton} {s t : a.State} {byte : UInt8} {bytes taken rest : List UInt8}
  {cells : List (List UInt8)}

/-- The state behind a byte; behind a record it is the start. -/
def next (a : Automaton) (s : a.State) (byte : UInt8) : a.State :=
  match a.step s byte with
  | .inl t => t
  | .inr _ => a.start

/-- The record that a byte ends, if it ends one. -/
def emit (a : Automaton) (s : a.State) (byte : UInt8) : List (List (List UInt8)) :=
  match a.step s byte with
  | .inl _ => []
  | .inr cells => [cells]

/-- The state behind some bytes. -/
def after (a : Automaton) (s : a.State) (bytes : List UInt8) : a.State :=
  bytes.foldl a.next s

/-- The records that end in some bytes. -/
def records (a : Automaton) (s : a.State) : List UInt8 → List (List (List UInt8))
  | [] => []
  | byte :: bytes => a.emit s byte ++ a.records (a.next s byte) bytes

/-- What is found at the end of an input. -/
def closing (a : Automaton) (ending : Ending) (s : a.State) : List Outcome :=
  match ending with
  | .failure fault => [.failed fault]
  | .complete => ((a.atEnd s).map (a.tell Position.start [])).toList

/-- A byte that ends no record leads to the state of its step. -/
theorem next_of_inl (h : a.step s byte = .inl t) : a.next s byte = t := by
  rw [next, h]

/-- A byte that ends a record leads to the start. -/
theorem next_of_inr (h : a.step s byte = .inr cells) : a.next s byte = a.start := by
  rw [next, h]

/-- A byte that ends no record emits none. -/
theorem emit_of_inl (h : a.step s byte = .inl t) : a.emit s byte = [] := by
  rw [emit, h]

/-- A byte that ends a record emits it. -/
theorem emit_of_inr (h : a.step s byte = .inr cells) : a.emit s byte = [cells] := by
  rw [emit, h]

/-- Without bytes the state stays as it is. -/
@[simp] theorem after_nil (a : Automaton) (s : a.State) : a.after s [] = s := rfl

/-- Bytes are run through one after the other. -/
@[simp] theorem after_cons (a : Automaton) (s : a.State) (byte : UInt8) (bytes : List UInt8) :
    a.after s (byte :: bytes) = a.after (a.next s byte) bytes := rfl

/-- Bytes behind others start from the state that those lead to. -/
theorem after_append (a : Automaton) (s : a.State) (xs ys : List UInt8) :
    a.after s (xs ++ ys) = a.after (a.after s xs) ys :=
  List.foldl_append

/-- Without bytes no record ends. -/
@[simp] theorem records_nil (a : Automaton) (s : a.State) : a.records s [] = [] := rfl

/-- The record that the first byte ends stands in front of those behind it. -/
theorem records_cons (a : Automaton) (s : a.State) (byte : UInt8) (bytes : List UInt8) :
    a.records s (byte :: bytes) = a.emit s byte ++ a.records (a.next s byte) bytes := rfl

/-- The records of two runs stand one behind the other. -/
theorem records_append (a : Automaton) (s : a.State) (xs ys : List UInt8) :
    a.records s (xs ++ ys) = a.records s xs ++ a.records (a.after s xs) ys := by
  induction xs generalizing s with
  | nil => rfl
  | cons byte xs ih =>
    rw [List.cons_append, records_cons, records_cons, ih, after_cons, List.append_assoc]

/-- What each byte keeps of the states, and gives of the records, a run keeps and gives. Both may
speak of the bytes that have been read. -/
theorem run_of_step {inv : List UInt8 → a.State → Prop}
    {found : List UInt8 → List (List UInt8) → Prop}
    (hinl : ∀ done s byte t, inv done s → a.step s byte = .inl t → inv (done ++ [byte]) t)
    (hinr : ∀ done s byte cells, inv done s → a.step s byte = .inr cells →
      found (done ++ [byte]) cells ∧ inv (done ++ [byte]) a.start)
    (hmore : ∀ done more cells, found done cells → found (done ++ more) cells)
    {done : List UInt8} (h : inv done s) (bytes : List UInt8) :
    inv (done ++ bytes) (a.after s bytes) ∧
      ∀ cells ∈ a.records s bytes, found (done ++ bytes) cells := by
  induction bytes generalizing done s with
  | nil =>
    rw [List.append_nil]
    exact ⟨h, by simp⟩
  | cons byte bytes ih =>
    rw [List.append_cons, after_cons, records_cons]
    cases hstep : a.step s byte with
    | inl t =>
      rw [next_of_inl hstep, emit_of_inl hstep]
      exact ih (hinl _ _ _ _ h hstep)
    | inr cells =>
      obtain ⟨hcells, hstart⟩ := hinr _ _ _ _ h hstep
      rw [next_of_inr hstep, emit_of_inr hstep]
      obtain ⟨hafter, hrecords⟩ := ih hstart
      exact ⟨hafter, List.forall_mem_cons.2 ⟨hmore _ bytes _ hcells, hrecords⟩⟩

/-- Bytes that end no record lead where the run over them does. -/
theorem of_cut_unended (h : a.cut s bytes = .unended t) :
    a.records s bytes = [] ∧ a.after s bytes = t := by
  induction bytes generalizing s with
  | nil =>
    cases h
    exact ⟨rfl, rfl⟩
  | cons byte bytes ih =>
    cases hstep : a.step s byte with
    | inl u =>
      rw [cut_cons_inl hstep] at h
      rw [records_cons, after_cons, emit_of_inl hstep, next_of_inl hstep]
      exact ih (Cut.of_behind_eq_unended h)
    | inr found =>
      rw [cut_cons_inr hstep] at h
      cases h

/-- The first record of some bytes is the first in the run over them, which goes on from the
start. -/
theorem of_cut_record (h : a.cut s bytes = .record taken cells rest) :
    a.records s bytes = cells :: a.records a.start rest ∧
      a.after s bytes = a.after a.start rest := by
  induction bytes generalizing s taken with
  | nil => cases h
  | cons byte bytes ih =>
    cases hstep : a.step s byte with
    | inl u =>
      rw [cut_cons_inl hstep] at h
      rw [records_cons, after_cons, emit_of_inl hstep, next_of_inl hstep]
      cases hcut : a.cut u bytes with
      | unended t =>
        rw [hcut] at h
        cases h
      | record inner found last =>
        rw [hcut] at h
        cases h
        exact ih hcut
    | inr found =>
      rw [cut_cons_inr hstep] at h
      cases h
      rw [records_cons, after_cons, emit_of_inr hstep, next_of_inr hstep]
      exact ⟨rfl, rfl⟩

/-- **To a view that does not see places an input is its records and its closing.** -/
theorem map_outcomes {β : Type} {view : Outcome → β} (hview : ∀ place lead place' lead' cells,
    view (a.tell place lead cells) = view (a.tell place' lead' cells))
    (ending : Ending) (told position : Position) (bytes : List UInt8) :
    (a.outcomes ending told position bytes).map view =
      (a.records a.start bytes).map (fun cells => view (a.tell Position.start [] cells)) ++
        (a.closing ending (a.after a.start bytes)).map view := by
  generalize hlength : bytes.length = length
  induction length using Nat.strongRecOn generalizing told position bytes with
  | ind length ih =>
    cases hcut : a.cut a.start bytes with
    | record taken cells rest =>
      obtain ⟨hrecords, hafter⟩ := of_cut_record hcut
      rw [outcomes_of_record hcut, hrecords, hafter, List.map_cons, List.map_cons, List.cons_append,
        ← ih rest.length (hlength ▸ length_lt_of_cut hcut) _ _ rest rfl]
      exact congrArg (List.cons · _) (hview _ _ _ _ _)
    | unended state =>
      obtain ⟨hrecords, hafter⟩ := of_cut_unended hcut
      rw [outcomes_of_unended hcut, hrecords, hafter, List.map_nil, List.nil_append]
      cases ending with
      | failure fault => rfl
      | complete =>
        rw [closing]
        cases a.atEnd state with
        | none => rfl
        | some cells => exact congrArg (List.cons · []) (hview _ _ _ _ _)

/-- **Behind bytes that lead back to the start everything is found as at the start.** -/
theorem map_outcomes_append {β : Type} {view : Outcome → β}
    (hview : ∀ place lead place' lead' cells,
      view (a.tell place lead cells) = view (a.tell place' lead' cells))
    {xs : List UInt8} (h : a.after a.start xs = a.start) (ending : Ending)
    (told position told' position' told'' position'' : Position) (ys : List UInt8) :
    (a.outcomes ending told position (xs ++ ys)).map view =
      (a.outcomes .complete told' position' xs).map view ++
        (a.outcomes ending told'' position'' ys).map view := by
  have hclosing : a.closing .complete a.start = [] := by rw [closing, a.atEnd_start]; rfl
  rw [map_outcomes hview, map_outcomes hview, map_outcomes hview, records_append, after_append, h,
    hclosing, List.map_nil, List.append_nil, List.map_append, List.append_assoc]

/-- A complete input holds nothing but records. -/
theorem isRecord_of_mem_outcomes (htell : ∀ place lead cells,
    (a.tell place lead cells).isRecord = true) {told position : Position} {outcome : Outcome}
    (h : outcome ∈ a.outcomes .complete told position bytes) : outcome.isRecord = true := by
  have hmem : outcome.isRecord ∈ (a.outcomes .complete told position bytes).map Outcome.isRecord :=
    List.mem_map_of_mem h
  rw [map_outcomes fun _ _ _ _ _ => by rw [htell, htell]] at hmem
  obtain hmem | hmem := List.mem_append.1 hmem
  · obtain ⟨cells, -, hcells⟩ := List.mem_map.1 hmem
    rw [← hcells, htell]
  · rw [closing] at hmem
    cases hend : a.atEnd (a.after a.start bytes) with
    | none => simp [hend] at hmem
    | some cells =>
      simp only [hend, Option.map_some, Option.toList_some, List.map_cons, List.map_nil,
        List.mem_singleton, htell] at hmem
      exact hmem

end TypedCsv.Framing.Automaton
