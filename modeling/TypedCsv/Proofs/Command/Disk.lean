import Mathlib.Data.List.Infix
import TypedCsv.Command.Disk
import TypedCsv.Proofs.Steps

/-! # Making a file changes nothing else

A file is made at a place that its directories lead to, so all other places keep what is there
(`Disk.entryAt_put`), and every path that led somewhere leads to the same place
(`Disk.locate_put`). What another path finds is as before (`Disk.find_put`), and the path of the
file finds its bytes (`Disk.find_put_of_create`). -/

namespace TypedCsv.Disk

variable {disk after : Disk} {place other found : Place} {path : String} {bytes : List UInt8}

/-- A place leads to those that stand strictly below it. -/
theorem leadsTo_iff : leadsTo place other = true ↔ place <+: other ∧ place ≠ other := by
  simp [leadsTo]

/-! ## Places that have been reached -/

/-- Whatever leads to a place is a directory. -/
def Reached (disk : Disk) (place : Place) : Prop :=
  ∀ other, leadsTo other place = true → disk.entryAt other = some .directory

/-- The root is reached on every disk. -/
theorem reached_nil (disk : Disk) : disk.Reached [] := by
  intro other h
  obtain ⟨hleads, hne⟩ := leadsTo_iff.1 h
  exact absurd (List.prefix_nil.1 hleads) hne

/-- What leads to a place below a directory is that directory or leads to it. -/
theorem Reached.append (h : disk.Reached place) (hplace : disk.entryAt place = some .directory)
    (name : String) : disk.Reached (place ++ [name]) := by
  intro other hother
  obtain ⟨hleads, hne⟩ := leadsTo_iff.1 hother
  obtain heq | hleads := List.prefix_concat_iff.1 hleads
  · exact absurd heq hne
  · by_cases heq : other = place
    · rw [heq, hplace]
    · exact h other (leadsTo_iff.2 ⟨hleads, heq⟩)

/-- The directory of a place that is reached is reached too. -/
theorem Reached.dropLast (h : disk.Reached place) : disk.Reached place.dropLast := by
  intro other hother
  obtain ⟨hleads, hne⟩ := leadsTo_iff.1 hother
  refine h other (leadsTo_iff.2 ⟨hleads.trans (List.dropLast_prefix place), ?_⟩)
  rintro rfl
  -- a place that is no shorter than its own directory is the empty one
  have hlength := hleads.length_le
  rw [List.length_dropLast] at hlength
  obtain rfl : other = [] := List.length_eq_zero_iff.1 (by omega)
  exact hne rfl

/-- Only a directory can be entered. -/
theorem entryAt_of_enter {name : String} (h : disk.enter place name = .ok found) :
    disk.entryAt place = some .directory := by
  rw [enter] at h
  split at h
  · cases h
  · cases h
  · cases h
  · next hentry => exact hentry

/-- Entering a name leads from a place that is reached to one that is. -/
theorem Reached.enter {name : String} (h : disk.Reached place)
    (henter : disk.enter place name = .ok found) : disk.Reached found := by
  have hplace := entryAt_of_enter henter
  simp only [Disk.enter, hplace] at henter
  split at henter
  · cases henter
    exact h
  · split at henter
    · -- the place above
      cases henter
      rw [above]
      split
      · exact h
      · split
        · exact h.append hplace ".."
        · exact h.dropLast
    · cases henter
      exact h.append hplace name

/-- Walking along any names leads from a place that is reached to one that is. -/
theorem Reached.foldlM_enter {names : List String} (h : disk.Reached place)
    (hfound : names.foldlM disk.enter place = .ok found) : disk.Reached found := by
  induction names generalizing place with
  | nil =>
    cases hfound
    exact h
  | cons name names ih =>
    rw [List.foldlM_cons, Except.bind_eq_ok_iff] at hfound
    obtain ⟨next, hnext, hrest⟩ := hfound
    exact ih (h.enter hnext) hrest

/-! ## Making a file -/

/-- The place that a path leads to. -/
def locate (disk : Disk) (path : String) : Except IoFault Place :=
  (Place.names path).foldlM disk.enter []

/-- What is found at a path is what is at its place. -/
theorem find_congr (hplace : disk.locate path = .ok found) (hsame : after.locate path = .ok found)
    (h : after.entryAt found = disk.entryAt found) : after.find path = disk.find path := by
  rw [locate] at hplace hsame
  simp only [find, hplace, hsame, bind, Except.bind, h]

/-- A path where something is found can be located. -/
theorem exists_locate_of_find {entry : Entry} (h : disk.find path = .ok entry) :
    ∃ found, disk.locate path = .ok found := by
  obtain ⟨found, hfound, -⟩ := Except.bind_eq_ok_iff.1 h
  exact ⟨found, hfound⟩

/-- A file in a place that its directories lead to leaves all other places as they are. -/
theorem entryAt_put (h : disk.Reached place) (hne : other ≠ place) (bytes : List UInt8) :
    (disk.put place (.file bytes)).entryAt other = disk.entryAt other := by
  have hlookup : (disk.put place (.file bytes)).entries.lookup other =
      disk.entries.lookup other := by
    have hbeq : (other == place) = false := by simpa using hne
    rw [put, List.lookup_cons, hbeq]
  rw [entryAt, entryAt, hlookup]
  cases hfound : disk.entries.lookup other with
  | some entry => rfl
  | none =>
    by_cases hleads : leadsTo other place = true
    · -- what leads to the file has been a directory before
      have hdirectory := h other hleads
      rw [entryAt, hfound] at hdirectory
      simp only [hdirectory, put, List.any_cons, hleads, Bool.true_or, Bool.or_true, if_true]
    · simp only [put, List.any_cons, hleads, Bool.false_or]

/-- A place holds the entry that was put there last. -/
theorem entryAt_put_self (disk : Disk) (place : Place) (entry : Entry) :
    (disk.put place entry).entryAt place = some entry := by
  simp [entryAt, put]

/-- A file is no directory that a path could have gone through. -/
theorem locate_put (h : disk.Reached place) (hfile : disk.entryAt place ≠ some .directory)
    (hfound : disk.locate path = .ok found) (bytes : List UInt8) :
    (disk.put place (.file bytes)).locate path = .ok found := by
  rw [locate] at hfound ⊢
  generalize ([] : Place) = start at hfound
  generalize Place.names path = names at hfound
  induction names generalizing start with
  | nil => exact hfound
  | cons name names ih =>
    rw [List.foldlM_cons, Except.bind_eq_ok_iff] at hfound ⊢
    obtain ⟨next, hnext, hrest⟩ := hfound
    have hstart := entryAt_of_enter hnext
    have hne : start ≠ place := by
      rintro rfl
      exact hfile hstart
    refine ⟨next, ?_, ih next hrest⟩
    simp only [enter, entryAt_put h hne bytes, hstart] at hnext ⊢
    exact hnext

/-- What is known of a file that has been made. -/
theorem of_create (h : disk.create path = .ok (found, after)) :
    disk.locate path = .ok found ∧ disk.Reached found ∧ disk.entryAt found ≠ some .directory ∧
      after = disk.put found (.file []) := by
  simp only [create, Except.bind_eq_ok_iff] at h
  obtain ⟨directory, hdirectory, h⟩ := h
  split at h
  · cases h
  next hname =>
  obtain ⟨place, hplace, h⟩ := Except.bind_eq_ok_iff.1 h
  split at h
  · cases h
  · cases h
  next hentry _ =>
  cases h
  have hnames : Place.names path ≠ [] := by
    intro hnil
    rw [hnil] at hname
    exact hname rfl
  refine ⟨?_, ((reached_nil disk).foldlM_enter hdirectory).enter hplace, hentry, rfl⟩
  have hlast : (Place.names path).getLastD "" = (Place.names path).getLast hnames := by
    rw [List.getLastD_eq_getLast?, List.getLast?_eq_some_getLast hnames, Option.getD_some]
  rw [locate, ← List.dropLast_concat_getLast hnames, List.foldlM_append, Except.bind_eq_ok_iff]
  refine ⟨directory, hdirectory, ?_⟩
  rw [List.foldlM_cons, Except.bind_eq_ok_iff]
  exact ⟨_, hlast ▸ hplace, rfl⟩

/-- A path that leads elsewhere finds what it has found before. -/
theorem find_put (hcreate : disk.create path = .ok (found, after)) {path' : String}
    (hother : disk.locate path' = .ok other) (hne : other ≠ found) (bytes : List UInt8) :
    (disk.put found (.file bytes)).find path' = disk.find path' := by
  obtain ⟨-, hreached, hfile, -⟩ := of_create hcreate
  exact find_congr hother (locate_put hreached hfile hother bytes) (entryAt_put hreached hne bytes)

/-- The path of a file that has been made finds its bytes. -/
theorem find_put_of_create (hcreate : disk.create path = .ok (found, after))
    (bytes : List UInt8) : (disk.put found (.file bytes)).find path = .ok (.file bytes) := by
  obtain ⟨hplace, hreached, hfile, -⟩ := of_create hcreate
  have hsame := locate_put hreached hfile hplace bytes
  rw [locate] at hsame
  rw [find, Except.bind_eq_ok_iff]
  exact ⟨found, hsame, by rw [entryAt_put_self]⟩

end TypedCsv.Disk
