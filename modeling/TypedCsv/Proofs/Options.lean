import Mathlib.Data.List.Induction
import TypedCsv.Options
import TypedCsv.Proofs.Steps

/-! # Options from keys and values

Options that are set one after the other hold the last value of each key, and they are refused only
for a flag that cannot be read (`Options.ofPairs_eq_ok_iff`). A text `key=value` sets what its key
and its value set, so options may as well come as such texts
(`Options.foldlM_assign_eq_ofPairs`).

* `Options.lastOf`: the last value of a key under any of its names.
* `Options.lastValues`: the options that these values are. -/

namespace TypedCsv.Options

/-! ## Flags -/

/-- The word of a flag. -/
def flagWord (value : String) : String :=
  String.ofList ((Text.trim value.toList).map Char.toLower)

/-- Whether a value turns a flag on. -/
def isOn (value : String) : Bool :=
  flagWord value ∈ ["true", "yes", "1"]

/-- A value that can be read as a flag. -/
def IsFlag (value : String) : Prop :=
  flagWord value ∈ ["true", "yes", "1", "false", "no", "0"]

/-- What a value is read as, whatever the key. -/
theorem readFlag_eq_ok_iff {key value : String} {flag : Bool} :
    readFlag key value = .ok flag ↔ IsFlag value ∧ flag = isOn value := by
  have hword : String.ofList ((Text.trim value.toList).map Char.toLower) = flagWord value := rfl
  simp only [readFlag, hword, IsFlag, isOn]
  split
  · next hon =>
    simp only [List.mem_cons, List.not_mem_nil, or_false] at hon
    rcases hon with hon | hon | hon <;> simp [hon, eq_comm]
  · next hnot =>
    split
    · next hoff =>
      simp only [List.mem_cons, List.not_mem_nil, or_false] at hoff
      rcases hoff with hoff | hoff | hoff <;> simp [hoff, eq_comm]
    · next hneither => simp_all

/-! ## The last value of a key -/

/-- The last value of a key under any of its names. -/
def lastOf (names : List String) (pairs : List (String × String)) : Option String :=
  (pairs.reverse.find? fun pair => names.contains pair.1).map Prod.snd

/-- No key has a value before any has been given. -/
@[simp] theorem lastOf_nil (names : List String) : lastOf names [] = none := rfl

/-- A value that is given later counts. -/
theorem lastOf_concat (names : List String) (pairs : List (String × String)) (key value : String) :
    lastOf names (pairs ++ [(key, value)]) =
      if names.contains key then some value else lastOf names pairs := by
  rw [lastOf, List.reverse_concat, List.find?_cons]
  cases names.contains key <;> rfl

/-- The keys of flags. -/
def flagKeys : List String :=
  ["quotingDisabled", "disableQuoteCharacter", "allowComments", "ignoreParseErrors"]

/-- The options that hold the last value of each key; a flag without one is off. -/
def lastValues (pairs : List (String × String)) : Options where
  fieldDelimiter := lastOf ["fieldDelimiter"] pairs
  quoteCharacter := lastOf ["quoteCharacter"] pairs
  quotingDisabled := (lastOf ["quotingDisabled", "disableQuoteCharacter"] pairs).any isOn
  escapeCharacter := lastOf ["escapeCharacter"] pairs
  allowComments := (lastOf ["allowComments"] pairs).any isOn
  arrayElementDelimiter := lastOf ["arrayElementDelimiter"] pairs
  nullLiteral := lastOf ["nullLiteral"] pairs
  ignoreParseErrors := (lastOf ["ignoreParseErrors"] pairs).any isOn

/-- An option that is a flag is set exactly if its value can be read as one. -/
theorem bind_readFlag_eq_ok_iff {key value : String} {make : Bool → Options} {found : Options} :
    (do return make (← readFlag key value)) = Except.ok found ↔
      IsFlag value ∧ make (isOn value) = found := by
  simp only [Except.bind_eq_ok_iff, readFlag_eq_ok_iff]
  constructor
  · rintro ⟨_, ⟨hflag, rfl⟩, heq⟩
    exact ⟨hflag, Except.ok.inj heq⟩
  · rintro ⟨hflag, rfl⟩
    exact ⟨_, ⟨hflag, rfl⟩, rfl⟩

/-- Setting one more option gives it the last value, unless it is a flag that cannot be read. -/
theorem set_lastValues_eq_ok_iff {pairs : List (String × String)} {key value : String}
    {found : Options} :
    (lastValues pairs).set key value = .ok found ↔
      (key ∈ flagKeys → IsFlag value) ∧ lastValues (pairs ++ [(key, value)]) = found := by
  unfold set
  -- one case for each key, and in those of flags the value is read first
  split <;> try rw [bind_readFlag_eq_ok_iff]
  all_goals simp_all [lastValues, lastOf_concat, flagKeys]

/-- **The last value of each option counts.** Options that are set one after the other are refused
exactly for a flag that cannot be read, whatever comes behind it, and keys that are not known do not
count. -/
theorem ofPairs_eq_ok_iff {pairs : List (String × String)} {found : Options} :
    ofPairs pairs = .ok found ↔
      (∀ pair ∈ pairs, pair.1 ∈ flagKeys → IsFlag pair.2) ∧ lastValues pairs = found := by
  rw [ofPairs]
  -- from the left, as the options come
  induction pairs using List.reverseRecOn generalizing found with
  | nil => simp [lastValues, default, pure, Except.pure]
  | append_singleton pairs pair ih =>
    obtain ⟨key, value⟩ := pair
    simp only [List.foldlM_append, List.foldlM_cons, List.foldlM_nil, bind_pure,
      Except.bind_eq_ok_iff, ih, List.forall_mem_append, List.forall_mem_singleton, and_assoc]
    constructor
    · rintro ⟨_, hflags, rfl, hset⟩
      exact ⟨hflags, set_lastValues_eq_ok_iff.1 hset⟩
    · rintro ⟨hflags, hlast⟩
      exact ⟨_, hflags, rfl, set_lastValues_eq_ok_iff.2 hlast⟩

/-! ## Assignments -/

/-- The text of an assignment. -/
def assignment (pair : String × String) : String :=
  pair.1 ++ "=" ++ pair.2

/-- **An assignment sets what its key and its value set**: the key ends at the first `=`, and blanks
around it do not count. -/
theorem assign_eq_set (options : Options) {key : String} (h : '=' ∉ key.toList) (value : String) :
    options.assign (assignment (key, value)) =
      options.set (String.ofList (Text.trim key.toList)) value := by
  have htext : (assignment (key, value)).toList = key.toList ++ '=' :: value.toList := by
    simp [assignment]
  have hkey : ∀ c ∈ key.toList, (c != '=') = true := by
    intro c hc
    simp only [bne_iff_ne]
    rintro rfl
    exact h hc
  simp only [assign, htext]
  rw [List.takeWhile_append_of_pos hkey, List.dropWhile_append_of_pos hkey]
  simp

/-- Assignments made one after the other set what their keys and values set, where the keys have
no blanks at their ends. -/
theorem foldlM_assign_eq_ofPairs {pairs : List (String × String)}
    (h : ∀ pair ∈ pairs, '=' ∉ pair.1.toList ∧ Text.trim pair.1.toList = pair.1.toList) :
    (pairs.map assignment).foldlM assign default = ofPairs pairs := by
  rw [ofPairs]
  generalize default = options
  induction pairs generalizing options with
  | nil => rfl
  | cons pair pairs ih =>
    obtain ⟨⟨hkey, htrim⟩, hpairs⟩ := List.forall_mem_cons.1 h
    have hassign : options.assign (assignment pair) = options.set pair.1 pair.2 := by
      rw [assign_eq_set options hkey pair.2, htrim, String.ofList_toList]
    rw [List.map_cons, List.foldlM_cons, List.foldlM_cons, hassign]
    exact congrArg _ (funext fun options => ih hpairs options)

end TypedCsv.Options
