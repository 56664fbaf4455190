/-! # Backslash sequences in option texts

A backslash and the character after it may name a character that is hard to type. `resolve`
replaces the named ones and keeps everything else as it stands:

* `\t \n \r \b \f \0 \\ \' \"` name one character each (`named`);
* `\u` takes the next four characters as a hexadecimal number (`codePoint?`). -/

namespace TypedCsv.Text.Backslash

/-- The character that a backslash followed by the given character names. -/
def named (c : Char) : Option Char :=
  if c = 't' then some '\t'
  else if c = 'n' then some '\n'
  else if c = 'r' then some '\r'
  else if c = 'b' then some '\x08'
  else if c = 'f' then some '\x0c'
  else if c = '0' then some '\x00'
  else if c = '\\' || c = '\x27' || c = '\x22' then some c
  else none

/-- The value of a hexadecimal digit. -/
def hexDigit? (c : Char) : Option Nat :=
  if '0' ≤ c ∧ c ≤ '9' then some (c.toNat - '0'.toNat)
  else if 'a' ≤ c ∧ c ≤ 'f' then some (c.toNat - 'a'.toNat + 10)
  else if 'A' ≤ c ∧ c ≤ 'F' then some (c.toNat - 'A'.toNat + 10)
  else none

/-- The value of a row of hexadecimal digits, read after the value `n` of those before it. -/
def hexValueFrom? (n : Nat) : List Char → Option Nat
  | [] => some n
  | c :: rest =>
    match hexDigit? c with
    | some d => hexValueFrom? (n * 16 + d) rest
    | none => none

/-- The value of a hexadecimal number: at least one digit, after a plus sign or without. -/
def hexNumber? : List Char → Option Nat
  | [] => none
  | '+' :: [] => none
  | '+' :: digits => hexValueFrom? 0 digits
  | digits => hexValueFrom? 0 digits

/-- The character that four characters name by its number. -/
def codePoint? (digits : List Char) : Option Char :=
  if digits.length = 4 then
    match hexNumber? digits with
    | some n => if h : n.isValidChar then some (Char.ofNatAux n h) else none
    | none => none
  else none

/-- Replaces the sequences that name a character, in one pass from left to right. -/
def resolve : List Char → List Char
  | [] => []
  | '\\' :: [] => ['\\']
  | '\\' :: 'u' :: rest =>
    match codePoint? (rest.take 4) with
    | some c => c :: resolve (rest.drop 4)
    | none => '\\' :: 'u' :: rest.take 4 ++ resolve (rest.drop 4)
  | '\\' :: c :: rest =>
    match named c with
    | some named => named :: resolve rest
    | none => '\\' :: c :: resolve rest
  | c :: rest => c :: resolve rest
termination_by text => text.length
decreasing_by all_goals simp only [List.length_cons, List.length_drop]; omega

end TypedCsv.Text.Backslash
