import TypedCsv.Text.Split

/-! # Arguments

The words of a command line as a `Command`. An option is long (`--schema p.yml`,
`--schema=p.yml`) or short (`-s p.yml`, `-sp.yml`, `-s=p.yml`); a word that starts with a hyphen
is never the value of the option before it, a lone hyphen apart.

* `Argument.ofWord`: what a word is on its own.
* `Command.parse`: the command of some words, if they make one. -/

namespace TypedCsv

/-- What a word of a command line is on its own. -/
inductive Argument where
  /-- The word after which no word is an option. -/
  | separator
  /-- An option with a long name, perhaps with its value. -/
  | long (name : String) (value : Option String)
  /-- An option with a short name, perhaps with its value. -/
  | short (name : Char) (value : Option String)
  | operand (word : String)
deriving DecidableEq, Repr

namespace Argument

/-- The long option of the text after two hyphens. -/
def ofLongText (text : List Char) : Argument :=
  let name := String.ofList (text.takeWhile (· != '='))
  match text.dropWhile (· != '=') with
  | [] => long name none
  | _ :: value => long name (some (String.ofList value))

/-- The short option of the text after its hyphen and name. -/
def ofShortText (name : Char) : List Char → Argument
  | [] => short name none
  | '=' :: value => short name (some (String.ofList value))
  | value => short name (some (String.ofList value))

/-- What a word is. -/
def ofWord (word : String) : Argument :=
  match word.toList with
  | ['-', '-'] => separator
  | '-' :: '-' :: text => ofLongText text
  | '-' :: name :: text => ofShortText name text
  | _ => operand word

/-- The first of some words, if it can be the value of the option before it. -/
def value? : List String → Option (String × List String)
  | [] => none
  | word :: words => if ofWord word = operand word then some (word, words) else none

/-- The words behind a value are fewer than those in front of it. -/
theorem length_lt_of_value? {words rest : List String} {word : String}
    (h : value? words = some (word, rest)) : rest.length < words.length := by
  cases words with
  | nil => simp [value?] at h
  | cons first others =>
    simp only [value?] at h
    split at h
    · simp only [Option.some.injEq, Prod.mk.injEq] at h
      simp [← h.2]
    · cases h

end Argument

/-- The reading of a table by its definition, and its writing with other options or columns. -/
structure Transcoding where
  /-- The path of the table definition. -/
  schema : String
  /-- The path of the input; a hyphen stands for the standard input. -/
  input : String
  /-- The path of the output; a hyphen or none stands for the standard output. -/
  output : Option String
  /-- Assignments of options for reading. -/
  readOverrides : List String
  /-- Assignments of options for writing. -/
  writeOverrides : List String
  /-- The columns to keep, in order; none stands for all. -/
  columns : List String
  /-- Skip what cannot be read. -/
  ignoreParseErrors : Bool
deriving DecidableEq, Repr

/-- What to do. -/
inductive Command where
  | version
  | help
  /-- Estimate the number of rows of some files. -/
  | estimate (files : List String)
  | transcode (job : Transcoding)
deriving DecidableEq, Repr

namespace Command

/-! ## Options of a transcoding -/

/-- An option that takes a value. -/
inductive Parameter where
  | schema
  | input
  | output
  | readOverride
  | writeOverride
  | columns

/-- The option of a long name. -/
def Parameter.ofLong? (name : String) : Option Parameter :=
  match name with
  | "schema" => some schema
  | "input" => some input
  | "output" => some output
  | "option" => some readOverride
  | "output-option" => some writeOverride
  | "columns" => some columns
  | _ => none

/-- The option of a short name. -/
def Parameter.ofShort? (name : Char) : Option Parameter :=
  if name = 's' then some schema
  else if name = 'i' then some input
  else if name = 'o' then some output
  else if name = 'C' then some columns
  else none

/-- The options found so far. -/
structure Settings where
  schema : Option String
  input : Option String
  output : Option String
  readOverrides : List String
  writeOverrides : List String
  columns : List String
  ignoreParseErrors : Bool

namespace Settings

/-- No option has been found. -/
def empty : Settings := ⟨none, none, none, [], [], [], false⟩

/-- A path that is given once and is not empty. -/
def path? (known : Option String) (path : String) : Option (Option String) :=
  if known.isSome ∨ path.isEmpty then none else some (some path)

/-- Adds the value of an option. Overrides and columns add up; a value of columns is a list with
commas. -/
def put (s : Settings) (parameter : Parameter) (value : String) : Option Settings :=
  match parameter with
  | .schema => (path? s.schema value).map fun path => { s with schema := path }
  | .input => (path? s.input value).map fun path => { s with input := path }
  | .output => (path? s.output value).map fun path => { s with output := path }
  | .readOverride => some { s with readOverrides := s.readOverrides ++ [value] }
  | .writeOverride => some { s with writeOverrides := s.writeOverrides ++ [value] }
  | .columns =>
    some { s with columns := s.columns ++ (Text.split ',' value.toList).map String.ofList }

/-- Adds the flag that skips what cannot be read; it is given once. -/
def ignore (s : Settings) : Option Settings :=
  if s.ignoreParseErrors then none else some { s with ignoreParseErrors := true }

/-- The command of the options; the schema is required. -/
def command? (s : Settings) : Option Command :=
  s.schema.map fun schema =>
    .transcode
      { schema
        input := s.input.getD "-"
        output := s.output
        readOverrides := s.readOverrides
        writeOverrides := s.writeOverrides
        columns := s.columns
        ignoreParseErrors := s.ignoreParseErrors }

end Settings

/-! ## Commands -/

/-- Reads the options of a transcoding from some words. -/
def parseTranscode (s : Settings) : List String → Option Command
  | [] => s.command?
  | word :: words =>
    match Argument.ofWord word with
    | .long "help" none => some .help
    | .short 'h' _ => some .help
    | .long "ignore-parse-errors" none => s.ignore.bind (parseTranscode · words)
    | .long name value => do parseOption s (← Parameter.ofLong? name) value words
    | .short name value => do parseOption s (← Parameter.ofShort? name) value words
    -- there are no operands, also not after the separator
    | .separator => if words.isEmpty then s.command? else none
    | .operand _ => none
termination_by words => 2 * words.length
where
  /-- Adds an option, whose value stands with its name or is the next word. -/
  parseOption (s : Settings) (parameter : Parameter) (value : Option String)
      (words : List String) : Option Command :=
    match value with
    | some value => (s.put parameter value).bind (parseTranscode · words)
    | none =>
      match _h : Argument.value? words with
      | some (value, rest) => (s.put parameter value).bind (parseTranscode · rest)
      | none => none
  termination_by 2 * words.length + 1
  decreasing_by
    · omega
    · have := Argument.length_lt_of_value? _h
      omega

/-- Reads the files of an estimate from some words. There is at least one, and none is an empty
text. -/
def parseEstimate (files : List String) : List String → Option Command
  | [] => finish files
  | word :: words =>
    match Argument.ofWord word with
    | .long "help" none => some .help
    | .short 'h' _ => some .help
    | .operand file => if file.isEmpty then none else parseEstimate (files ++ [file]) words
    | .separator => if words.any String.isEmpty then none else finish (files ++ words)
    | _ => none
where
  /-- The command of some files. -/
  finish (files : List String) : Option Command :=
    if files.isEmpty then none else some (.estimate files)

/-- The command of some words, if they make one. -/
def parse : List String → Option Command
  | [] => none
  | word :: words =>
    match Argument.ofWord word with
    | .long "version" none => some .version
    | .short 'V' _ => some .version
    | .long "help" none => some .help
    | .short 'h' _ => some .help
    | .operand "estimate" => parseEstimate [] words
    | .operand "transcode" => parseTranscode .empty words
    | .operand "help" => parseHelp words
    | _ => none
where
  /-- Help on a command, or on all of them. -/
  parseHelp : List String → Option Command
    | [] => some .help
    | [word] => if word ∈ ["estimate", "transcode", "help"] then some .help else none
    | _ => none

end Command

end TypedCsv
