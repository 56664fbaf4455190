import TypedCsv.Command.Arguments
import TypedCsv.Command.Disk
import TypedCsv.Decoder
import TypedCsv.Encoder
import TypedCsv.Estimate
import TypedCsv.TableDefinition

/-! # Running commands

`Command.run` gives the `Report` of a command: what it writes to the standard output and to a
file, and the `Failure` that stopped it, if one did. What has been written before a failure stays.

* `Transcoding.prepare`: the decoder and the encoder of a transcoding.
* `Transcoding.copyRows`: the rows of an input, decoded and encoded again.
* `Transcoding.run`, `Command.run`: the reports. -/

namespace TypedCsv

namespace Command

/-- What stops a command. -/
inductive Failure where
  | definitionMissing (path : String) (fault : IoFault)
  | definitionUnreadable (path : String)
  | override (assignment : String) (fault : Options.Fault)
  | columns (fault : Projection.Fault)
  | decoder (error : Error)
  | encoder (error : Error)
  | input (path : String) (fault : IoFault)
  | output (path : String) (fault : IoFault)
  | decoding (path : String) (error : Error)
  | encoding (fault : Encoding.Fault)

namespace Failure

/-- What was going on, and then its causes, the outermost first. -/
def chain : Failure → List String
  | definitionMissing path fault =>
    ["Loading table definition " ++ Text.quoted path,
      "Opening schema file " ++ Text.quoted path, fault.message]
  | definitionUnreadable path =>
    ["Loading table definition " ++ Text.quoted path,
      "Parsing schema YAML " ++ Text.quoted path]
  | override assignment fault =>
    [s!"Applying format option '{assignment}'", fault.message]
  | columns fault => (Error.projection fault).chain
  | decoder error => "Building decoder" :: error.chain
  | encoder error => "Building encoder" :: error.chain
  | input path fault => ["Opening input file " ++ Text.quoted path, fault.message]
  | output path fault => ["Creating output file " ++ Text.quoted path, fault.message]
  | decoding path error => ("Decoding " ++ Text.quoted path) :: error.chain
  | encoding fault => "Encoding row" :: (Error.encoding fault).chain

/-- The line that tells of a failure. -/
def message (failure : Failure) : String :=
  "error: " ++ ": ".intercalate failure.chain

end Failure

/-- What a command has done. -/
structure Report where
  /-- The bytes on the standard output. -/
  stdout : List UInt8
  /-- The file that has been written, and its bytes. -/
  written : Option (Place × List UInt8)
  failure : Option Failure

namespace Report

/-- The report of a command that stops before it writes anything. -/
def failed (failure : Failure) : Report := ⟨[], none, some failure⟩

/-- The report of a command that writes a line to the standard output. -/
def line (text : String) : Report :=
  ⟨Utf8.encode (text.toList ++ ['\n']), none, none⟩

/-- The exit status. -/
def code (report : Report) : Nat :=
  if report.failure.isSome then 1 else 0

/-- The disk after a command. -/
def disk (report : Report) (before : Disk) : Disk :=
  match report.written with
  | some (place, bytes) => before.put place (.file bytes)
  | none => before

end Report

end Command

namespace Transcoding

open Command (Failure Report)

/-- Options with some assignments made one after the other. -/
def applyOverrides (options : Options) (assignments : List String) : Except Failure Options :=
  assignments.foldlM (fun options assignment =>
    (options.assign assignment).mapError (.override assignment)) options

/-- The definition at a path. -/
def loadDefinition (disk : Disk) (path : String) : Except Failure TableDefinition := do
  let entry ← (disk.find path).mapError (.definitionMissing path)
  match entry with
  | .file content =>
    match TableDefinition.read? content with
    | some definition => return definition
    | none => throw (.definitionUnreadable path)
  | _ => throw (.definitionUnreadable path)

/-- The projection of the columns to keep, if there are any. -/
def projection (job : Transcoding) (rowType : RowType) :
    Except Failure (Option Projection) :=
  if job.columns.isEmpty then .ok none
  else ((Projection.ofNames rowType job.columns).map some).mapError .columns

/-- The decoder and the encoder of a transcoding by a definition. -/
def prepare (job : Transcoding) (definition : TableDefinition) :
    Except Failure (Decoder × Encoder) := do
  let readOptions ← applyOverrides definition.options job.readOverrides
  let writeOptions ← applyOverrides definition.options job.writeOverrides
  let policy := if job.ignoreParseErrors then .lenient else Policy.ofOptions readOptions
  let projection ← job.projection definition.fields
  let decoder ← (Decoder.compile definition.fields readOptions projection policy).mapError .decoder
  let encoder ← (Encoder.compile decoder.rowType writeOptions).mapError .encoder
  return (decoder, encoder)

/-- Writes decoded rows up to the first error or the first row that is refused. -/
def writeItems (path : String) (writer : Encoder.Writer) :
    List (Except Error Row) → Encoder.Writer × Option Failure
  | [] => (writer, none)
  | .error error :: _ => (writer, some (.decoding path error))
  | .ok row :: items =>
    match writer.append row with
    | .ok writer => writeItems path writer items
    | .error fault => (writer, some (.encoding fault))

/-- The bytes of the rows of an input, and what stopped the reading or the writing. -/
def copyRows (job : Transcoding) (decoder : Decoder) (encoder : Encoder) (source : Source) :
    List UInt8 × Option Failure :=
  let items := (decoder.rows source).items.1.map Prod.fst
  let (writer, failure) := writeItems job.input encoder.writer items
  (writer.bytes, failure)

/-- Whether a path stands for a standard stream: a hyphen, whatever slashes and dots follow. -/
def isStandardStream (path : String) : Bool :=
  match Place.names path with
  | "-" :: names => names.all fun name => name = "" ∨ name = "."
  | _ => false

/-- Checks that the input can be opened. -/
def checkInput (job : Transcoding) (disk : Disk) : Except Failure Unit :=
  if isStandardStream job.input then .ok ()
  else (disk.find job.input).map (fun _ => ()) |>.mapError (.input job.input)

/-- Makes the output file, if there is one: its place and the disk after it. -/
def openOutput (job : Transcoding) (disk : Disk) : Except Failure (Option Place × Disk) :=
  match job.output with
  | none => .ok (none, disk)
  | some path =>
    if isStandardStream path then .ok (none, disk)
    else
      ((disk.create path).map fun (place, disk) => (some place, disk)).mapError (.output path)

/-- The input, as it is on a disk. -/
def source (job : Transcoding) (disk : Disk) (stdin : Source) : Source :=
  if isStandardStream job.input then stdin
  else
    match disk.find job.input with
    | .ok entry => entry.source
    | .error fault => ⟨[], .failure fault⟩

/-- Runs a transcoding. The input is opened before the output is made and read after that: what
is written in the place of its own input finds it empty. -/
def run (job : Transcoding) (disk : Disk) (stdin : Source) : Report :=
  let opened : Except Failure ((Decoder × Encoder) × Option Place × Disk) := do
    let definition ← loadDefinition disk job.schema
    let codecs ← job.prepare definition
    -- nothing is made before all that can be checked has been checked
    job.checkInput disk
    let (place, disk) ← job.openOutput disk
    return (codecs, place, disk)
  match opened with
  | .error failure => .failed failure
  | .ok ((decoder, encoder), place, disk) =>
    let (bytes, failure) := job.copyRows decoder encoder (job.source disk stdin)
    match place with
    | some place => ⟨[], some (place, bytes), failure⟩
    | none => ⟨bytes, none, failure⟩

end Transcoding

namespace Command

/-- The line that tells the version. -/
def versionLine : String := "csv-rowcodec 0.1.0"

/-- A file to estimate. -/
def sampleFile (disk : Disk) (path : String) : SampleFile :=
  match disk.find path with
  | .error fault => ⟨.error fault, .error fault⟩
  | .ok (.file content) => ⟨.ok content.length, .ok (Source.ofBytes content)⟩
  | .ok entry => ⟨.ok 0, .ok entry.source⟩

/-- The lines that tell how to use the program. -/
def usage : String :=
  "\n".intercalate
    ["Usage: csv-rowcodec estimate <FILES>...",
      "       csv-rowcodec transcode --schema <SCHEMA> [OPTIONS]",
      "",
      "Options:",
      "  -s, --schema <SCHEMA>            the table definition",
      "  -i, --input <INPUT>              the input; - is the standard input",
      "  -o, --output <OUTPUT>            the output; - is the standard output",
      "      --option <KEY=VALUE>         a format option for reading",
      "      --output-option <KEY=VALUE>  a format option for writing",
      "  -C, --columns <COLUMNS>          the columns to keep, with commas between them",
      "      --ignore-parse-errors        skip what cannot be read"]

/-- Runs a command. -/
def run (command : Command) (disk : Disk) (stdin : Source) : Report :=
  match command with
  | version => .line versionLine
  | help => .line usage
  | estimate files => .line (Estimate.ofFiles (files.map (sampleFile disk))).display
  | transcode job => job.run disk stdin

end Command

end TypedCsv
