import TypedCsv.Command.Run
import TypedCsv.Proofs.Appending
import TypedCsv.Proofs.Command.Disk
import TypedCsv.Proofs.Decoding
import TypedCsv.Proofs.Text.Utf8

/-! # Transcoding is decoding and then encoding

A transcoding makes its output only once all that comes before it has succeeded, and writes to it
the rows that are decoded up to the first that is refused (`Transcoding.run_decodes_and_encodes`).

* `Transcoding.Prepared`: what there is once nothing before the output has failed.
* `Transcoding.leading`: the rows in front of the first error.
* `Transcoding.writeItems_eq`: rows are decoded and encoded by turns, which is as if all of them had
  been decoded first. -/

namespace TypedCsv

namespace Transcoding

open Command (Failure Report)

variable {job : Transcoding} {disk after : Disk} {stdin : Source}

/-! ## Rows by turns -/

/-- The rows in front of the first error. -/
def leading : List (Except Error Row) → List Row
  | .ok row :: items => row :: leading items
  | _ => []

/-- Writing decoded rows one by one is writing those in front of the first error, and fails exactly
if one of these is refused or there is an error. -/
theorem writeItems_eq (path : String) (w : Encoder.Writer) (items : List (Except Error Row)) :
    (writeItems path w items).1 = (w.appendAll (leading items)).1 ∧
      ((writeItems path w items).2 = none ↔
        (w.appendAll (leading items)).2 = none ∧ ∀ item ∈ items, item.isOk = true) := by
  induction items generalizing w with
  | nil => exact ⟨rfl, by simp [writeItems, leading, Encoder.Writer.appendAll]⟩
  | cons item items ih =>
    cases item with
    | error error =>
      exact ⟨rfl, by simp [writeItems, leading, Encoder.Writer.appendAll]⟩
    | ok row =>
      rw [writeItems, leading, Encoder.Writer.appendAll, List.forall_mem_cons]
      cases w.append row with
      | error fault => exact ⟨rfl, by simp⟩
      | ok w =>
        refine ⟨(ih w).1, (ih w).2.trans ?_⟩
        simp

/-- The bytes of a transcoding, and whether something has stopped it. -/
theorem copyRows_eq (job : Transcoding) (decoder : Decoder) (encoder : Encoder) (source : Source) :
    encoder.encode ((leading ((decoder.rows source).items.1.map Prod.fst)).takeWhile
        encoder.accepts) = .ok (job.copyRows decoder encoder source).1 ∧
      ((job.copyRows decoder encoder source).2 = none ↔
        (∀ row ∈ leading ((decoder.rows source).items.1.map Prod.fst),
          encoder.accepts row = true) ∧
        ∀ item ∈ (decoder.rows source).items.1.map Prod.fst, item.isOk = true) := by
  have hencoder : encoder.writer.encoder = encoder := rfl
  obtain ⟨hbytes, hfailure⟩ :=
    writeItems_eq job.input encoder.writer ((decoder.rows source).items.1.map Prod.fst)
  rw [Encoder.Writer.appendAll_eq_none_iff, hencoder] at hfailure
  refine ⟨?_, hfailure⟩
  rw [Encoder.encode_takeWhile, ← hbytes]
  rfl

/-! ## What comes before the output -/

/-- Overrides succeed exactly if the assignments do, made one after the other. -/
theorem applyOverrides_eq_ok_iff {options found : Options} {assignments : List String} :
    applyOverrides options assignments = .ok found ↔
      assignments.foldlM Options.assign options = .ok found := by
  rw [applyOverrides]
  induction assignments generalizing options with
  | nil => simp [pure, Except.pure]
  | cons assignment assignments ih =>
    simp only [List.foldlM_cons, Except.bind_eq_ok_iff, Except.mapError_eq_ok_iff, ih]

/-- A definition is loaded exactly if its path leads to a file that has one in it. -/
theorem loadDefinition_eq_ok_iff {path : String} {definition : TableDefinition} :
    loadDefinition disk path = .ok definition ↔
      ∃ content, disk.find path = .ok (.file content) ∧
        TableDefinition.read? content = some definition := by
  rw [loadDefinition, Except.bind_eq_ok_iff]
  simp only [Except.mapError_eq_ok_iff]
  constructor
  · rintro ⟨entry, hentry, hdefinition⟩
    split at hdefinition
    · next content =>
      split at hdefinition
      · next hread =>
        cases hdefinition
        exact ⟨content, hentry, hread⟩
      · cases hdefinition
    · cases hdefinition
  · rintro ⟨content, hentry, hread⟩
    refine ⟨_, hentry, ?_⟩
    simp only [hread]
    rfl

/-- All columns are kept if none are listed, and else those that the names stand for. -/
theorem projection_eq_ok_iff {rowType : RowType} {projection : Option Projection} :
    job.projection rowType = .ok projection ↔
      job.columns = [] ∧ projection = none ∨
        job.columns ≠ [] ∧ ∃ selected,
          Projection.ofNames rowType job.columns = .ok selected ∧ projection = some selected := by
  rw [Transcoding.projection]
  by_cases hcolumns : job.columns = []
  · rw [hcolumns]
    simp [eq_comm]
  · rw [if_neg (by simpa using hcolumns), Except.mapError_eq_ok_iff, Except.map_eq_ok_iff]
    simp [hcolumns, eq_comm]

/-- Cells that cannot be read are passed over if the command or the options ask for it. -/
theorem policy_eq (job : Transcoding) (options : Options) :
    (if job.ignoreParseErrors then .lenient else Policy.ofOptions options) =
      if job.ignoreParseErrors || options.ignoreParseErrors then .lenient else .strict := by
  rw [Policy.ofOptions]
  cases job.ignoreParseErrors <;> simp

/-- The input is there: it is the standard input, or its path leads to it. -/
def Opens (job : Transcoding) (disk : Disk) (stdin source : Source) : Prop :=
  isStandardStream job.input = true ∧ source = stdin ∨
    isStandardStream job.input = false ∧
      ∃ entry, disk.find job.input = .ok entry ∧ source = entry.source

/-- The check of the input succeeds exactly if the input is there. -/
theorem checkInput_eq_ok_iff (stdin : Source) :
    job.checkInput disk = .ok () ↔ ∃ source, job.Opens disk stdin source := by
  rw [checkInput]
  cases hstream : isStandardStream job.input with
  | true => simp [Opens, hstream]
  | false => simp [Opens, hstream, Except.map_eq_ok_iff]

/-- The rows are read from the input that is there. -/
theorem Opens.source_eq {source : Source} (h : job.Opens disk stdin source) :
    job.source disk stdin = source := by
  rw [Transcoding.source]
  rcases h with ⟨hstream, rfl⟩ | ⟨hstream, entry, hentry, rfl⟩
  · rw [if_pos hstream]
  · rw [if_neg (by simp [hstream]), hentry]

/-- What there is once nothing before the output has failed: the definition has been loaded, the
overrides made and the columns resolved, and there are a decoder, an encoder and an input. -/
structure Prepared (job : Transcoding) (disk : Disk) (stdin : Source) where
  content : List UInt8
  definition : TableDefinition
  readOptions : Options
  writeOptions : Options
  projection : Option Projection
  decoder : Decoder
  encoder : Encoder
  source : Source
  find_eq : disk.find job.schema = .ok (.file content)
  read_eq : TableDefinition.read? content = some definition
  readOptions_eq : job.readOverrides.foldlM Options.assign definition.options = .ok readOptions
  writeOptions_eq : job.writeOverrides.foldlM Options.assign definition.options = .ok writeOptions
  projection_eq : job.columns = [] ∧ projection = none ∨
    job.columns ≠ [] ∧ ∃ selected,
      Projection.ofNames definition.fields job.columns = .ok selected ∧ projection = some selected
  decoder_eq : Decoder.compile definition.fields readOptions projection
    (if job.ignoreParseErrors || readOptions.ignoreParseErrors then .lenient else .strict) =
      .ok decoder
  encoder_eq : Encoder.compile decoder.rowType writeOptions = .ok encoder
  opens : job.Opens disk stdin source

/-- The definition that is there is loaded. -/
theorem Prepared.loadDefinition_eq (p : job.Prepared disk stdin) :
    loadDefinition disk job.schema = .ok p.definition :=
  loadDefinition_eq_ok_iff.2 ⟨p.content, p.find_eq, p.read_eq⟩

/-- The decoder and the encoder that are there are made. -/
theorem Prepared.prepare_eq (p : job.Prepared disk stdin) :
    job.prepare p.definition = .ok (p.decoder, p.encoder) := by
  simp only [prepare, policy_eq, Except.bind_eq_ok_iff, Except.mapError_eq_ok_iff,
    applyOverrides_eq_ok_iff, projection_eq_ok_iff]
  exact ⟨_, p.readOptions_eq, _, p.writeOptions_eq, _, p.projection_eq, _, p.decoder_eq, _,
    p.encoder_eq, rfl⟩

/-- The input that is there is opened. -/
theorem Prepared.checkInput_eq (p : job.Prepared disk stdin) : job.checkInput disk = .ok () :=
  (checkInput_eq_ok_iff stdin).2 ⟨p.source, p.opens⟩

/-- What has been made by the stages in front of the output is prepared. -/
theorem nonempty_prepared {definition : TableDefinition} {codecs : Decoder × Encoder}
    (hdefinition : loadDefinition disk job.schema = .ok definition)
    (hcodecs : job.prepare definition = .ok codecs) (hinput : job.checkInput disk = .ok ())
    (stdin : Source) : Nonempty (job.Prepared disk stdin) := by
  obtain ⟨content, hfind, hread⟩ := loadDefinition_eq_ok_iff.1 hdefinition
  obtain ⟨source, hopens⟩ := (checkInput_eq_ok_iff stdin).1 hinput
  simp only [prepare, policy_eq, Except.bind_eq_ok_iff, Except.mapError_eq_ok_iff,
    applyOverrides_eq_ok_iff, projection_eq_ok_iff] at hcodecs
  obtain ⟨readOptions, hreadOptions, writeOptions, hwriteOptions, projection, hprojection, decoder,
    hdecoder, encoder, hencoder, -⟩ := hcodecs
  exact ⟨⟨content, definition, readOptions, writeOptions, projection, decoder, encoder, source,
    hfind, hread, hreadOptions, hwriteOptions, hprojection, hdecoder, hencoder, hopens⟩⟩

/-- A stage that fails is all there is to a run. -/
theorem run_of_isEmpty (h : IsEmpty (job.Prepared disk stdin)) :
    ∃ failure, job.run disk stdin = .failed failure := by
  rw [run]
  split
  · next failure _ => exact ⟨failure, rfl⟩
  · next hopened =>
    simp only [Except.bind_eq_ok_iff] at hopened
    obtain ⟨definition, hdefinition, codecs, hcodecs, ⟨⟩, hinput, -⟩ := hopened
    exact absurd (nonempty_prepared hdefinition hcodecs hinput stdin) (not_nonempty_iff.2 h)

/-- An output that cannot be made is all there is to a run. -/
theorem Prepared.run_of_error (p : job.Prepared disk stdin) {failure : Failure}
    (h : job.openOutput disk = .error failure) : job.run disk stdin = .failed failure := by
  simp only [run, p.loadDefinition_eq, p.prepare_eq, p.checkInput_eq, h, bind, Except.bind]

/-- Once the output has been made, a run copies rows to it. -/
theorem Prepared.run_of_ok (p : job.Prepared disk stdin) {place : Option Place}
    (h : job.openOutput disk = .ok (place, after)) :
    job.run disk stdin =
      let (bytes, failure) := job.copyRows p.decoder p.encoder (job.source after stdin)
      match place with
      | some place => ⟨[], some (place, bytes), failure⟩
      | none => ⟨bytes, none, failure⟩ := by
  cases place <;>
    simp only [run, p.loadDefinition_eq, p.prepare_eq, p.checkInput_eq, h, bind, Except.bind, pure,
      Except.pure]

/-! ## The output -/

/-- The path of the output, unless that is the standard output. -/
def outputPath (job : Transcoding) : Option String :=
  job.output.filter fun path => ! isStandardStream path

/-- The input and the output are different files. -/
def Apart (job : Transcoding) (disk : Disk) : Prop :=
  isStandardStream job.input = false → ∀ path, job.outputPath = some path →
    disk.locate job.input ≠ disk.locate path

/-- What the output holds after a run, if it can be read. -/
def output? (job : Transcoding) (disk : Disk) (report : Report) : Option (List UInt8) :=
  match job.outputPath with
  | none => some report.stdout
  | some path =>
    match (report.disk disk).find path with
    | .ok (.file bytes) => some bytes
    | _ => none

/-- On the standard output there is no file to make. -/
theorem openOutput_of_none (h : job.outputPath = none) (disk : Disk) :
    job.openOutput disk = .ok (none, disk) := by
  rw [openOutput]
  split
  · rfl
  · next path hpath =>
    rw [outputPath, hpath, Option.filter_some] at h
    cases hstream : isStandardStream path <;> simp_all

/-- An output file is made at its path. -/
theorem openOutput_of_some {path : String} (h : job.outputPath = some path) (disk : Disk) :
    job.openOutput disk =
      ((disk.create path).map fun (place, disk) => (some place, disk)).mapError
        (.output path) := by
  rw [outputPath, Option.filter_eq_some_iff] at h
  obtain ⟨hpath, hstream⟩ := h
  rw [openOutput, hpath]
  exact if_neg (by simpa using hstream)

/-- An input of its own does not change when the output is made. -/
theorem Opens.source_create {source : Source} (h : job.Opens disk stdin source) {path : String}
    {place : Place} (hpath : job.outputPath = some path)
    (hcreate : disk.create path = .ok (place, after)) (hapart : job.Apart disk) :
    job.source after stdin = source := by
  rcases h with ⟨hstream, rfl⟩ | ⟨hstream, entry, hentry, rfl⟩
  · exact Opens.source_eq (Or.inl ⟨hstream, rfl⟩)
  · -- the input has been found, elsewhere than the output
    obtain ⟨found, hfound⟩ := Disk.exists_locate_of_find hentry
    obtain ⟨hplace, -, -, hafter⟩ := Disk.of_create hcreate
    have hne : found ≠ place := by
      rintro rfl
      exact hapart hstream path hpath (hfound.trans hplace.symm)
    refine Opens.source_eq (Or.inr ⟨hstream, entry, ?_, rfl⟩)
    rw [hafter, Disk.find_put hcreate hfound hne, hentry]

/-- **Transcoding is decoding and then encoding.** If the definition, an override, a column, the
decoder, the encoder or the input fails, the exit status is 1 and nothing is written anywhere, and
so it is if the output cannot be made. Otherwise the output, if it is not the input itself, is the
encoding of the rows that are decoded before the first error, up to the first that is refused; and
the exit status is 0 exactly if none is refused and there is no error. -/
theorem run_decodes_and_encodes (job : Transcoding) (disk : Disk) (stdin : Source) :
    (IsEmpty (job.Prepared disk stdin) →
      (job.run disk stdin).code = 1 ∧ (job.run disk stdin).disk disk = disk ∧
        (job.run disk stdin).stdout = []) ∧
    ∀ p : job.Prepared disk stdin,
      (∀ path fault, job.outputPath = some path → disk.create path = .error fault →
        (job.run disk stdin).code = 1 ∧ (job.run disk stdin).disk disk = disk ∧
          (job.run disk stdin).stdout = []) ∧
      ((∀ path, job.outputPath = some path → ∃ created, disk.create path = .ok created) →
        job.Apart disk →
        let items := (p.decoder.rows p.source).items.1.map Prod.fst
        ∃ bytes,
          p.encoder.encode ((leading items).takeWhile p.encoder.accepts) = .ok bytes ∧
          job.output? disk (job.run disk stdin) = some bytes ∧
          ((job.run disk stdin).code = 0 ↔
            (∀ row ∈ leading items, p.encoder.accepts row = true) ∧
              ∀ item ∈ items, item.isOk = true)) := by
  refine ⟨fun h => ?_, fun p => ⟨fun path fault hpath hcreate => ?_, fun hcreated hapart => ?_⟩⟩
  · obtain ⟨failure, hrun⟩ := run_of_isEmpty h
    rw [hrun]
    exact ⟨rfl, rfl, rfl⟩
  · have houtput : job.openOutput disk = .error (.output path fault) := by
      rw [openOutput_of_some hpath, hcreate]
      rfl
    rw [p.run_of_error houtput]
    exact ⟨rfl, rfl, rfl⟩
  · obtain ⟨hbytes, hfailure⟩ := copyRows_eq job p.decoder p.encoder p.source
    refine ⟨_, hbytes, ?_⟩
    rw [← hfailure]
    cases hpath : job.outputPath with
    | none =>
      -- the standard output
      rw [output?, hpath, p.run_of_ok (openOutput_of_none hpath disk), p.opens.source_eq]
      exact ⟨rfl, by simp [Report.code]⟩
    | some path =>
      obtain ⟨⟨place, after⟩, hcreate⟩ := hcreated path hpath
      have houtput : job.openOutput disk = .ok (some place, after) := by
        rw [openOutput_of_some hpath, hcreate]
        rfl
      rw [output?, hpath, p.run_of_ok houtput, p.opens.source_create hpath hcreate hapart]
      refine ⟨?_, by simp [Report.code]⟩
      simp only [Report.disk, Disk.find_put_of_create hcreate]

/-- The definition of a table of notes, as a text. -/
def noteYaml : String :=
  "fields: [{name: id, type: integer}, {name: note, type: string}]"

/-- The rows of the table, as a text. -/
def noteText : String :=
  "1,a\n2,\"b,c\"\n3,d\n"

/-- Two files with these texts. -/
def noteFiles : Disk :=
  ⟨[(["notes.yml"], .file (Utf8.encode noteYaml.toList)),
    (["notes.csv"], .file (Utf8.encode noteText.toList))]⟩

/-- Writes the texts of the notes without quotes. -/
def unquoteNotes : Transcoding where
  schema := "notes.yml"
  input := "notes.csv"
  output := some "plain.csv"
  readOverrides := []
  writeOverrides := ["quotingDisabled=true"]
  columns := ["note"]
  ignoreParseErrors := false

/-- The document that defines the notes. -/
def noteDocument : Document :=
  let field (name type : String) : Document.Node :=
    .mapping [(.scalar .plain "name", .scalar .plain name),
      (.scalar .plain "type", .scalar .plain type)]
  ⟨.mapping [(.scalar .plain "fields", .sequence [field "id" "integer", field "note" "string"])],
    []⟩

/-- The definition of the notes. -/
def noteDefinition : TableDefinition :=
  ⟨[⟨"id", .integer, true⟩, ⟨"note", .string, true⟩], Options.default⟩

/-- The first of the files holds this definition. -/
theorem read_noteFiles :
    noteFiles.find "notes.yml" = .ok (.file (Utf8.encode noteYaml.toList)) ∧
      TableDefinition.read? (Utf8.encode noteYaml.toList) = some noteDefinition := by
  have hdocument : Document.read? noteYaml.toList = some noteDocument := by cbv
  have hdefinition : Document.Visit.run TableDefinition.visit noteDocument =
      some noteDefinition := by rfl
  refine ⟨by rfl, ?_⟩
  simp only [TableDefinition.read?, Utf8.decode_encode, hdocument, Option.bind_some, hdefinition]

/-- The decoder and the encoder of the texts of the notes. -/
def preparedNotes : unquoteNotes.Prepared noteFiles (.ofBytes []) where
  content := Utf8.encode noteYaml.toList
  definition := noteDefinition
  readOptions := Options.default
  writeOptions := { Options.default with quotingDisabled := true }
  projection := some ⟨[[1]]⟩
  decoder :=
    let dialect : Dialect := ⟨Dialect.comma, some Dialect.doubleQuote, none, none, ";", none⟩
    ⟨dialect, 2, dialect, [⟨1, none, ⟨"note", .string, true⟩⟩], .strict⟩
  encoder := ⟨⟨Dialect.comma, none, none, none, ";", none⟩, [⟨"note", .string, true⟩]⟩
  source := .ofBytes (Utf8.encode noteText.toList)
  find_eq := read_noteFiles.1
  read_eq := read_noteFiles.2
  readOptions_eq := rfl
  writeOptions_eq := rfl
  projection_eq := Or.inr ⟨List.cons_ne_nil _ _, _, rfl, rfl⟩
  decoder_eq := rfl
  encoder_eq := rfl
  opens := Or.inr ⟨rfl, _, rfl, rfl⟩

/-- Of the texts of three notes the second cannot be written without quotes, and the third is not
reached. A column that is not there leaves the files as they are. -/
theorem run_decodes_and_encodes_notes :
    unquoteNotes.output? noteFiles (unquoteNotes.run noteFiles (.ofBytes [])) =
        some (Utf8.encode "a\n".toList) ∧
      (unquoteNotes.run noteFiles (.ofBytes [])).code ≠ 0 ∧
      ({ unquoteNotes with columns := ["gone"] }.run noteFiles (.ofBytes [])).code = 1 ∧
      ({ unquoteNotes with columns := ["gone"] }.run noteFiles (.ofBytes [])).disk noteFiles =
        noteFiles := by
  obtain ⟨-, hrun⟩ := run_decodes_and_encodes unquoteNotes noteFiles (.ofBytes [])
  have hcreated : ∀ path, unquoteNotes.outputPath = some path →
      ∃ created, noteFiles.create path = .ok created := by
    intro path hpath
    obtain rfl : "plain.csv" = path := Option.some.inj hpath
    exact ⟨(["plain.csv"], noteFiles.put ["plain.csv"] (.file [])), by rfl⟩
  have hapart : unquoteNotes.Apart noteFiles := by
    intro _ path hpath
    obtain rfl : "plain.csv" = path := Option.some.inj hpath
    decide
  obtain ⟨bytes, hbytes, houtput, hcode⟩ := (hrun preparedNotes).2 hcreated hapart
  have houtcomes : preparedNotes.decoder.outcomes preparedNotes.source =
      [.record 1 ["1", "a"], .record 2 ["2", "b,c"], .record 3 ["3", "d"]] := by decide +kernel
  have hitems : (preparedNotes.decoder.rows preparedNotes.source).items.1.map Prod.fst =
      [.ok [some (.string "a")], .ok [some (.string "b,c")], .ok [some (.string "d")]] := by
    rw [Decoder.items_rows, houtcomes]
    cbv
  rw [hitems] at hbytes hcode
  have hrefused : preparedNotes.encoder.accepts [some (.string "b,c")] = false := by cbv
  have hgone : IsEmpty ({ unquoteNotes with columns := ["gone"] }.Prepared noteFiles
      (.ofBytes [])) := by
    refine ⟨fun p => ?_⟩
    have hdefinition : p.definition = noteDefinition :=
      Except.ok.inj (p.loadDefinition_eq.symm.trans
        (loadDefinition_eq_ok_iff.2 ⟨_, read_noteFiles.1, read_noteFiles.2⟩))
    obtain ⟨hcolumns, -⟩ | ⟨-, selected, hselected, -⟩ := p.projection_eq
    · cases hcolumns
    · rw [hdefinition] at hselected
      cases hselected
  refine ⟨?_, ?_, ?_⟩
  · have hfirst : preparedNotes.encoder.encode ((leading [.ok [some (.string "a")],
        .ok [some (.string "b,c")], .ok [some (.string "d")]]).takeWhile
          preparedNotes.encoder.accepts) = .ok (Utf8.encode "a\n".toList) := by cbv
    rw [houtput, Except.ok.inj (hbytes.symm.trans hfirst)]
  · intro hzero
    have hall := (hcode.1 hzero).1 [some (.string "b,c")] (by simp [leading])
    rw [hrefused] at hall
    cases hall
  · obtain ⟨hcode, hdisk, -⟩ := (run_decodes_and_encodes _ noteFiles (.ofBytes [])).1 hgone
    exact ⟨hcode, hdisk⟩

end Transcoding

end TypedCsv
