import TypedCsv.Command.Run

/-! # The program

Reads the files that a command names, runs it, and writes what its report says. Statuses: 0, 1
for a failure, 2 for words that make no command. -/

namespace TypedCsv.Program

/-- Why an operation of the system has failed. -/
def fault : IO.Error → IoFault
  | .noFileOrDirectory _ _ _ => .missing
  | .alreadyExists _ code details | .invalidArgument _ code details
  | .permissionDenied _ code details | .resourceExhausted _ code details
  | .inappropriateType _ code details | .noSuchThing _ code details
  | .interrupted _ code details
  | .otherError code details | .resourceBusy code details | .resourceVanished code details
  | .unsupportedOperation code details | .hardwareFault code details
  | .unsatisfiedConstraints code details | .illegalOperation code details
  | .protocolError code details | .timeExpired code details =>
    ⟨s!"{details} (os error {code})"⟩
  | .unexpectedEof => ⟨"unexpected end of file"⟩
  | .userError details => ⟨details⟩

/-- The path of a place. -/
def pathOf (place : Place) : String :=
  match place with
  | "/" :: names => "/" ++ "/".intercalate names
  | names => "/".intercalate names

/-- Looks at a place and adds what is there to a disk. -/
def probe (disk : Disk) (place : Place) : IO Disk := do
  match ← (IO.FS.readBinFile (pathOf place)).toBaseIO with
  | .ok bytes => return disk.put place (.file bytes.toList)
  | .error error =>
    let fault := fault error
    if fault = .missing ∨ fault = .notDirectory then return disk
    else if fault = .isDirectory then return disk.put place .directory
    else return disk.put place (.barred fault)

/-- Looks at a path and at the directories on the way to it. -/
def probePath (disk : Disk) (path : String) : IO Disk := do
  let mut disk := disk
  let mut place : Place := []
  for name in Place.names path do
    match disk.enter place name with
    | .ok next =>
      place := next
      if (disk.entryAt place).isNone then disk ← probe disk place
    | .error _ => return disk
  return disk

/-- The paths that a command names. -/
def paths : Command → List String
  | .estimate files => files
  | .transcode job => job.schema :: job.input :: job.output.toList
  | _ => []

/-- Whether a command reads the standard input. -/
def readsInput : Command → Bool
  | .transcode job => Transcoding.isStandardStream job.input
  | _ => false

/-- Reads a stream to its end. -/
partial def readAll (stream : IO.FS.Stream) (bytes : ByteArray) : IO ByteArray := do
  let piece ← stream.read 65536
  if piece.isEmpty then return bytes else readAll stream (bytes ++ piece)

/-- Runs a command on the files around it. -/
def execute (command : Command) : IO UInt32 := do
  let disk ← (paths command).foldlM probePath Disk.empty
  let input ← if readsInput command then readAll (← IO.getStdin) ByteArray.empty
    else pure ByteArray.empty
  let report := command.run disk (Source.ofBytes input.toList)
  if let some (place, bytes) := report.written then
    IO.FS.writeBinFile (pathOf place) ⟨bytes.toArray⟩
  let stdout ← IO.getStdout
  stdout.write ⟨report.stdout.toArray⟩
  stdout.flush
  if let some failure := report.failure then IO.eprintln failure.message
  return UInt32.ofNat report.code

end TypedCsv.Program

/-- Runs the command of the given words. -/
def main (words : List String) : IO UInt32 :=
  match TypedCsv.Command.parse words with
  | some command => TypedCsv.Program.execute command
  | none => do
    IO.eprintln TypedCsv.Command.usage
    return 2
