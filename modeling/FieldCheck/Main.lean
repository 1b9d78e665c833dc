/-
FieldCheck.Main — the program.

The program answers requests line by line. This module only moves lines and
files: what the answers are is decided by `Server` and `CommandLine`. Files
are taken from the disk when the start of the server misses them; a file
that is JSON is a document. Ages are differences of times, so any clock that
does not go back serves. The program sends nothing over a network.
-/
import FieldCheck.CommandLine

namespace FieldCheck.Program

/-! ## The world of the program -/

/-- The folder under which the bundled files are found. -/
def bundleFolder : String := "/bundle"

/-- The world when the program starts in a folder. -/
def startingWorld (work : String) (clock : Double) : World where
  folders := ⟨work, bundleFolder, FilePath.join work ".cache"⟩
  files := Bundle.install bundleFolder Files.empty
  web := []
  clock := clock
  calls := []
  log := []

/-- What a file holds: a document if it is JSON, and else its bytes. -/
def contentOf (bytes : ByteArray) : Content :=
  match Text.Utf8.decode bytes with
  | .error _ => .bytes bytes
  | .ok cs =>
    match Json.read cs with
    | .ok j => .document j.toValue
    | .error _ => .bytes bytes

/-- The world with one more file, unless a file is known at its place already. -/
def withFile (w : World) (path : String) (bytes : ByteArray) : Option World :=
  let place := FilePath.collapsed (FilePath.steps (FilePath.join w.folders.work path))
  match w.files.entryAt place with
  | some _ => none
  | none => some { w with files := w.files.putFile place (contentOf bytes) w.clock }

/-! ## Moving lines and files -/

/-- The time, in seconds. -/
def now : IO Double := do
  let ms ← IO.monoMsNow
  return .ofDecimal false ms (-3)

/-- Writes lines. -/
def writeLines (stream : IO.FS.Stream) (ls : List String) : IO Unit := do
  for l in ls do
    stream.putStrLn l
  stream.flush

/-- The bytes of a file on the disk, if it can be read. -/
def diskBytes (path : String) : IO (Option ByteArray) := do
  try
    return some (← IO.FS.readBinFile path)
  catch _ => return none

/-- Starts a server; a missing file is looked for on the disk. -/
partial def startServer (config : Option String) (w : World) :
    IO (Except Fault Server × World) := do
  match Server.start config w with
  | (.error (.noSuchFile path), w') =>
    match (← diskBytes path).bind (withFile w path) with
    | none => return (.error (.noSuchFile path), w')
    | some known => startServer config known
  | started => return started

/-- What arrives at the input. -/
def nextArrival (input : IO.FS.Stream) : IO Arrival := do
  try
    return .line (← input.getLine)
  catch _ => return .failure

/-- Does an action on the server, and writes what it logs. -/
def perform {α : Type} (level : Level) (x : Action Server α) (server : Server) (w : World) :
    IO (Except Fault α × Server × World) := do
  let (r, server, w) := x server { w with clock := ← now, log := [] }
  writeLines (← IO.getStderr) (CommandLine.logLines level w.log)
  return (r, server, w)

/-- Answers lines until a turn ends the server. -/
partial def answerLines (level : Level) (server : Server) (w : World) : IO Unit := do
  let arrival ← nextArrival (← IO.getStdin)
  let (turn, server, w) ← perform level (Server.take arrival) server w
  match turn with
  | .ok (.answered line) =>
    writeLines (← IO.getStdout) [line]
    answerLines level server w
  | .ok .skipped => answerLines level server w
  | _ =>
    let _ ← perform level Server.close server w
    return

/-- Runs the server with the choices of the command line. -/
def serve (choices : CommandLine.Choices) : IO UInt32 := do
  let work := (← IO.currentDir).toString
  let (started, w) ← startServer choices.config (startingWorld work (← now))
  match started with
  | .error f =>
    writeLines (← IO.getStderr) [f.message]
    return 1
  | .ok server =>
    let level := choices.level server.service.catalogs.settings
    let (_, server, w) ← perform level Server.markRunning server w
    answerLines level server w
    return 0

end FieldCheck.Program

/-- The program with its arguments. -/
def main (arguments : List String) : IO UInt32 := do
  match FieldCheck.CommandLine.Invocation.ofArguments arguments with
  | .help =>
    FieldCheck.Program.writeLines (← IO.getStdout) FieldCheck.CommandLine.helpLines
    return 0
  | .misuse m =>
    FieldCheck.Program.writeLines (← IO.getStderr) (FieldCheck.CommandLine.misuseLines m)
    return FieldCheck.CommandLine.misuseCode
  | .serve choices => FieldCheck.Program.serve choices
