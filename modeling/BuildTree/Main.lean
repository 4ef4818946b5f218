import BuildTree.Cli.Run
import Std.Time.DateTime.Timestamp

/-!
# The program

Runs the command line on the machine itself: its files, its environment, its clock.
-/

namespace BuildTree.Main

/-- The answer of an action, unless it fails. -/
def attempt {α : Type} (x : IO α) : IO (Option α) := do
  try return some (← x) catch _ => return none

/-- Everything that is left in a stream, up to the first failure. -/
partial def drain (read : IO ByteArray) (got : ByteArray) : IO ByteArray := do
  match ← attempt read with
  | none => return got
  | some chunk => if chunk.isEmpty then return got else drain read (got ++ chunk)

/-- The files of the machine.  A path leads to a file if it can be opened and read. -/
def files : FileAccess IO where
  isFile path := do
    let got ← attempt do
      let handle ← IO.FS.Handle.mk path .read
      handle.read 1
    return got.isSome
  readText path := attempt (IO.FS.readFile path)
  readBytes path := do
    match ← attempt (IO.FS.Handle.mk path .read) with
    | none => return none
    | some handle => return some (← drain (handle.read 65536) .empty).toList

def host : IO (Cli.Host IO) := do
  let stdin ← IO.getStdin
  let terminal ← (← IO.getStdout).isTty
  let now := (← Std.Time.Timestamp.now).toMillisecondsSinceUnixEpoch.val.toNat
  return {
    files := fun logDirectory => do
      logDirectory.forM fun dir => IO.FS.createDirAll dir
      return files
    cwd := toString (← IO.currentDir)
    settingsPath := ← IO.getEnv "BUILDSPY_CONFIG"
    input := do return (← drain (stdin.read 65536) .empty).toList
    clock := fun _ => now
    color := Cli.wantsColor (← IO.getEnv "CLICOLOR_FORCE") (← IO.getEnv "NO_COLOR")
      (← IO.getEnv "CLICOLOR") terminal
    logFilter := (← IO.getEnv "BUILDSPY_LOG").or (← IO.getEnv "RUST_LOG") }

/-- Where the log goes: a file in the directory that was asked for, or the errors. -/
def logStream (directory : Option String) : IO IO.FS.Stream := do
  match directory with
  | none => IO.getStderr
  | some dir => return .ofHandle (← IO.FS.Handle.mk (Path.join dir "buildspy.log") .append)

def print (r : Cli.Report) : IO Unit := do
  let stdout ← IO.getStdout
  let stderr ← IO.getStderr
  let log ← logStream r.logDirectory
  for (channel, text) in r.printed do
    match channel with
    | .output => stdout.putStr text
    | .errors => stderr.putStr text
    | .log => log.putStr text
  stdout.flush

end BuildTree.Main

def main (args : List String) : IO UInt32 := do
  let report ← BuildTree.Cli.run (← BuildTree.Main.host) args
  BuildTree.Main.print report
  return report.code.toUInt32
