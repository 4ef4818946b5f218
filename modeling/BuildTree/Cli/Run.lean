import BuildTree.Cli.Usage
import BuildTree.Event.Json
import BuildTree.Line.Bytes
import BuildTree.Session
import BuildTree.Settings.Location
import BuildTree.View.Summary
import BuildTree.View.Tree

/-!
# Running a command line

A command line is run against a host, which answers for the files, the input and the
clock.  The answer is a report: what is printed, on which channel and in which order, and
the exit code.

    0   the build was parsed, and did not fail
    1   the build failed, or the settings or the log could not be read
    2   the command line was wrong
-/

namespace BuildTree.Cli

open Execution

/-! ## Reports -/

/-- Where a text is printed. -/
inductive Channel where
  | output | errors | log
  deriving DecidableEq, Repr

structure Report where
  printed : List (Channel × String) := []
  code : Nat := 0
  /-- The directory that the log is written to, in place of the errors. -/
  logDirectory : Option String := none
  deriving DecidableEq, Repr

namespace Report

/-- Everything that is printed on one channel. -/
def text (r : Report) (c : Channel) : String :=
  String.join ((r.printed.filter (·.1 == c)).map (·.2))

/-- A report whose texts come after some others. -/
def after (r : Report) (first : List (Channel × String)) : Report :=
  { r with printed := first ++ r.printed }

end Report

/-! ## Hosts -/

/-- What the program runs on. -/
structure Host (m : Type → Type) where
  /-- The files, once the directory for the log is made, if there is to be one. -/
  files : Option String → m (FileAccess m)
  /-- The working directory. -/
  cwd : String
  /-- The settings file that the environment names. -/
  settingsPath : Option String
  /-- The bytes on standard input. -/
  input : m (List UInt8)
  /-- The answer of the clock when it is read for the `k`-th time, counted from zero. -/
  clock : Nat → Nat
  /-- Whether texts are painted. -/
  color : Bool
  /-- Which notes the environment asks for. -/
  logFilter : Option String := none

/-- The notes that are logged: those that were asked for, or else warnings, and more when the
program is verbose. -/
def logLevel (filter : Option String) (v : Verbosity) : Option NoteLevel :=
  match filter with
  | some "off" => none
  | some "error" => none
  | some "warn" => some .warn
  | some "info" => some .warn
  | some "debug" => some .debug
  | some "trace" => some .trace
  | _ => if v = .verbose then some .debug else some .warn

/-- Whether texts are painted, given the variables of the environment that force colours, switch
them off and switch them on, and whether the output is a terminal. -/
def wantsColor (force off on : Option String) (terminal : Bool) : Bool :=
  if (force.map (· != "0")).getD false then true
  else if (off.map (· != "0")).getD false then false
  else terminal && (on.map (· != "0")).getD true

/-! ## Parsing a log -/

/-- The build log that is read, if it is not standard input. -/
def ParseArguments.path? (p : ParseArguments) : Option String :=
  p.file.filter (Path.trimmed · ≠ "-")

/-- The bytes of the log, unless it cannot be opened. -/
def readLog {m : Type → Type} [Monad m] (h : Host m) (files : FileAccess m) (p : ParseArguments) :
    m (Option (List UInt8)) :=
  match p.path? with
  | some path => files.readBytes path
  | none => some <$> h.input

def noteLine (n : Note) : String :=
  String.join ([n.level.text, " ", n.message] ++ n.fields.map fun (k, v) => " " ++ k ++ "=" ++ v)
    ++ "\n"

/-- The lines that show the events. -/
def eventLines (p : ParseArguments) (color : Bool) (es : List Event) : List String :=
  if p.json then es.map (·.json ++ "\n")
  else
    let t : TreeView := { showOutput := !p.noOutput, color }
    (t.renderAll es).1.filterMap (·.map (· ++ "\n"))

/-- The projects that were announced and never started, for the curious. -/
def pendingLines (color : Bool) (pending : List String) : List String :=
  if pending.isEmpty then []
  else [Paint.dimmed.apply color "DEBUG" ++ " " ++ toString pending.length
    ++ " project(s) never started: " ++ ", ".intercalate pending ++ "\n"]

/-- How many errors and warnings there were, if any. -/
def countLines (color : Bool) (s : Summary) : List String :=
  if s.errors + s.warnings = 0 then []
  else [Paint.red.apply color (toString s.errors) ++ " error(s), "
    ++ Paint.yellow.apply color (toString s.warnings) ++ " warning(s)\n"]

/-- A failure of the whole run. -/
def failed (color : Bool) (message : String) : Report where
  printed := [(.errors, "\n" ++ Paint.boldRed.apply color "FAILED" ++ " " ++ message ++ "\n")]
  code := 1

/-- The end of a report: what the verdict on the build is. -/
def verdictReport (p : ParseArguments) (v : Verbosity) (color : Bool) :
    Option BuildFailure → Report
  | some f => failed color f.message
  | none =>
    if v = .quiet || p.json then {}
    else { printed := [(.output, "\n" ++ Paint.boldGreen.apply color "SUCCESS" ++ "\n")] }

/-- Parses a build log and reports what is in it. -/
def parseLog (settings : Settings) (p : ParseArguments) (v : Verbosity) (color : Bool)
    (level : Option NoteLevel) (clock : Nat → Nat) (bytes : List UInt8) : Report :=
  let x := (Session.start settings (.fresh 1)).run (.ofSettings settings clock)
    (Line.ofBytes bytes)
  let summary := Summary.ofEvents x.events
  let notes := x.notes.filter fun n => level.any fun l => n.level.rank ≤ l.rank
  let shown := eventLines p color x.events
    ++ (if v = .verbose && !p.json then pendingLines color x.value.context.pending else [])
    ++ (if v ≠ .quiet && !p.json then countLines color summary else [])
  (verdictReport p v color (summary.verdict p.strict)).after
    (notes.map (fun n => (.log, noteLine n)) ++ shown.map (.output, ·))

/-! ## The program -/

/-- What is said about a command line that is not run. -/
def usageReport (e : UsageError) : Report :=
  match e with
  | .help => { printed := [(.output, usage)] }
  | .version => { printed := [(.output, version)] }
  | .nothingGiven => { printed := [(.errors, usage)], code := 2 }
  | e => { printed := [(.errors, "error: " ++ e.message ++ "\n\n" ++ usage)], code := 2 }

/-- What a verbose run says about its settings. -/
def sourceLine (color : Bool) (s : SettingsSource) : String :=
  Paint.dimmed.apply color "DEBUG" ++ " config from " ++ s.path?.getD "built-in defaults" ++ "\n"

variable {m : Type → Type} [Monad m]

def runParse (h : Host m) (a : Arguments) (p : ParseArguments) : m Report := do
  let files ← h.files a.logFile
  match ← Settings.load files a.config h.settingsPath h.cwd with
  | .error e =>
    return {
      printed := [(.errors, Paint.boldRed.apply h.color "ERROR" ++ " Failed to load config: "
        ++ e.message ++ "\n")]
      code := 1 }
  | .ok (settings, source) =>
    let first :=
      if a.verbosity = .verbose then [(Channel.errors, sourceLine h.color source)] else []
    match ← readLog h files p with
    | none => return (failed h.color ("Failed to open build log: " ++ p.file.getD "")).after first
    | some bytes =>
      return (parseLog settings p a.verbosity h.color (logLevel h.logFilter a.verbosity) h.clock
        bytes).after first

/-- Runs a command line.  The scripts that complete command lines in a shell are empty. -/
def run (h : Host m) (args : List String) : m Report :=
  match Arguments.parse args with
  | .error e => return usageReport e
  | .ok a =>
    match a.command with
    | .completion _ => return {}
    | .parse p => do return { (← runParse h a p) with logDirectory := a.logFile }

end BuildTree.Cli
