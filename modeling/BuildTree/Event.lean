/-!
# Build events

The events that a parsed build reports: entries start and finish, output is shown, and
diagnostics are raised.  An event names its node of the tree by an id; the text of an
id is what other programs see.

    text (session n)   = session-n
    text (entry s q)   = session-s/q
    text (named t)     = t
-/

namespace BuildTree

/-- The name of one node of the event tree. -/
inductive EventId where
  /-- The root of one build session. -/
  | session (number : Nat)
  /-- A project, task or group inside a session, numbered in order of creation. -/
  | entry (session seq : Nat)
  /-- A node named by a text, such as the download of one artifact. -/
  | named (text : String)
  deriving DecidableEq, Repr

namespace EventId

/-- The id of the download of one artifact. -/
def download (coord : String) : EventId := .named ("download" ++ coord)

def text : EventId → String
  | .session n => s!"session-{n}"
  | .entry s q => s!"session-{s}/{q}"
  | .named t => t

end EventId

/-- How an entry ended. -/
inductive Outcome where
  | success
  | failure (message : String)
  | skipped
  /-- The output, or the execution around the entry, ended before the entry reported. -/
  | unknown
  deriving DecidableEq, Repr

namespace Outcome

def status : Outcome → String
  | .success => "success"
  | .failure _ => "failure"
  | .skipped => "skipped"
  | .unknown => "unknown"

def isFailure : Outcome → Bool
  | .failure _ => true
  | _ => false

end Outcome

/-- How serious a diagnostic is. -/
inductive Severity where
  | info | warning | error
  deriving DecidableEq, Repr

namespace Severity

def text : Severity → String
  | .info => "info"
  | .warning => "warning"
  | .error => "error"

end Severity

/-- A place in a source file.  A line or column that is no 32-bit number is left out. -/
structure Position where
  path : String
  line : Option Nat
  column : Option Nat
  deriving DecidableEq, Repr

namespace Position

/-- `path:line:column`, without the parts that are unknown; a column needs a line. -/
def text (p : Position) : String :=
  match p.line, p.column with
  | some l, some c => s!"{p.path}:{l}:{c}"
  | some l, none => s!"{p.path}:{l}"
  | none, _ => p.path

end Position

/-- What happened in a build.  Times are in milliseconds. -/
inductive Event where
  /-- An entry began. -/
  | started (id : EventId) (parent : Option EventId) (time : Nat) (name : String)
  /-- An entry ended.  Only the end of the session has no parent. -/
  | finished (id : EventId) (parent : Option EventId) (time : Nat) (name : String)
      (outcome : Outcome)
  /-- An output line, for one open entry. -/
  | output (parent : EventId) (text : String)
  /-- A diagnostic that a matcher recognised. -/
  | message (parent : EventId) (severity : Severity) (title text : String)
      (position : Option Position)
  deriving DecidableEq, Repr

namespace Event

/-- The id of an entry that starts or finishes. -/
def id? : Event → Option EventId
  | .started id .. => some id
  | .finished id .. => some id
  | _ => none

def isLifecycle (e : Event) : Bool := e.id?.isSome

end Event

end BuildTree
