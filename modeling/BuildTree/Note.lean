import BuildTree.Event
import BuildTree.Spy.Message

/-!
# Notes

What the parser tells whoever runs it, beside the events: lines it dropped, entries it
had to close, and the path of each line.  A note is a cause; its severity, wording and
fields are functions of the cause.
-/

namespace BuildTree

open Spy

/-- Severities of notes, the most severe first. -/
inductive NoteLevel where
  | warn | debug | trace
  deriving DecidableEq, Repr

namespace NoteLevel

def rank : NoteLevel → Nat
  | .warn => 0
  | .debug => 1
  | .trace => 2

def text : NoteLevel → String
  | .warn => "WARN"
  | .debug => "DEBUG"
  | .trace => "TRACE"

end NoteLevel

inductive Note where
  | spyEvent (thread : Nat) (kind : Kind)
  /-- A matcher consumed the line. -/
  | lineConsumed (line : String)
  | malformedLine (error : DecodeError) (line : String)
  | sessionEnded
  /-- An entry was still open at the end of the output. -/
  | entryLeftOpen (name : String) (id : EventId)
  /-- An error line came after the end of the session. -/
  | lateError (line : String)
  /-- A download was still open at the end of the output. -/
  | downloadUnresolved (coord : String)
  /-- A download was still open when the node around it closed. -/
  | downloadAbandoned (coord : String)
  | missingParameter (thread : Nat) (kind : Kind) (key : String)
  /-- A message ends an execution that is not running. -/
  | notRunning (thread : Nat) (kind : Kind) (name : String)
  deriving DecidableEq, Repr

namespace Note

def level : Note → NoteLevel
  | .spyEvent .. | .lineConsumed _ => .trace
  | .missingParameter .. | .notRunning .. => .warn
  | _ => .debug

def message : Note → String
  | .spyEvent .. => "spy event"
  | .lineConsumed _ => "line consumed by matcher"
  | .malformedLine .. => "dropping malformed spy line"
  | .sessionEnded => "session ended"
  | .entryLeftOpen .. => "finishing entry left open"
  | .lateError _ => "error reported after the session ended"
  | .downloadUnresolved _ => "download never resolved"
  | .downloadAbandoned _ => "download abandoned with its aggregator"
  | .missingParameter .. => "spy event is missing a parameter"
  | .notRunning .. => "spy event refers to an execution that is not running"

/-- The named details of a note, as texts. -/
def fields : Note → List (String × String)
  | .spyEvent t k => [("thread", toString t), ("kind", k.name)]
  | .lineConsumed l => [("line", l)]
  | .malformedLine e l => [("error", e.message), ("line", l)]
  | .sessionEnded => []
  | .entryLeftOpen n i => [("name", n), ("id", i.text)]
  | .lateError l => [("line", l)]
  | .downloadUnresolved c => [("coord", c)]
  | .downloadAbandoned c => [("coord", c)]
  | .missingParameter t k key => [("thread", toString t), ("kind", k.name), ("key", key)]
  | .notRunning t k n => [("thread", toString t), ("kind", k.name), ("name", n)]

end Note

end BuildTree
