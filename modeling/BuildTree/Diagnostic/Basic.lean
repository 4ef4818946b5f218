import BuildTree.Emits
import BuildTree.Line
import BuildTree.Text.Digit
import BuildTree.Text.Cut

/-!
# Compiler diagnostics

A diagnostic is a message at a place in a source file.  Raised as an event it gets the
first line of its text as title.
-/

namespace BuildTree

open Text

structure Diagnostic where
  position : Position
  message : String
  deriving DecidableEq, Repr

/-- Lines and columns are kept below this bound, 2^32. -/
def positionBound : Nat := 0x100000000

namespace Diagnostic

/-- A line or column number: digits beyond ASCII and large numbers give none. -/
def coordinate? (digits : List Char) : Option Nat := below? positionBound digits

/-- The first line of a text, trimmed. -/
def title (text : String) : String :=
  String.ofList (trim ((lines text.toList).headD []))

/-- The event for a diagnostic text. -/
def toEvent (parent : EventId) (severity : Severity) (text : String)
    (position : Option Position) : Event :=
  .message parent severity (title text) text position

def raise (parent : EventId) (severity : Severity) (d : Diagnostic) : Emits Unit :=
  .event (toEvent parent severity d.message (some d.position))

end Diagnostic

/-- The severity of a line's level; lines without level count as information. -/
def Severity.ofLevel : Option Level → Severity
  | some .error => .error
  | some .warning => .warning
  | some .info => .info
  | none => .info

end BuildTree
