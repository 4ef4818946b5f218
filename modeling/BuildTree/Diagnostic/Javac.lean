import BuildTree.Diagnostic.Continuation
import BuildTree.Text.Shortest

/-!
# Diagnostics of the Java compiler

    <path>.java:[<line>,<column>] <message>
    <path>.java:[<line>] <message>

The path is the shortest non-empty text after which the rest reads; the message is one
line, without the blanks in front.  Running out of memory is reported by its own mark.

A `Tally` counts what was reported, for a summary at the end of the session.
-/

namespace BuildTree.Javac

open Text

/-! ## Recognising -/

def extension : List Char := ".java".toList

/-- What follows the path: the place in brackets, then the message. -/
def tail? (s : List Char) : Option (Option Nat × Option Nat × List Char) := do
  let s ← after? (extension ++ [':', '[']) s
  let (line, s) ← digits? s
  let (column, s) ←
    match after? [','] s with
    | none => some (none, s)
    | some s => (digits? s).map fun (column, s) => (some column, s)
  let s ← after? [']'] s
  let message ← oneLine? (trimStart s)
  some (Diagnostic.coordinate? line, column.bind Diagnostic.coordinate?, message)

/-- A diagnostic in a line, blanks around it aside. -/
def parse? (text : String) : Option Diagnostic :=
  (shortestBefore tail? (trim text.toList)).map fun (path, line, column, message) =>
    ⟨⟨String.ofList (path ++ extension), line, column⟩, String.ofList message⟩

def memoryMark : List Char := "java.lang.OutOfMemoryError".toList

/-- Whether a line says that the compiler ran out of memory: the mark ends the line, or a colon
follows it. -/
def isOutOfMemory (text : String) : Bool :=
  let s := trimEnd text.toList
  memoryMark.isSuffixOf s || holds (memoryMark ++ [':']) s

/-! ## Reporting -/

/-- How many errors and warnings were reported. -/
structure Tally where
  errors : Nat := 0
  warnings : Nat := 0
  deriving DecidableEq, Repr

namespace Tally

def count (t : Tally) : Severity → Tally
  | .error => { t with errors := t.errors + 1 }
  | .warning => { t with warnings := t.warnings + 1 }
  | .info => t

def isEmpty (t : Tally) : Bool := t.errors == 0 && t.warnings == 0

def summary (t : Tally) : String :=
  s!"{t.errors} errors, {t.warnings} warnings reported by javac"

end Tally

/-- Errors and warnings are of interest. -/
def supports : Option Level → Bool
  | some .error => true
  | some .warning => true
  | _ => false

/-- Reports a line that is a diagnostic, with the lines that continue it. -/
def tryConsume (tally : Tally) (parent : EventId) (line : Line) (cursor : Cursor) :
    Emits (Bool × Tally × Cursor) :=
  if line.level = some .error ∧ isOutOfMemory line.text then do
    .event (.message parent .error "Out of memory" line.trimmed none)
    pure (true, tally.count .error, cursor)
  else
    match parse? line.text with
    | none => pure (false, tally, cursor)
    | some d => do
      let (texts, cursor) := cursor.readContinuation line.level
      let severity := Severity.ofLevel line.level
      (d.extend texts).raise parent severity
      pure (true, tally.count severity, cursor)

theorem size_tryConsume_le (tally : Tally) (parent : EventId) (line : Line) (cursor : Cursor) :
    (tryConsume tally parent line cursor).value.2.2.size ≤ cursor.size := by
  unfold tryConsume
  split
  · exact Nat.le_refl _
  · split
    · exact Nat.le_refl _
    · exact Cursor.size_readContinuation_le line.level cursor

/-- The summary of what was reported, if anything was; counting starts again after it. -/
def finalize (tally : Tally) (session : EventId) : Emits Tally :=
  if tally.isEmpty then pure tally
  else do
    .event (Diagnostic.toEvent session .info tally.summary none)
    pure {}

end BuildTree.Javac
