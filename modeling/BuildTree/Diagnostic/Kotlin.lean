import BuildTree.Diagnostic.Basic
import BuildTree.Text.Shortest

/-!
# Diagnostics of the Kotlin compiler

    <e|w|i>: <path>: (<line>, <column>): <message>
    <e|w|i>: <path>:<line>:<column> <message>

The path ends in `.kt` or `.kts`.  The first form is tried before the second; in each, a
leading `file://` is dropped if the line still reads without it, and the shortest path wins.
-/

namespace BuildTree.Kotlin

open Text

def scheme : List Char := "file://".toList

def severity? : Char → Option Severity
  | 'e' => some .error
  | 'w' => some .warning
  | 'i' => some .info
  | _ => none

/-- What a reading of the line after its path gives: the rest of the path, line, column and
message. -/
structure Place where
  extension : List Char
  line : List Char
  column : List Char
  message : List Char

/-- The end of the path: `.kt`, or `.kts`. -/
def extension? (s : List Char) : Option (List Char × List Char) := do
  let s ← after? ['.', 'k', 't'] s
  match after? ['s'] s with
  | some s => some (['.', 'k', 't', 's'], s)
  | none => some (['.', 'k', 't'], s)

/-- Place and message with the given marks before the line, before the column and before the
message. -/
def place? (beforeLine beforeColumn beforeMessage : List Char) (s : List Char) : Option Place := do
  let (extension, s) ← extension? s
  let s ← after? beforeLine s
  let (line, s) ← digits? s
  let s ← after? beforeColumn s
  let (column, s) ← digits? s
  let s ← after? beforeMessage s
  let message ← oneLine? s
  some ⟨extension, line, column, message⟩

/-- The form with the place in parentheses. -/
def classic? : List Char → Option Place := place? ": (".toList ", ".toList "): ".toList

/-- The form with the place after colons. -/
def plain? : List Char → Option Place := place? ":".toList ":".toList " ".toList

/-- Path and place in one of the two forms, with the scheme dropped where that reads. -/
def located? (form : List Char → Option Place) (s : List Char) : Option (List Char × Place) :=
  ((after? scheme s).bind (shortestBefore form)).or (shortestBefore form s)

/-- A diagnostic in a line, blanks around it aside. -/
def parse? (text : String) : Option (Severity × Diagnostic) :=
  match trim text.toList with
  | k :: ':' :: ' ' :: s => do
    let severity ← severity? k
    let (path, p) ← (located? classic? s).or (located? plain? s)
    some (severity,
      ⟨⟨String.ofList (path ++ p.extension), Diagnostic.coordinate? p.line,
        Diagnostic.coordinate? p.column⟩, String.ofList p.message⟩)
  | _ => none

/-- Reports a line that is a diagnostic.  Lines of every level are of interest, as the compiler's
output does not always pass through the build's logger. -/
def tryConsume (parent : EventId) (line : Line) : Emits Bool :=
  match parse? line.text with
  | none => pure false
  | some (severity, d) => do
    d.raise parent severity
    pure true

end BuildTree.Kotlin
