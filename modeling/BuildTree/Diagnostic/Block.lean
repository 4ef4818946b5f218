import BuildTree.Diagnostic.Javac
import BuildTree.Spy.Kind

/-!
# Compilation failures as one block

When a compiler fails, the error of the goal and of its project is a whole block of text.
Each diagnostic line of the block becomes an error of its own, with the indented lines
below it folded in; lines before the first diagnostic are skipped.
-/

namespace BuildTree.Block

open Text

/-- Takes the next line of a block into the diagnostics found so far, newest first. -/
def addLine (found : List Diagnostic) (line : List Char) : List Diagnostic :=
  match Javac.parse? (String.ofList line) with
  | some d => d :: found
  | none =>
    if startsBlank line && !allBlank line then
      match found with
      | [] => []
      | d :: ds => d.extend [String.ofList (trim line)] :: ds
    else found

/-- The diagnostics of a block, in order. -/
def diagnostics (error : String) : List Diagnostic :=
  ((lines error.toList).foldl addLine []).reverse

/-- Only the failure of a goal or a project carries such a block. -/
def supports (kind : Spy.Kind) : Bool := kind == .mojoFailed || kind == .projectFailed

/-- Reports every diagnostic of a block, if there is any. -/
def tryConsume (parent : EventId) (error : String) : Emits Bool :=
  ⟨!(diagnostics error).isEmpty,
    (diagnostics error).map fun d => Diagnostic.toEvent parent .error d.message (some d.position),
    []⟩

end BuildTree.Block
