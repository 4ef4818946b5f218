import BuildTree.Cursor
import BuildTree.Diagnostic.Basic

/-!
# Continuation lines

Indented lines of the same level belong to the diagnostic above them.  They are read
through the cursor; the first line that does not continue is given back.

    readContinuation level c = (ts, c')   →   the lines behind ts are the longest prefix of
        c.pending whose lines all continue, and c'.pending is the rest
-/

namespace BuildTree

open Text

namespace Line

/-- Whether a line continues a diagnostic of a level: same level, indented, not blank. -/
def continues (level : Option Level) (l : Line) : Bool :=
  l.level == level && startsBlank l.text.toList && !allBlank l.text.toList

/-- What a continuation line adds to a diagnostic. -/
def trimmed (l : Line) : String := String.ofList (trim l.text.toList)

end Line

namespace Cursor

/-- The continuation lines at the cursor, trimmed, and the cursor in front of the first other
line. -/
def readContinuation (level : Option Level) (c : Cursor) : List String × Cursor :=
  match _h : c.next? with
  | none => ([], c)
  | some (raw, rest) =>
    if (Line.classify raw).continues level then
      let (texts, final) := rest.readContinuation level
      ((Line.classify raw).trimmed :: texts, final)
    else ([], rest.giveBack)
termination_by c.size
decreasing_by
  have := size_of_next? _h
  omega

theorem size_readContinuation_le (level : Option Level) (c : Cursor) :
    (c.readContinuation level).2.size ≤ c.size := by
  fun_induction readContinuation level c with
  | case1 => exact Nat.le_refl _
  | case2 c raw rest h _ texts final heq ih =>
    have := size_of_next? h
    simp only [heq] at ih
    simp only
    omega
  | case3 c raw rest h _ =>
    have := size_of_next? h
    have := size_giveBack_le rest
    simp only
    omega

end Cursor

/-- A message with further lines below it. -/
def Diagnostic.extend (d : Diagnostic) (texts : List String) : Diagnostic :=
  { d with message := texts.foldl (fun m t => m ++ "\n" ++ t) d.message }

end BuildTree
