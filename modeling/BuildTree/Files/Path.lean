/-!
# Paths

Paths are texts with slashes.  Going up is a matter of the text alone: the last component
is dropped, and with it the slashes and single dots that mean nothing.

    ancestors p   p itself, then what is above it, to the root or the empty path
-/

namespace BuildTree.Path

/-- A path below a directory; an absolute path stays as it is. -/
def join (dir name : String) : String :=
  if name.startsWith "/" || dir = "" then name
  else if dir.endsWith "/" then dir ++ name
  else dir ++ "/" ++ name

/-- Drops slashes and single dots at the end of a path, given backwards. -/
def dropIdle : List Char → List Char
  | '/' :: s => dropIdle s
  | '.' :: '/' :: s => dropIdle s
  | s => s

/-- A path without the slashes and single dots at its end. -/
def trimmed (path : String) : String :=
  String.ofList (dropIdle path.toList.reverse).reverse

/-- What is above a path, given backwards; the path above the root is none. -/
def above? (s : List Char) : Option (List Char) :=
  let s' := dropIdle s
  if s'.isEmpty then none
  else
    let up := s'.dropWhile (· != '/')
    if up.isEmpty then some []
    else if (dropIdle up).isEmpty then some ['/']
    else some (dropIdle up)

/-- The paths above a path, given backwards, nearest first. -/
def allAbove (s : List Char) : List (List Char) :=
  match above? s with
  | none => []
  | some up => if _h : up.length < s.length then up :: allAbove up else []
termination_by s.length

def ancestors (path : String) : List String :=
  path :: (allAbove path.toList.reverse).map fun s => String.ofList s.reverse

end BuildTree.Path
