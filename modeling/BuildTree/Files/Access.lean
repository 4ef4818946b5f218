import BuildTree.Files.Path

/-!
# Reading files

What the program asks of a file system, and a file system as a value that answers it: a
directory tree, made by writing files and making directories.
-/

namespace BuildTree

/-- The questions asked of a file system, answered in some monad. -/
structure FileAccess (m : Type → Type) where
  /-- Whether a path leads to a file. -/
  isFile : String → m Bool
  /-- The text of a file, unless it cannot be read as one. -/
  readText : String → m (Option String)
  /-- The bytes of a file, unless it cannot be opened.  What cannot be read is left out. -/
  readBytes : String → m (Option (List UInt8))

/-- Files and directories, by the components of their places below the root. -/
structure FileTree where
  files : List (List String × String) := []
  directories : List (List String) := []

namespace FileTree

def components (path : String) : List String :=
  ((path.toList.splitOn '/').map String.ofList).filter fun c => c ≠ "" && c ≠ "."

/-- The place that one component leads to. -/
def step (place : List String) (c : String) : List String :=
  if c = ".." then place.dropLast else place ++ [c]

/-- The places that components lead through, from the first place to the last. -/
def placesAlong (place : List String) : List String → List (List String)
  | [] => [place]
  | c :: cs => place :: placesAlong (step place c) cs

/-! ## Making a tree -/

/-- Makes every directory that some components lead through. -/
def makeDirectories (t : FileTree) (path : List String) : FileTree :=
  { t with directories := placesAlong [] path ++ t.directories }

/-- Makes the directory at a path, and those on the way to it. -/
def makeDirectory (t : FileTree) (path : String) : FileTree := t.makeDirectories (components path)

/-- Writes the file at a path, in place of the one that is there; the directories on the way to it
are made. -/
def write (t : FileTree) (path text : String) : FileTree :=
  let path := components path
  let place := path.foldl step []
  let t := t.makeDirectories path.dropLast
  { t with files := (place, text) :: t.files.filter (·.1 != place) }

/-- A tree with the given files, written one after the other, and the given directories. -/
def ofLists (files : List (String × String)) (directories : List String) : FileTree :=
  directories.foldl makeDirectory (files.foldl (fun t (path, text) => t.write path text) {})

/-! ## Reading a tree -/

def isDirectory (t : FileTree) (place : List String) : Bool :=
  place.isEmpty || t.directories.contains place

/-- The place that components lead to.  Each of them but the last has to be a directory. -/
def walk (t : FileTree) (place : List String) : List String → Option (List String)
  | [] => some place
  | c :: cs => if t.isDirectory place then walk t (step place c) cs else none

/-- The text of the file at a path, read from a directory.  A path that ends in a slash does not
lead to a file. -/
def text? (t : FileTree) (cwd path : String) : Option String :=
  let path := Path.join cwd path
  match t.walk [] (components path) with
  | none => none
  | some place => if Path.trimmed path = path then t.files.lookup place else none

/-- Whether a path, read from a directory, leads to a directory. -/
def leadsToDirectory (t : FileTree) (cwd path : String) : Bool :=
  ((t.walk [] (components (Path.join cwd path))).map t.isDirectory).getD false

/-- The answers of a file tree, with relative paths read from a directory. -/
def access (t : FileTree) (cwd : String) : FileAccess Id where
  isFile path := (t.text? cwd path).isSome
  readText path := t.text? cwd path
  readBytes path :=
    match t.text? cwd path with
    | some s => some s.toUTF8.toList
    | none => if t.leadsToDirectory cwd path then some [] else none

end FileTree

end BuildTree
