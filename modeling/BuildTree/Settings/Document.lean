import BuildTree.Settings.Basic
import BuildTree.Yaml.Node

/-!
# Settings in YAML

Settings are one mapping, with a nested mapping for the matchers:

    sessionName: nightly
    matchers:
      kotlin: false

Keys that mean nothing here are skipped; a key that does may stand once.  Any scalar gives a
text, as it is written; a truth value is a plain `true` or `false` in one of three
spellings.  A mapping may be left out after its colon, and so may the whole document.
-/

namespace BuildTree

open Yaml

namespace Settings

/-! ## Reading nodes -/

abbrev Anchored := List (Nat × Node)

def text? (anchored : Anchored) (n : Node) : Option String :=
  match n.resolve anchored with
  | some (.scalar _ _ t) => some (String.ofList t)
  | _ => none

def truth? : List Char → Option Bool
  | ['t', 'r', 'u', 'e'] => some true
  | ['T', 'r', 'u', 'e'] => some true
  | ['T', 'R', 'U', 'E'] => some true
  | ['f', 'a', 'l', 's', 'e'] => some false
  | ['F', 'a', 'l', 's', 'e'] => some false
  | ['F', 'A', 'L', 'S', 'E'] => some false
  | _ => none

def boolTag : List Char := "tag:yaml.org,2002:bool".toList

/-- A truth value: a plain scalar, or a literal one with the tag of truth values. -/
def bool? (anchored : Anchored) (n : Node) : Option Bool :=
  match n.resolve anchored with
  | some (.scalar _ .plain t) => truth? t
  | some (.scalar (some tag) .literal t) => if tag = boolTag then truth? t else none
  | _ => none

/-- The entries of a mapping whose keys are texts; a plain empty scalar is an empty mapping. -/
def entries? (anchored : Anchored) (n : Node) : Option (List (String × Node)) :=
  match n.resolve anchored with
  | some (.mapping es) => es.mapM fun (k, v) => (text? anchored k).map (·, v)
  | some (.scalar _ .plain []) => some []
  | _ => none

/-- The value of a key, or its default; a key may not be repeated. -/
def field? {α : Type} (es : List (String × Node)) (key : String) (default : α)
    (read : Node → Option α) : Option α :=
  match es.filter (·.1 == key) with
  | [] => some default
  | [(_, n)] => read n
  | _ => none

/-! ## Settings -/

def togglesOf? (anchored : Anchored) (n : Node) : Option Toggles := do
  let es ← entries? anchored n
  let d : Toggles := {}
  some {
    javac := ← field? es "javac" d.javac (bool? anchored)
    kotlin := ← field? es "kotlin" d.kotlin (bool? anchored)
    compilationFailure :=
      ← field? es "compilationFailure" d.compilationFailure (bool? anchored) }

def ofDocument? (doc : Document) : Option Settings := do
  let es ← entries? doc.anchored doc.root
  let d : Settings := {}
  some {
    sessionName := ← field? es "sessionName" d.sessionName (text? doc.anchored)
    downloadNodeName := ← field? es "downloadNodeName" d.downloadNodeName (text? doc.anchored)
    forwardOutput := ← field? es "forwardOutput" d.forwardOutput (bool? doc.anchored)
    matchers := ← field? es "matchers" d.matchers (togglesOf? doc.anchored) }

/-- The settings in a text; a blank text, like a text without document, leaves all defaults. -/
def ofText? (text : String) : Option Settings :=
  if Text.allBlank text.toList then some {}
  else
    match documents? text with
    | none => none
    | some [] => some {}
    | some (doc :: _) => ofDocument? doc

end Settings

end BuildTree
