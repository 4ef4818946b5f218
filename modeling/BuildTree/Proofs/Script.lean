import BuildTree.Proofs.Encoding
import BuildTree.Tracker

/-!
# Scripts of a build

A script says what a build does on one thread: projects one after the other, in each its tasks, and
in each task the artifacts that are fetched, with the way that all of them end.  It determines the
messages that the listener writes, and the tree that they stand for.

    messages a ps                  the messages of the projects ps on thread a
    walk session node n ps         their tree in session n, depth first

The entries are numbered in the order in which they start; a task takes a second number for the node
of its downloads, if it fetches anything.
-/

namespace BuildTree

open Execution Spy

/-! ## Algorithm -/

namespace Script

/-- A text that can be written as a value, and that is one. -/
structure Word where
  text : String
  ne_empty : text ≠ ""
  ne_null : text ≠ "null"
  no_sign : '=' ∉ text.toList
  no_mark : ¬ markCore <:+: text.toList
  no_lineFeedMark : ¬ lineFeedCore <:+: text.toList
  no_carriageReturn : '\r' ∉ text.toList

inductive Resolution where
  | resolved
  | failed (message : Word)
  /-- The task ends before the artifact is there. -/
  | unresolved

/-- An artifact that a task fetches. -/
structure Fetch where
  coord : Word
  resolution : Resolution

inductive Ending where
  | succeeded
  | failed (message : Word)
  | skipped

/-- A task and what it fetches, every artifact once. -/
structure Task where
  goal : Word
  ending : Ending
  fetches : List Fetch
  distinct : (fetches.map (·.coord.text)).Nodup

/-- A project, with the message of its failure if it fails. -/
structure Project where
  name : Word
  failure : Option Word
  tasks : List Task

/-! ### Messages -/

def Resolution.messages (a : Nat) (coord : Word) : Resolution → List Message
  | .resolved => [⟨a, .artifactResolved, [("artifactCoord", coord.text)]⟩]
  | .failed e => [⟨a, .artifactResolved, [("artifactCoord", coord.text), ("error", e.text)]⟩]
  | .unresolved => []

def Fetch.messages (a : Nat) (f : Fetch) : List Message :=
  ⟨a, .artifactDownloading, [("artifactCoord", f.coord.text)]⟩ :: f.resolution.messages a f.coord

def Task.start (a : Nat) (project : Word) (t : Task) : Message :=
  ⟨a, .mojoStarted, [("id", project.text), ("goal", t.goal.text)]⟩

def Task.finish (a : Nat) (project : Word) (t : Task) : Message :=
  match t.ending with
  | .succeeded => ⟨a, .mojoSucceeded, [("id", project.text), ("goal", t.goal.text)]⟩
  | .failed e =>
    ⟨a, .mojoFailed, [("id", project.text), ("goal", t.goal.text), ("error", e.text)]⟩
  | .skipped => ⟨a, .mojoSkipped, [("id", project.text), ("goal", t.goal.text)]⟩

def Task.messages (a : Nat) (project : Word) (t : Task) : List Message :=
  t.start a project :: (t.fetches.flatMap (·.messages a) ++ [t.finish a project])

def Project.start (a : Nat) (p : Project) : Message := ⟨a, .projectStarted, [("id", p.name.text)]⟩

def Project.finish (a : Nat) (p : Project) : Message :=
  match p.failure with
  | none => ⟨a, .projectSucceeded, [("id", p.name.text)]⟩
  | some e => ⟨a, .projectFailed, [("id", p.name.text), ("error", e.text)]⟩

def Project.messages (a : Nat) (p : Project) : List Message :=
  p.start a :: (p.tasks.flatMap (·.messages a p.name) ++ [p.finish a])

/-- The messages of a build on one thread, without the end of the session. -/
def messages (a : Nat) (ps : List Project) : List Message := ps.flatMap (·.messages a)

/-- The end of the session. -/
def ending (a : Nat) : Message := ⟨a, .sessionEnded, []⟩

/-! ### The tree -/

/-- How a download ends by itself. -/
def Resolution.outcome? : Resolution → Option Outcome
  | .resolved => some .success
  | .failed e => some (.failure e.text)
  | .unresolved => none

def Ending.outcome : Ending → Outcome
  | .succeeded => .success
  | .failed e => .failure e.text
  | .skipped => .skipped

def Project.outcome (p : Project) : Outcome :=
  match p.failure with
  | none => .success
  | some e => .failure e.text

/-- A start, what is inside, and the finish. -/
def around (i parent : EventId) (name : String) (outcome : Outcome) (inside : List Event) :
    List Event :=
  .started i (some parent) 0 name :: (inside ++ [.finished i (some parent) 0 name outcome])

def Fetch.finished (node : EventId) (coord : String) (outcome : Outcome) : Event :=
  .finished (.download coord) (some node) 0 coord outcome

def Fetch.walk (node : EventId) (f : Fetch) : List Event :=
  .started (.download f.coord.text) (some node) 0 f.coord.text ::
    f.resolution.outcome?.toList.map (finished node f.coord.text)

/-- The artifacts among those fetched that are never resolved, in the order they are fetched. -/
def pending (fs : List Fetch) : List String :=
  (fs.filter (·.resolution.outcome?.isNone)).map (·.coord.text)

/-- The downloads that are still open after a task has fetched something. -/
def unresolved (node : EventId) (fs : List Fetch) : List Download := (pending fs).map (⟨·, node⟩)

/-- A node with the downloads under it; those that are still open at its end finish unknown, in the
order of the artifacts. -/
def walkFetches (name : String) (i parent : EventId) (fs : List Fetch) : List Event :=
  around i parent name .success (fs.flatMap (·.walk i) ++
    ((pending fs).mergeSort fun a b => a ≤ b).map (Fetch.finished i · .unknown))

/-- A task, which is number `q`, and the node of its downloads, if it fetches anything. -/
def Task.walk (node : String) (n q : Nat) (project : EventId) (t : Task) : List Event :=
  around (.entry n q) project t.goal.text t.ending.outcome
    (if t.fetches.isEmpty then []
      else walkFetches node (.entry n (q + 1)) (.entry n q) t.fetches)

/-- The number of entries that a task takes. -/
def Task.size (t : Task) : Nat := if t.fetches.isEmpty then 1 else 2

def walkTasks (node : String) (n : Nat) (project : EventId) : Nat → List Task → List Event
  | _, [] => []
  | q, t :: ts => t.walk node n q project ++ walkTasks node n project (q + t.size) ts

def Project.walk (node : String) (n q : Nat) (p : Project) : List Event :=
  around (.entry n q) (.session n) p.name.text p.outcome
    (walkTasks node n (.entry n q) (q + 1) p.tasks)

def Project.size (p : Project) : Nat := p.tasks.foldr (·.size + ·) 0 + 1

def walkProjects (node : String) (n : Nat) : Nat → List Project → List Event
  | _, [] => []
  | q, p :: ps => p.walk node n q ++ walkProjects node n (q + p.size) ps

/-- The outcome of the session. -/
def outcome (ps : List Project) : Outcome :=
  if ps.any (·.failure.isSome) then .failure "one or more projects failed" else .success

/-- The tree of a build in session `n`, depth first, and the finish of the session. -/
def walk (session node : String) (n : Nat) (ps : List Project) : List Event :=
  walkProjects node n 1 ps ++ [.finished (.session n) none 0 session (outcome ps)]

end Script

end BuildTree
