import BuildTree.View.Paint
import BuildTree.View.Table
import BuildTree.Text.Blank

/-!
# The tree view

Events shown as lines of an indented tree.  The view keeps the depths of the open nodes,
their names, and their ids in the order in which they started.  An output line reaches the
view once for every open ancestor, innermost first; only the first copy is shown.

    depth of a started node   one more than the depth of its parent, or 1
    runningLabel              the name of the node started last that has not finished
-/

namespace BuildTree

open Text

structure TreeView where
  showOutput : Bool
  color : Bool
  /-- The depths of the open nodes. -/
  depths : Table Nat := {}
  /-- The names of the open nodes. -/
  names : Table String := {}
  /-- The ids of the open nodes, newest last; one that started again stands here again. -/
  running : List EventId := []
  /-- The output line shown or dropped last, with its depth, unless a node started or finished
  since. -/
  lastOutput : Option (String × Nat) := none
  deriving DecidableEq, Repr

namespace TreeView

/-! ## Algorithm -/

def indent (depth : Nat) : String := String.ofList (List.replicate (2 * depth) ' ')

def firstLine (s : String) : String := String.ofList ((lines s.toList).headD [])

/-- The depth of an open node; nothing and nodes that are not open have depth 0. -/
def depthOf (t : TreeView) (id : Option EventId) : Nat := (id.bind t.depths.get?).getD 0

/-- The name of the node started last that is still open. -/
def runningLabel (t : TreeView) : String := (t.running.getLast?.bind t.names.get?).getD ""

def paint (t : TreeView) (p : Paint) (s : String) : String := p.apply t.color s

def status (t : TreeView) : Outcome → String
  | .success => t.paint .green "SUCCESS"
  | .failure message =>
    if message = "" then t.paint .red "FAILED"
    else t.paint .red "FAILED" ++ " " ++ firstLine message
  | .skipped => t.paint .yellow "SKIPPED"
  | .unknown => t.paint .dimmed "UNFINISHED"

def severityLabel (t : TreeView) : Severity → String
  | .error => t.paint .boldRed "error"
  | .warning => t.paint .boldYellow "warning"
  | .info => t.paint .boldBlue "info"

/-- What a finished node is called: the root of the tree has a name of its own if it got none. -/
def finishedLabel (parent : Option EventId) (name : String) : String :=
  if parent = none ∧ name = "" then "build" else name

def start (t : TreeView) (id : EventId) (parent : Option EventId) (name : String) : TreeView :=
  { t with
    depths := t.depths.insert id (t.depthOf parent + 1)
    names := t.names.insert id name
    running := t.running ++ [id]
    lastOutput := none }

def finish (t : TreeView) (id : EventId) : TreeView :=
  { t with
    depths := t.depths.erase id
    names := t.names.erase id
    running := t.running.filter (· != id)
    lastOutput := none }

/-- The depth at which a node finishes: its own, or what its parent gives it if it never
started. -/
def finishDepth (t : TreeView) (id : EventId) (parent : Option EventId) : Nat :=
  (t.depths.get? id).getD (t.depthOf parent + 1)

/-- Whether an output line is a further copy of the one before it. -/
def isCopy (t : TreeView) (text : String) (depth : Nat) : Bool :=
  match t.lastOutput with
  | none => false
  | some (last, lastDepth) => last == text && depth < lastDepth

/-- A diagnostic: title line, then the further lines of its text one level deeper. -/
def messageLines (t : TreeView) (depth : Nat) (severity : Severity) (title text : String)
    (position : Option Position) : String :=
  let place := (position.map fun p => p.text ++ " ").getD ""
  let first := indent depth ++ t.severityLabel severity ++ ": " ++ place ++ title
  ((lines text.toList).drop 1).foldl
    (fun shown l => shown ++ "\n" ++ indent (depth + 1) ++ String.ofList l) first

/-- Shows one event; some events give no line. -/
def render (t : TreeView) (e : Event) : Option String × TreeView :=
  match e with
  | .started id parent _ name =>
    (some (indent (t.depthOf parent + 1) ++ t.paint .cyan ">" ++ " " ++ t.paint .bold name),
      t.start id parent name)
  | .finished id parent _ name outcome =>
    (some (indent (t.finishDepth id parent - 1) ++ finishedLabel parent name ++ " "
      ++ t.status outcome), t.finish id)
  | .output parent text =>
    if t.showOutput then
      let text := String.ofList (dropEndWhile (· == '\n') text.toList)
      let depth := t.depthOf (some parent)
      let shown := if t.isCopy text depth then none
        else some (indent (depth + 1) ++ t.paint .dimmed text)
      (shown, { t with lastOutput := some (text, depth) })
    else (none, t)
  | .message parent severity title text position =>
    (some (t.messageLines (t.depthOf (some parent) + 1) severity title text position), t)

/-- Shows a list of events: what each gives, and the view at the end. -/
def renderAll (t : TreeView) : List Event → List (Option String) × TreeView
  | [] => ([], t)
  | e :: es =>
    let (shown, t) := t.render e
    let (rest, t) := t.renderAll es
    (shown :: rest, t)

end TreeView

end BuildTree
