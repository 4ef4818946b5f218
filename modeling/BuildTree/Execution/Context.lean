import BuildTree.Event

/-!
# The execution context

The live entries of one build session: projects, tasks inside them, and nodes that group
other things.  Worker threads run side by side; each entry belongs to one thread, and an
entry looked up by name is the innermost one of its thread.

The live entries stand in one list in order of creation; `onThread t` is the view of one
thread, innermost last.

    onThread t (complete e c)   = (onThread t c) without the entry of e's id, if e is on t
    project? / task? / node?    the innermost live entry of that name on a thread
    openProject / openTask / openNode   that entry, created when there is none
    currentId                   innermost live entry of the thread that created last
-/

namespace BuildTree.Execution

/-! ## Entries -/

inductive EntryKind where
  /-- One project of the build. -/
  | project
  /-- One goal execution. -/
  | task
  /-- A node that groups others, such as the downloads of a task. -/
  | node
  deriving DecidableEq, Repr

inductive ParentKind where
  | session | project | task
  deriving DecidableEq, Repr

/-- What an entry hangs under, fixed when the entry is created. -/
structure Parent where
  kind : ParentKind
  id : EventId
  deriving DecidableEq, Repr

structure Entry where
  kind : EntryKind
  name : String
  thread : Nat
  id : EventId
  parent : Parent
  deriving DecidableEq, Repr

/-! ## Project ids -/

/-- A project id reduced to `group:artifact`; with fewer than three parts it stays as it is. -/
def normalizeProject (id : String) : String :=
  match id.toList.splitOn ':' with
  | group :: artifact :: _ :: _ => String.ofList (group ++ ':' :: artifact)
  | _ => id

/-! ## The context -/

structure Context where
  /-- The number of the session. -/
  session : Nat
  /-- The number of the next entry. -/
  nextSeq : Nat := 1
  /-- The live entries in order of creation. -/
  live : List Entry := []
  /-- The thread of the entry created last. -/
  lastThread : Option Nat := none
  /-- The projects that the build announced. -/
  announced : List String := []
  /-- The projects started so far, as `group:artifact`. -/
  begun : List String := []
  /-- Whether the build reported the end of the session. -/
  ended : Bool := false
  /-- Whether the session has failed. -/
  failed : Bool := false
  deriving DecidableEq, Repr

namespace Context

def fresh (session : Nat) : Context := { session }

def sessionId (c : Context) : EventId := .session c.session

def sessionParent (c : Context) : Parent := ⟨.session, c.sessionId⟩

/-- The live entries of a thread, innermost last. -/
def onThread (c : Context) (thread : Nat) : List Entry := c.live.filter (·.thread == thread)

/-- The innermost live entry of a thread with a property. -/
def innermostWith? (c : Context) (thread : Nat) (p : Entry → Bool) : Option Entry :=
  (c.onThread thread).reverse.find? p

def find? (c : Context) (kind : EntryKind) (thread : Nat) (name : String) : Option Entry :=
  c.innermostWith? thread fun e => e.kind == kind && e.name == name

def project? (c : Context) := c.find? .project
def task? (c : Context) := c.find? .task
def node? (c : Context) := c.find? .node

/-- The innermost live entry of a thread. -/
def innermost? (c : Context) (thread : Nat) : Option Entry :=
  c.innermostWith? thread fun _ => true

/-- The innermost live project or task of a thread. -/
def innermostExecution? (c : Context) (thread : Nat) : Option Entry :=
  c.innermostWith? thread fun e => e.kind != .node

/-- Adds a live entry with the next number. -/
def create (c : Context) (kind : EntryKind) (thread : Nat) (name : String) (parent : Parent) :
    Context × Entry :=
  let e : Entry := ⟨kind, name, thread, .entry c.session c.nextSeq, parent⟩
  ({ c with nextSeq := c.nextSeq + 1, live := c.live ++ [e], lastThread := some thread }, e)

/-- The project of a name on a thread.  A new one hangs under the session, and counts as begun. -/
def openProject (c : Context) (thread : Nat) (name : String) : Context × Entry :=
  match c.project? thread name with
  | some e => (c, e)
  | none =>
    let (c', e) := c.create .project thread name c.sessionParent
    ({ c' with begun := c'.begun ++ [normalizeProject name] }, e)

/-- What a new task hangs under: its project if that is open on the thread, else the session. -/
def taskParent (c : Context) (thread : Nat) (project : Option String) : Parent :=
  match project.bind (c.project? thread) with
  | some p => ⟨.project, p.id⟩
  | none => c.sessionParent

def openTask (c : Context) (thread : Nat) (project : Option String) (name : String) :
    Context × Entry :=
  match c.task? thread name with
  | some e => (c, e)
  | none => c.create .task thread name (c.taskParent thread project)

/-- What a new node hangs under: the innermost task of the thread, else the innermost project,
else the session. -/
def nodeParent (c : Context) (thread : Nat) : Parent :=
  match c.innermostWith? thread (·.kind == .task) with
  | some t => ⟨.task, t.id⟩
  | none =>
    match c.innermostWith? thread (·.kind == .project) with
    | some p => ⟨.project, p.id⟩
    | none => c.sessionParent

def openNode (c : Context) (thread : Nat) (name : String) : Context × Entry :=
  match c.node? thread name with
  | some e => (c, e)
  | none => c.create .node thread name (c.nodeParent thread)

/-- Removes an entry from the live ones; removing it again changes nothing. -/
def complete (c : Context) (e : Entry) : Context :=
  { c with live := c.live.filter fun x => !(x.thread == e.thread && x.id == e.id) }

/-- The live entries of the thread that created last, innermost first. -/
def liveOfLastThread (c : Context) : List Entry :=
  match c.lastThread with
  | some t => (c.onThread t).reverse
  | none => []

/-- The innermost live entry of the thread that created last, else the session. -/
def currentId (c : Context) : EventId :=
  match c.liveOfLastThread with
  | e :: _ => e.id
  | [] => c.sessionId

/-- All live entries, by ascending thread, and innermost first on each. -/
def liveReversed (c : Context) : List Entry :=
  c.live.reverse.mergeSort fun a b => a.thread ≤ b.thread

/-- The announced projects that were never begun, in the order announced. -/
def pending (c : Context) : List String :=
  c.announced.filter fun p => !c.begun.contains (normalizeProject p)

def announce (c : Context) (projects : List String) : Context := { c with announced := projects }

def markEnded (c : Context) : Context := { c with ended := true }

def markFailed (c : Context) : Context := { c with failed := true }

/-! ## Lemmas -/

@[simp] theorem onThread_complete (c : Context) (e : Entry) (t : Nat) :
    (c.complete e).onThread t =
      (c.onThread t).filter fun x => !(x.thread == e.thread && x.id == e.id) := by
  simp only [onThread, complete, List.filter_filter]
  congr 1
  funext x
  exact Bool.and_comm _ _

theorem onThread_complete_of_ne {c : Context} {e : Entry} {t : Nat} (h : t ≠ e.thread) :
    (c.complete e).onThread t = c.onThread t := by
  rw [onThread_complete, List.filter_eq_self]
  intro x hx
  have : x.thread = t := by simpa using (List.mem_filter.1 hx).2
  simp [this, h]

theorem complete_complete (c : Context) (e : Entry) : (c.complete e).complete e = c.complete e := by
  simp [complete, List.filter_filter]

theorem onThread_create (c : Context) (k : EntryKind) (t s : Nat) (n : String) (p : Parent) :
    (c.create k t n p).1.onThread s =
      c.onThread s ++ if t = s then [(c.create k t n p).2] else [] := by
  by_cases h : t = s <;> simp [onThread, create, h]

theorem liveReversed_perm (c : Context) : c.liveReversed.Perm c.live :=
  (List.mergeSort_perm _ _).trans (List.reverse_perm _)

end Context

end BuildTree.Execution
