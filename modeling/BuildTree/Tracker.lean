import BuildTree.Matcher

/-!
# Tracking executions

A tracker applies spy messages to the execution context and emits the lifecycle events:
projects, tasks, and the downloads of a thread, which are grouped under one node.

Every open download remembers the node its start hung under, so that its finish hangs
there too, whichever thread reports it.

    apply        one message
    processLine  one raw spy line; a malformed one is dropped
    abandonAll   the end of the output: every open download finishes unknown
-/

namespace BuildTree

open Spy Execution

/-- What a tracker needs to know: names for its events, and the matchers for error texts. -/
structure Tracker.Options where
  sessionName : String
  downloadNode : String
  errorMatchers : List ErrorMatcher := []

/-- An artifact being fetched, and the node that groups it. -/
structure Download where
  coord : String
  node : EventId
  deriving DecidableEq, Repr

structure Tracker where
  context : Context
  /-- The open downloads of all threads, one for an artifact. -/
  downloads : List Download := []
  deriving DecidableEq, Repr

/-! ## Events -/

namespace Execution.Entry

def started (e : Entry) (now : Nat) : Event := .started e.id (some e.parent.id) now e.name

def finished (e : Entry) (now : Nat) (outcome : Outcome) : Event :=
  .finished e.id (some e.parent.id) now e.name outcome

end Execution.Entry

namespace Download

def started (d : Download) (now : Nat) : Event :=
  .started (.download d.coord) (some d.node) now d.coord

def finished (d : Download) (now : Nat) (outcome : Outcome) : Event :=
  .finished (.download d.coord) (some d.node) now d.coord outcome

/-- Downloads by their artifacts, in ascending order. -/
def sorted (ds : List Download) : List Download := ds.mergeSort fun a b => a.coord ≤ b.coord

/-- Finishes downloads that nothing will resolve, in order of their artifacts. -/
def abandon (ds : List Download) (now : Nat) (why : String → Note) : Emits Unit :=
  ⟨(), (sorted ds).map (·.finished now .unknown), (sorted ds).map (why ·.coord)⟩

end Download

namespace Spy.Message

/-- The outcome that a message reports. -/
def outcome (m : Message) : Outcome :=
  match m.kind with
  | .mojoFailed | .projectFailed => .failure ((m.param? "error").getD "")
  | .mojoSkipped | .projectSkipped => .skipped
  | _ => .success

/-- The projects that a session announces: a list with `&&` between them. -/
def announced (m : Message) : List String :=
  match m.param? "projects" with
  | none => []
  | some s =>
    ((Text.splitAll "&&".toList s.toList).map Text.trim).filter (!·.isEmpty)
      |>.map String.ofList

/-- A parameter without which the message says nothing. -/
def required (m : Message) (key : String) : Emits (Option String) :=
  match m.param? key with
  | some v => pure (some v)
  | none => ⟨none, [], [.missingParameter m.thread m.kind key]⟩

end Spy.Message

namespace Tracker

/-! ## Algorithm -/

def fresh (session : Nat) : Tracker := { context := .fresh session }

def download? (t : Tracker) (coord : String) : Option Download :=
  t.downloads.find? (·.coord == coord)

def isDownloading (t : Tracker) (coord : String) : Bool := (t.download? coord).isSome

/-- The finish of the session, which hangs under nothing. -/
def sessionFinished (o : Options) (c : Context) (now : Nat) (outcome : Outcome) : Event :=
  .finished c.sessionId none now o.sessionName outcome

/-- Offers the error of a message to the error matchers, under the execution that failed. -/
def reportError (o : Options) (t : Tracker) (m : Message) : Emits Unit :=
  match m.param? "error" with
  | none => pure ()
  | some error => do
    let parent := ((t.context.innermostExecution? m.thread).map (·.id)).getD t.context.currentId
    let _ ← ErrorMatcher.offer t.context parent m.kind error o.errorMatchers
    pure ()

def endSession (o : Options) (t : Tracker) (now : Nat) : Emits Tracker := do
  let outcome := if t.context.failed then .failure "one or more projects failed" else .success
  .event (sessionFinished o t.context now outcome)
  pure { t with context := t.context.markEnded }

def startProject (t : Tracker) (m : Message) (now : Nat) : Emits Tracker := do
  match ← m.required "id" with
  | none => pure t
  | some name =>
    let (context, e) := t.context.openProject m.thread name
    .event (e.started now)
    pure { t with context }

def startTask (t : Tracker) (m : Message) (now : Nat) : Emits Tracker := do
  match ← m.required "goal" with
  | none => pure t
  | some goal =>
    let (context, e) := t.context.openTask m.thread (m.param? "id") goal
    .event (e.started now)
    pure { t with context }

/-- Finishes the entry that a message names, with the outcome it reports. -/
def finishEntry (t : Tracker) (m : Message) (now : Nat) (name : String) (entry : Option Entry) :
    Emits Tracker :=
  match entry with
  | none => ⟨t, [], [.notRunning m.thread m.kind name]⟩
  | some e => ⟨{ t with context := t.context.complete e }, [e.finished now m.outcome], []⟩

def finishTask (t : Tracker) (m : Message) (now : Nat) : Emits Tracker := do
  match ← m.required "goal" with
  | none => pure t
  | some goal => t.finishEntry m now goal (t.context.task? m.thread goal)

def finishProject (t : Tracker) (m : Message) (now : Nat) : Emits Tracker := do
  match ← m.required "id" with
  | none => pure t
  | some name => t.finishEntry m now name (t.context.project? m.thread name)

/-- Closes the node that groups the downloads of a thread, if it is open; downloads still open
under it finish first. -/
def closeDownloads (o : Options) (t : Tracker) (thread now : Nat) : Emits Tracker :=
  match t.context.node? thread o.downloadNode with
  | none => pure t
  | some node => do
    Download.abandon (t.downloads.filter (·.node == node.id)) now .downloadAbandoned
    .event (node.finished now .success)
    pure ⟨t.context.complete node, t.downloads.filter (·.node != node.id)⟩

/-- Starts a download, unless the artifact is being fetched already, and before it the node that
groups it, unless that is open. -/
def startDownload (o : Options) (t : Tracker) (m : Message) (now : Nat) : Emits Tracker :=
  match m.param? "artifactCoord" with
  | none => pure t
  | some coord =>
    if t.isDownloading coord then pure t
    else do
      let (context, node) := t.context.openNode m.thread o.downloadNode
      if (t.context.node? m.thread o.downloadNode).isNone then .event (node.started now)
      let d : Download := ⟨coord, node.id⟩
      .event (d.started now)
      pure ⟨context, t.downloads ++ [d]⟩

/-- Where a failed resolution without a download is shown: under the download node of the thread,
else under its innermost entry, else under the current one. -/
def failureParent (o : Options) (t : Tracker) (thread : Nat) : EventId :=
  match (t.context.node? thread o.downloadNode).or (t.context.innermost? thread) with
  | some e => e.id
  | none => t.context.currentId

/-- Finishes a download.  An error for an artifact that is not being fetched is shown as an entry
of its own. -/
def finishDownload (o : Options) (t : Tracker) (m : Message) (now : Nat) : Emits Tracker :=
  let error := m.param? "error"
  match (m.param? "artifactCoord").bind t.download? with
  | some d =>
    ⟨{ t with downloads := t.downloads.filter (·.coord != d.coord) },
      [d.finished now (error.elim .success .failure)], []⟩
  | none =>
    match error with
    | none => pure t
    | some error =>
      let parent := some (t.failureParent o m.thread)
      ⟨t, [.started (.named error) parent now error,
        .finished (.named error) parent now error (.failure error)], []⟩

/-- Applies one message. -/
def apply (o : Options) (t : Tracker) (m : Message) (now : Nat) : Emits Tracker := do
  .note (.spyEvent m.thread m.kind)
  t.reportError o m
  match m.kind with
  | .sessionStarted => pure { t with context := t.context.announce m.announced }
  | .sessionEnded => t.endSession o now
  | .projectStarted => t.startProject m now
  | .mojoStarted => t.startTask m now
  | .mojoSucceeded | .mojoFailed | .mojoSkipped =>
    let t ← t.closeDownloads o m.thread now
    t.finishTask m now
  | .projectSucceeded =>
    let t ← t.closeDownloads o m.thread now
    t.finishProject m now
  | .projectFailed =>
    let t ← t.closeDownloads o m.thread now
    { t with context := t.context.markFailed }.finishProject m now
  | .projectSkipped => t.finishProject m now
  | .artifactDownloading => t.startDownload o m now
  | .artifactResolved => t.finishDownload o m now

/-- Decodes and applies one raw line, and says whether it could be decoded. -/
def processLine (o : Options) (t : Tracker) (raw : String) (now : Nat) : Emits (Bool × Tracker) :=
  match decode raw with
  | .error e => ⟨(false, t), [], [.malformedLine e raw]⟩
  | .ok m => do
    let t ← t.apply o m now
    pure (true, t)

/-- The end of the output: every open download finishes unknown. -/
def abandonAll (t : Tracker) (now : Nat) : Emits Tracker := do
  Download.abandon t.downloads now .downloadUnresolved
  pure { t with downloads := [] }

end Tracker

end BuildTree
