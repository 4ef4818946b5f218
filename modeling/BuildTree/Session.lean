import BuildTree.Settings.Basic
import BuildTree.Tracker

/-!
# Parsing the output of a build

A session takes the output of one build line by line.  Spy lines go to the tracker; other
lines are passed on to the open entries and offered to the matchers.  Once the build has
reported the end of the session only late error lines count.

    parseLine   one line; matchers may read ahead through its cursor
    finish      the end of the output: whatever is open finishes unknown
    run         parseLine for every line of a cursor, then finish
-/

namespace BuildTree

open Spy Execution

inductive Phase where
  /-- The session runs, and every line is parsed. -/
  | active
  /-- The session is over; only late error lines are looked at. -/
  | ended
  deriving DecidableEq, Repr

namespace Session

/-- What stays the same during a session.  `clock k` is the answer of the clock when it is read
for the `k`-th time, counted from zero. -/
structure Setup extends Tracker.Options where
  forward : Bool
  clock : Nat → Nat

end Session

structure Session where
  tracker : Tracker
  matchers : List LineMatcher
  phase : Phase := .active
  /-- Whether the matchers have been told that the session is over. -/
  finalized : Bool := false
  /-- Whether the end of the output was handled. -/
  finished : Bool := false
  /-- How often the clock was read. -/
  ticks : Nat := 0

namespace Session

/-! ## Setting up -/

/-- The setup for some settings; matchers of the host come before the built-in one. -/
def Setup.ofSettings (s : Settings) (clock : Nat → Nat) (errorMatchers : List ErrorMatcher := [])
    (builtIn : Bool := true) : Setup where
  sessionName := s.sessionName
  downloadNode := s.downloadNodeName
  errorMatchers := errorMatchers ++
    if builtIn && s.matchers.compilationFailure then [.compilationFailure] else []
  forward := s.forwardOutput
  clock := clock

/-- A session on a context; matchers of the host come before the built-in ones. -/
def start (s : Settings) (context : Context) (rules : List LineRule := [])
    (builtIn : Bool := true) : Session where
  tracker := { context }
  matchers := rules.map .rule ++
    if builtIn then LineMatcher.builtIn s.matchers.javac s.matchers.kotlin else []

def context (s : Session) : Context := s.tracker.context

/-! ## Algorithm -/

/-- Tells the matchers, once, that the session is over. -/
def finalize (s : Session) : Emits Session :=
  if s.finalized then pure s
  else do
    let matchers ← LineMatcher.finalizeAll s.context.sessionId s.matchers
    pure { s with matchers, finalized := true }

/-- The ids that an output line is passed on to: the live entries of the thread that created
last, innermost first, or else the session. -/
def forwardTargets (c : Context) : List EventId :=
  match c.liveOfLastThread with
  | [] => [c.sessionId]
  | es => es.map (·.id)

def forward (c : Context) (raw : String) : Emits Unit :=
  ⟨(), (forwardTargets c).map (.output · (Line.body raw ++ "\n")), []⟩

/-- A late error line fails a session that had not failed, once. -/
def lateLine (o : Setup) (s : Session) (raw : String) (now : Nat) : Emits Session :=
  let line := Line.classify raw
  if isSpyLine raw || s.context.failed || line.level != some .error then pure s
  else
    ⟨{ s with tracker := { s.tracker with context := s.context.markFailed } },
      [Tracker.sessionFinished o.toOptions s.context now (.failure line.text)],
      [.lateError raw]⟩

def spyLine (o : Setup) (s : Session) (raw : String) (now : Nat) : Emits Session := do
  let (_, tracker) ← s.tracker.processLine o.toOptions raw now
  let s := { s with tracker }
  if tracker.context.ended then
    .note .sessionEnded
    { s with phase := .ended }.finalize
  else pure s

def plainLine (o : Setup) (s : Session) (raw : String) (cursor : Cursor) :
    Emits (Bool × Session × Cursor) := do
  if o.forward then forward s.context raw
  let (taken, matchers, cursor) ←
    LineMatcher.offer s.context s.context.currentId (Line.classify raw) cursor s.matchers
  if taken then .note (.lineConsumed raw)
  pure (taken, { s with matchers }, cursor)

/-- Parses one raw line, where `cursor` holds the lines after it.  Says whether the spy channel or
a matcher consumed the line. -/
def parseLine (o : Setup) (s : Session) (raw : String) (cursor : Cursor) :
    Emits (Bool × Session × Cursor) := do
  let now := o.clock s.ticks
  let s := { s with ticks := s.ticks + 1 }
  match s.phase with
  | .ended =>
    let s ← s.lateLine o raw now
    pure (false, s, cursor)
  | .active =>
    if Line.isBlank raw then pure (false, s, cursor)
    else if isSpyLine raw then
      let s ← s.spyLine o raw now
      pure (true, s, cursor)
    else s.plainLine o raw cursor

theorem size_plainLine_le (o : Setup) (s : Session) (raw : String) (cursor : Cursor) :
    (s.plainLine o raw cursor).value.2.2.size ≤ cursor.size := by
  have h := LineMatcher.size_offer_le s.context s.context.currentId (Line.classify raw) cursor
    s.matchers
  unfold plainLine
  split <;> simp only [Emits.value_bind] <;> split <;> exact h

theorem size_parseLine_le (o : Setup) (s : Session) (raw : String) (cursor : Cursor) :
    (s.parseLine o raw cursor).value.2.2.size ≤ cursor.size := by
  unfold parseLine
  cases s.phase with
  | ended => exact Nat.le_refl _
  | active =>
    simp only
    split
    · exact Nat.le_refl _
    · split
      · exact Nat.le_refl _
      · exact size_plainLine_le ..

/-- Finishes every entry still open, children before their parents. -/
def finishEntries (c : Context) (now : Nat) : Emits Context :=
  ⟨c.liveReversed.foldl Context.complete c, c.liveReversed.map (·.finished now .unknown),
    c.liveReversed.map fun e => .entryLeftOpen e.name e.id⟩

/-- The end of the output.  A second call changes nothing. -/
def finish (o : Setup) (s : Session) : Emits Session :=
  if s.finished then pure s
  else do
    let now := o.clock s.ticks
    let s ← { s with finished := true, ticks := s.ticks + 1 }.finalize
    let tracker ← s.tracker.abandonAll now
    let context ← finishEntries tracker.context now
    if !context.ended then .event (Tracker.sessionFinished o.toOptions context now .unknown)
    pure { s with tracker := { tracker with context }, phase := .ended }

/-- Parses every line of a cursor, those that come after it as the matchers left them. -/
def parseAll (o : Setup) (s : Session) (cursor : Cursor) : Emits Session :=
  match _h : cursor.next? with
  | none => pure s
  | some (raw, rest) =>
    let x := s.parseLine o raw rest
    x *> x.value.2.1.parseAll o x.value.2.2
termination_by cursor.size
decreasing_by
  have := Cursor.size_of_next? _h
  have := s.size_parseLine_le o raw rest
  omega

/-- Parses every line, then handles the end of the output. -/
def run (o : Setup) (s : Session) (lines : List String) : Emits Session := do
  let s ← s.parseAll o (.ofLines lines)
  s.finish o

end Session

end BuildTree
