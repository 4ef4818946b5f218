/-!
# Settings

What a user may set: the names that the events carry, whether output is passed on, and
which built-in matchers run.  Every setting has a default.
-/

namespace BuildTree

structure Toggles where
  javac : Bool := true
  kotlin : Bool := true
  compilationFailure : Bool := true
  deriving DecidableEq, Repr

structure Settings where
  /-- The name of the session's finish. -/
  sessionName : String := "build"
  /-- The name of the node that groups downloads. -/
  downloadNodeName : String := "Downloading dependencies"
  /-- Whether plain output lines are passed on. -/
  forwardOutput : Bool := true
  matchers : Toggles := {}
  deriving DecidableEq, Repr

end BuildTree
