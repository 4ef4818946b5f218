/-!
# Kinds of spy events

The twelve lifecycle events that the listener inside a build reports, each with the one
token that names it.

    ofName? s = some k   iff   k.name = s   (ofName?_eq_some_iff)
-/

namespace BuildTree.Spy

inductive Kind where
  | sessionStarted | sessionEnded
  | projectStarted | projectSucceeded | projectFailed | projectSkipped
  | mojoStarted | mojoSucceeded | mojoFailed | mojoSkipped
  | artifactResolved | artifactDownloading
  deriving DecidableEq, Repr

namespace Kind

def all : List Kind :=
  [.sessionStarted, .sessionEnded, .projectStarted, .projectSucceeded, .projectFailed,
   .projectSkipped, .mojoStarted, .mojoSucceeded, .mojoFailed, .mojoSkipped, .artifactResolved,
   .artifactDownloading]

/-- The token of a kind. -/
def name : Kind → String
  | .sessionStarted => "SessionStarted"
  | .sessionEnded => "SessionEnded"
  | .projectStarted => "ProjectStarted"
  | .projectSucceeded => "ProjectSucceeded"
  | .projectFailed => "ProjectFailed"
  | .projectSkipped => "ProjectSkipped"
  | .mojoStarted => "MojoStarted"
  | .mojoSucceeded => "MojoSucceeded"
  | .mojoFailed => "MojoFailed"
  | .mojoSkipped => "MojoSkipped"
  | .artifactResolved => "ArtifactResolved"
  | .artifactDownloading => "ArtifactDownloading"

def ofName? (s : String) : Option Kind := all.find? (·.name == s)

theorem ofName?_name (k : Kind) : ofName? k.name = some k := by cases k <;> decide

theorem ofName?_eq_some_iff {s : String} {k : Kind} : ofName? s = some k ↔ k.name = s := by
  constructor
  · intro h
    simpa using List.find?_some h
  · rintro rfl
    exact ofName?_name k

end Kind

end BuildTree.Spy
