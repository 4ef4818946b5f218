import BuildTree.Files.Access
import BuildTree.Settings.Document

/-!
# Where settings come from

A file that was named, by the user or else by the environment, is read and nothing else.
Without one, the nearest `buildspy.yaml` in the working directory or above it is read, and
without that the defaults hold.
-/

namespace BuildTree

/-- The name of the settings file that is looked for. -/
def settingsFileName : String := "buildspy.yaml"

inductive SettingsSource where
  /-- A file that was named. -/
  | named (path : String)
  /-- A file that was found. -/
  | found (path : String)
  | defaults
  deriving DecidableEq, Repr

def SettingsSource.path? : SettingsSource → Option String
  | .named p => some p
  | .found p => some p
  | .defaults => none

/-- Why there are no settings. -/
inductive SettingsError where
  | unreadable (path : String)
  | malformed (path : String)
  deriving DecidableEq, Repr

def SettingsError.message : SettingsError → String
  | .unreadable p => "Failed to read config file: " ++ p
  | .malformed p => "Failed to parse config file: " ++ p

namespace Settings

variable {m : Type → Type} [Monad m]

/-- The settings in a file. -/
def read (files : FileAccess m) (path : String) : m (Except SettingsError Settings) := do
  match ← files.readText path with
  | none => return .error (.unreadable path)
  | some text =>
    match ofText? text with
    | none => return .error (.malformed path)
    | some s => return .ok s

/-- The first path that leads to a file. -/
def firstFile (files : FileAccess m) : List String → m (Option String)
  | [] => return none
  | p :: ps => do if ← files.isFile p then return some p else firstFile files ps

/-- The nearest settings file in a directory or above it. -/
def locate (files : FileAccess m) (cwd : String) : m (Option String) :=
  firstFile files ((Path.ancestors cwd).map (Path.join · settingsFileName))

/-- The settings for a file named by the user, a file named by the environment, and a working
directory. -/
def load (files : FileAccess m) (explicit env : Option String) (cwd : String) :
    m (Except SettingsError (Settings × SettingsSource)) := do
  match explicit.or env with
  | some path => return (← read files path).map (·, .named path)
  | none =>
    match ← locate files cwd with
    | some path => return (← read files path).map (·, .found path)
    | none => return .ok ({}, .defaults)

end Settings

end BuildTree
