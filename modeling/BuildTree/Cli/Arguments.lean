import BuildTree.Text.Cut

/-!
# Command line arguments

    buildspy [OPTIONS] parse [FILE] [--json] [--no-output] [--strict]
    buildspy [OPTIONS] completion SHELL
    buildspy help [COMMAND]

The options `--verbose`, `--quiet`, `--config` and `--log-file` may stand in front of the
command and after it; what stands after it wins.  Arguments are read from left to right.  An
option without its value, a value that is not accepted and a repeated option are noticed
when the next option or word is accepted, or at the end.
-/

namespace BuildTree.Cli

/-! ## What was asked for -/

inductive Verbosity where
  | quiet | normal | verbose
  deriving DecidableEq, Repr

structure ParseArguments where
  file : Option String
  json : Bool
  noOutput : Bool
  strict : Bool
  deriving DecidableEq, Repr

inductive Command where
  | parse (arguments : ParseArguments)
  | completion (shell : String)
  deriving DecidableEq, Repr

structure Arguments where
  verbosity : Verbosity
  config : Option String
  logFile : Option String
  command : Command
  deriving DecidableEq, Repr

/-- Why arguments are not run: they are wrong, or ask for information about the program. -/
inductive UsageError where
  | unknownArgument
  /-- An option is repeated, or excluded by another one. -/
  | conflict
  /-- A value is missing, empty or not one of those accepted. -/
  | invalidValue
  /-- An option that takes no value got one. -/
  | unexpectedValue
  | unknownCommand
  | missingCommand
  | missingRequired
  | help
  | version
  | nothingGiven
  deriving DecidableEq, Repr

/-! ## Options -/

/-- Where arguments stand: in front of the command, or after it. -/
inductive Scope where
  | program | parse | completion
  deriving DecidableEq, Repr

/-- Options without value. -/
inductive Flag where
  | verbose | quiet | json | noOutput | strict | help | version
  deriving DecidableEq, Repr

/-- What takes a value: options, and the word after a command. -/
inductive Slot where
  | config | logFile | file | shell
  deriving DecidableEq, Repr

def commandNames : List String := ["parse", "completion", "help"]

def shells : List String := ["bash", "elvish", "fish", "powershell", "zsh"]

def Scope.flag? (scope : Scope) (name : String) : Option Flag :=
  match name with
  | "verbose" => some .verbose
  | "quiet" => some .quiet
  | "help" => some .help
  | "version" => if scope = .program then some .version else none
  | "json" => if scope = .parse then some .json else none
  | "no-output" => if scope = .parse then some .noOutput else none
  | "strict" => if scope = .parse then some .strict else none
  | _ => none

def Scope.shortFlag? (scope : Scope) (c : Char) : Option Flag :=
  match c with
  | 'v' => some .verbose
  | 'q' => some .quiet
  | 'h' => some .help
  | 'V' => if scope = .program then some .version else none
  | _ => none

def option? : String → Option Slot
  | "config" => some .config
  | "log-file" => some .logFile
  | _ => none

/-- The word that a command takes. -/
def Scope.word? : Scope → Option Slot
  | .program => none
  | .parse => some .file
  | .completion => some .shell

/-- Whether a slot takes a value: paths are not empty, and shells are known. -/
def Slot.accepts : Slot → String → Bool
  | .shell, v => shells.contains v
  | _, v => v != ""

/-! ## Reading -/

/-- What was read in one scope. -/
structure Given where
  flags : List Flag := []
  values : List (Slot × String) := []
  /-- A slot whose value is checked when the next argument is accepted, if it came already. -/
  pending : Option (Slot × Option String) := none
  /-- Whether the word of the command was read. -/
  wordRead : Bool := false
  deriving DecidableEq, Repr

namespace Given

def value? (g : Given) (s : Slot) : Option String := g.values.lookup s

def has (g : Given) (f : Flag) : Bool := g.flags.contains f

/-- Takes a value for a slot, once. -/
def accept (g : Given) (s : Slot) (value : Option String) : Except UsageError Given :=
  match value with
  | none => .error .invalidValue
  | some v =>
    if (g.value? s).isSome then .error .conflict
    else if s.accepts v then .ok { g with values := (s, v) :: g.values }
    else .error .invalidValue

/-- Checks the pending slot. -/
def settle (g : Given) : Except UsageError Given :=
  match g.pending with
  | none => .ok g
  | some (s, v) => { g with pending := none }.accept s v

/-- Takes a flag, once; two of them ask for information instead. -/
def addFlag (g : Given) (f : Flag) : Except UsageError Given := do
  let g ← g.settle
  match f with
  | .help => .error .help
  | .version => .error .version
  | f => if g.has f then .error .conflict else .ok { g with flags := f :: g.flags }

/-- Takes the letters after a single hyphen. -/
def addShort (scope : Scope) (g : Given) : List Char → Except UsageError Given
  | [] => .ok g
  | c :: cs =>
    match scope.shortFlag? c with
    | none => .error .unknownArgument
    | some f => do addShort scope (← g.addFlag f) cs

/-- Takes an option in its long form, with the value attached to it if there is one.  Says whether
its value is still to come. -/
def addLong (scope : Scope) (g : Given) (name : String) (attached : Option String) :
    Except UsageError (Given × Bool) :=
  match scope.flag? name with
  | some f =>
    if attached.isSome then .error .unexpectedValue
    else do return (← g.addFlag f, false)
  | none =>
    match option? name with
    | none => .error .unknownArgument
    | some s => do
      let g ← g.settle
      match attached with
      | some v => return (← g.accept s (some v), false)
      | none => return ({ g with pending := some (s, none) }, true)

/-- Takes the word of a command. -/
def addWord (scope : Scope) (literal : Bool) (g : Given) (arg : String) :
    Except UsageError Given :=
  match scope.word?, g.wordRead with
  | some s, false => do
    let g ← g.settle
    .ok { g with pending := some (s, some arg), wordRead := true }
  | _, _ =>
    if scope = .program && !(literal && commandNames.contains arg) then .error .unknownCommand
    else .error .unknownArgument

end Given

/-- The name of a long option, and the value attached to it. -/
def longOption? (arg : String) : Option (String × Option String) :=
  match arg.toList with
  | '-' :: '-' :: s =>
    match Text.cut? ['='] s with
    | none => some (String.ofList s, none)
    | some (name, value) => some (String.ofList name, some (String.ofList value))
  | _ => none

/-- The letters of short options. -/
def shortOptions? (arg : String) : Option (List Char) :=
  match arg.toList with
  | '-' :: c :: s => some (c :: s)
  | _ => none

/-- Reads the arguments of a scope, up to the name of a command.  `awaiting` says whether the value
of an option comes next, and `literal` whether only words follow. -/
def readScope (scope : Scope) (g : Given) (awaiting literal : Bool) :
    List String → Except UsageError (Given × Option (String × List String))
  | [] => .ok (g, none)
  | arg :: args =>
    if literal then do readScope scope (← g.addWord scope true arg) awaiting true args
    else if scope = .program ∧ !awaiting ∧ commandNames.contains arg then
      .ok (g, some (arg, args))
    else if arg = "--" then readScope scope g awaiting true args
    else
      match longOption? arg, shortOptions? arg with
      | some (name, attached), _ => do
        let (g, awaiting) ← g.addLong scope name attached
        readScope scope g awaiting false args
      | none, some cs => do readScope scope (← g.addShort scope cs) false false args
      | none, none =>
        if awaiting then
          readScope scope { g with pending := g.pending.map fun (s, _) => (s, some arg) }
            false false args
        else do readScope scope (← g.addWord scope false arg) false false args

/-! ## The whole command line -/

/-- No scope may be both quiet and verbose. -/
def checkConflict (g : Given) : Except UsageError Unit :=
  if g.has .quiet && g.has .verbose then .error .conflict else .ok ()

/-- Reads the arguments after a command and checks them. -/
def readCommand (scope : Scope) (args : List String) : Except UsageError Given := do
  let (g, _) ← readScope scope {} false false args
  let g ← g.settle
  checkConflict g
  if scope = .completion && (g.value? .shell).isNone then .error .missingRequired else .ok g

/-- What asking for help leads to: the help of a command that exists. -/
def helpAnswer : List String → UsageError
  | [] => .help
  | [name] => if commandNames.contains name then .help else .unknownCommand
  | _ => .unknownCommand

/-- Checks what stands in front of the command, if there is one. -/
def checkProgram (g : Given) (hasCommand : Bool) : Except UsageError Given := do
  let g ← g.settle
  if !hasCommand && g.flags.isEmpty && g.values.isEmpty then .error .nothingGiven
  else if !hasCommand then .error .missingCommand
  else do
    checkConflict g
    .ok g

/-- Puts together what stands in front of a command and after it. -/
def assemble (outer inner : Given) (command : Command) : Arguments where
  verbosity :=
    if inner.has .quiet || outer.has .quiet then .quiet
    else if inner.has .verbose || outer.has .verbose then .verbose
    else .normal
  config := (inner.value? .config).or (outer.value? .config)
  logFile := (inner.value? .logFile).or (outer.value? .logFile)
  command

def Arguments.parse (args : List String) : Except UsageError Arguments := do
  let (outer, command) ← readScope .program {} false false args
  match command with
  | none => do
    let _ ← checkProgram outer false
    .error .missingCommand
  | some ("parse", rest) => do
    let inner ← readCommand .parse rest
    let outer ← checkProgram outer true
    .ok (assemble outer inner (.parse {
      file := inner.value? .file
      json := inner.has .json
      noOutput := inner.has .noOutput
      strict := inner.has .strict }))
  | some ("completion", rest) => do
    let inner ← readCommand .completion rest
    let outer ← checkProgram outer true
    .ok (assemble outer inner (.completion ((inner.value? .shell).getD "")))
  | some (_, rest) => .error (helpAnswer rest)

end BuildTree.Cli
