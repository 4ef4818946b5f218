import BuildTree.Spy.Kind
import BuildTree.Text.Digit
import BuildTree.Text.Cut
import BuildTree.Text.Quoted

/-!
# Spy messages

The listener inside a build writes its events between the ordinary output lines, one
message a line:

    [IJ]-<thread>-[IJ]-<kind>-[IJ]-<key>=<value>-[IJ]-<key>=<value>…

The thread is a decimal number below 2^64.  A line feed inside a value is written
`-[N]-`.  A field without exactly one `=` is skipped, and of two fields with one key the
later one counts.  `encode` writes a message, `decode` reads one and says why it cannot.
-/

namespace BuildTree.Spy

open Text

/-! ## Algorithm -/

/-- The mark at the start of every spy line. -/
def lineMark : List Char := "[IJ]-".toList

/-- The mark between the thread, the kind and the fields. -/
def fieldMark : List Char := "-[IJ]-".toList

/-- A line feed inside a value, as it is written. -/
def lineFeedMark : List Char := "-[N]-".toList

/-- Threads are numbered below this bound, 2^64. -/
def threadBound : Nat := 0x10000000000000000

/-- Why a spy line is dropped. -/
inductive DecodeError where
  | notSpyLine
  | invalidThread (text : String)
  | missingSeparator
  | unknownKind (text : String)
  deriving DecidableEq, Repr

def DecodeError.message : DecodeError → String
  | .notSpyLine => "line does not start with the spy prefix"
  | .invalidThread t => "invalid thread id: " ++ String.ofList (quoted t.toList)
  | .missingSeparator => "missing separator before the event type"
  | .unknownKind t => "unknown event type: " ++ t

/-- One decoded message.  The fields stand in the order of the line. -/
structure Message where
  thread : Nat
  kind : Kind
  fields : List (String × String)
  deriving DecidableEq, Repr

namespace Message

/-- The value of a key: of fields with one key the last counts. -/
def value? (m : Message) (key : String) : Option String := m.fields.reverse.lookup key

/-- The value of a key, where an empty value and the word `null` stand for none. -/
def param? (m : Message) (key : String) : Option String :=
  (m.value? key).filter fun v => v ≠ "" && v ≠ "null"

/-- The keys of a message in ascending order, each once. -/
def keys (m : Message) : List String :=
  (m.fields.map (·.1)).eraseDups.mergeSort

end Message

/-- Whether a line carries the mark of the spy channel, readable or not. -/
def isSpyLine (raw : String) : Bool := (after? lineMark raw.toList).isSome

/-- A kind by its token. -/
def readKind (s : String) : Except DecodeError Kind :=
  match Kind.ofName? s with
  | some k => .ok k
  | none => .error (.unknownKind s)

/-- The number of a thread, which ends at the first hyphen. -/
def readThread (body : List Char) : Except DecodeError Nat :=
  let digits := body.takeWhile (· != '-')
  match below? threadBound digits with
  | some n => if '-' ∈ body then .ok n else .error (.invalidThread (String.ofList digits))
  | none => .error (.invalidThread (String.ofList digits))

/-- A field with exactly one `=`, its line feeds restored. -/
def field? (token : List Char) : Option (String × String) :=
  match cut? ['='] token with
  | none => none
  | some (key, value) =>
    if '=' ∈ value then none
    else some (String.ofList key, String.ofList (replaceAll lineFeedMark ['\n'] value))

def decode (raw : String) : Except DecodeError Message :=
  match after? lineMark (chomp raw.toList) with
  | none => .error .notSpyLine
  | some body => do
    let thread ← readThread body
    match after? fieldMark (body.dropWhile (· != '-')) with
    | none => .error .missingSeparator
    | some rest =>
      let tokens := splitAll fieldMark rest
      let kind ← readKind (String.ofList (tokens.headD []))
      .ok ⟨thread, kind, tokens.tail.filterMap field?⟩

/-- A field as it is written. -/
def encodeField (f : String × String) : List Char :=
  fieldMark ++ f.1.toList ++ '=' :: replaceAll ['\n'] lineFeedMark f.2.toList

def encode (thread : Nat) (kind : Kind) (fields : List (String × String)) : String :=
  String.ofList (lineMark ++ decimal thread ++ fieldMark ++ kind.name.toList
    ++ fields.flatMap encodeField)

end BuildTree.Spy
