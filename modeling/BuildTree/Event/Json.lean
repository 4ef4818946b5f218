import BuildTree.Event
import BuildTree.Text.Quoted

/-!
# Events in JSON

The compact JSON text of an event, for programs that read the stream.  The members stand in a
fixed order, the type of the event first, and a member without value is written as `null`.

    json (output parent text)
      = {"type":"output","parent":…,"text":…}
-/

namespace BuildTree

namespace Json

/-- The two digits after `\u00` of a control character. -/
def controlDigits (n : Nat) : List Char :=
  if n < 16 then '0' :: Text.hexDigits n else Text.hexDigits n

/-- Quotes, backslashes and the ASCII controls are escaped; nothing else is. -/
def escapeChar (c : Char) : List Char :=
  if c = '"' then ['\\', '"']
  else if c = '\\' then ['\\', '\\']
  else if c = '\n' then ['\\', 'n']
  else if c = '\r' then ['\\', 'r']
  else if c = '\t' then ['\\', 't']
  else if c = '\x08' then ['\\', 'b']
  else if c = '\x0c' then ['\\', 'f']
  else if c.toNat < 32 then ['\\', 'u', '0', '0'] ++ controlDigits c.toNat
  else [c]

def string (s : String) : String :=
  "\"" ++ String.ofList (s.toList.flatMap escapeChar) ++ "\""

def number (n : Nat) : String := toString n

def orNull {α : Type} (write : α → String) : Option α → String
  | some a => write a
  | none => "null"

/-- An object with the given members, in their order. -/
def object (members : List (String × String)) : String :=
  "\x7b" ++ ",".intercalate (members.map fun (k, v) => string k ++ ":" ++ v) ++ "\x7d"

end Json

open Json

def EventId.json (id : EventId) : String := Json.string id.text

def Position.json (p : Position) : String :=
  object [("path", Json.string p.path), ("line", orNull number p.line),
    ("column", orNull number p.column)]

def Outcome.json (o : Outcome) : String :=
  object (("status", Json.string o.status) ::
    match o with
    | .failure message => [("message", Json.string message)]
    | _ => [])

def Event.json : Event → String
  | .started id parent time name =>
    object [("type", Json.string "started"), ("id", id.json),
      ("parent", orNull EventId.json parent), ("timestamp", number time),
      ("name", Json.string name)]
  | .finished id parent time name outcome =>
    object [("type", Json.string "finished"), ("id", id.json),
      ("parent", orNull EventId.json parent), ("timestamp", number time),
      ("name", Json.string name), ("result", outcome.json)]
  | .output parent text =>
    object [("type", Json.string "output"), ("parent", parent.json), ("text", Json.string text)]
  | .message parent severity title text position =>
    object [("type", Json.string "message"), ("parent", parent.json),
      ("kind", Json.string severity.text), ("title", Json.string title),
      ("text", Json.string text), ("position", orNull Position.json position)]

end BuildTree
