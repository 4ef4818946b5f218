import BuildTree.Yaml.Token

/-!
# Nodes

A YAML document as a tree: scalars, sequences and mappings.  A node may have an anchor, and
an alias stands for an anchored node; those are kept in a table, as a node may hold an alias
of itself.

The number of an anchor is how many different names were given before it, so a name that is
given again takes a number that the next new name gets too.  An alias has the number of the
newest anchor of its name in front of it, and stands for the last node of the whole document
with that number: of `&a 1, &a 2, *a, &b 3` the alias stands for 3.

    documents? text = some []    the text holds no document
    documents? text = some [d]   it holds one
    documents? text = none       it is no YAML, or holds more than one document
-/

namespace BuildTree.Yaml

inductive Node where
  /-- A text with its resolved tag, if it has one. -/
  | scalar (tag : Option (List Char)) (style : Style) (text : List Char)
  /-- The last node whose anchor has a number. -/
  | alias (number : Nat)
  | sequence (items : List Node)
  | mapping (entries : List (Node × Node))

structure Document where
  root : Node
  /-- The anchored nodes with the numbers of their anchors, the last one in the document first. -/
  anchored : List (Nat × Node)

namespace Node

/-- A scalar that nobody wrote. -/
def absent : Node := .scalar none .plain []

/-- What an alias stands for; any other node stands for itself. -/
def resolve (anchored : List (Nat × Node)) : Node → Option Node
  | .alias n => anchored.lookup n
  | n => some n

end Node

/-! ## Reading -/

/-- What remains to be read of a document, and what its anchors and handles mean. -/
structure Reading where
  tokens : List Token
  handles : List (List Char × List Char)
  /-- The names given so far, each with the number of its newest anchor. -/
  names : List (List Char × Nat) := []
  /-- The numbers of the anchors so far, the newest first. -/
  numbers : List Nat := []
  /-- The finished anchored nodes, each with how many anchors stand in front of its own. -/
  anchored : List (Nat × Node) := []

/-- The anchored nodes with the numbers of their anchors, the last one first. -/
def Reading.table (r : Reading) : List (Nat × Node) :=
  let nodes := r.anchored.mergeSort fun a b => b.1 ≤ a.1
  r.numbers.zip (nodes.map (·.2))

abbrev Reader (α : Type) := StateT Reading Option α

namespace Reader

def peek : Reader (Option Token) := do return (← get).tokens.head?

def advance : Reader Unit := modify fun r => { r with tokens := r.tokens.tail }

/-- Takes the next token if it is the given one. -/
def take (t : Token) : Reader Bool := do
  if (← peek) = some t then
    advance
    return true
  else return false

def expect (t : Token) : Reader Unit := do
  if !(← take t) then failure

/-- Whether the next token is one of those given. -/
def atOneOf (ts : List Token) : Reader Bool := do
  match ← peek with
  | none => return false
  | some t => return ts.contains t

/-- The anchor and the tag of a node, in either order. -/
def properties : Reader (Option (List Char) × Option (List Char × List Char)) := do
  match ← peek with
  | some (.anchor a) =>
    advance
    match ← peek with
    | some (.tag h s) =>
      advance
      return (some a, some (h, s))
    | _ => return (some a, none)
  | some (.tag h s) =>
    advance
    match ← peek with
    | some (.anchor a) =>
      advance
      return (some a, some (h, s))
    | _ => return (none, some (h, s))
  | _ => return (none, none)

/-- A tag with its handle replaced by what that means. -/
def resolveTag : Option (List Char × List Char) → Reader (Option (List Char))
  | none => return none
  | some ([], suffix) => return some suffix
  | some (handle, suffix) => do
    match (← get).handles.lookup handle with
    | none => failure
    | some target => return some (target ++ suffix)

/-- Gives an anchor its number; returns how many anchors stand in front of it. -/
def nameAnchor (a : List Char) : Reader Nat := do
  let r ← get
  let n := r.names.length
  set { r with names := (a, n) :: r.names.filter (·.1 != a), numbers := n :: r.numbers }
  return r.numbers.length

def keepAnchored (place : Option Nat) (node : Node) : Reader Node := do
  match place with
  | none => return node
  | some n =>
    modify fun r => { r with anchored := (n, node) :: r.anchored }
    return node

/-- An alias of an anchor that was seen. -/
def aliasNode (a : List Char) : Reader Node := do
  match (← get).names.lookup a with
  | none => failure
  | some n => return .alias n

end Reader

open Reader

/-- Where a node stands: in a flow collection, in a block collection, or in a block mapping, where
a sequence need not be indented. -/
inductive Level where
  | flow | block | mappingPart
  deriving DecidableEq, Repr

mutual

/-- A node, content and properties.  `fuel` bounds the depth of the recursion. -/
def readNode (level : Level) : Nat → Reader Node
  | 0 => failure
  | fuel + 1 => do
    if let some (.alias a) := ← peek then
      advance
      return ← aliasNode a
    let (anchor, tag) ← properties
    let tagText ← resolveTag tag
    let place ← anchor.mapM nameAnchor
    let content ← readContent level (anchor.isSome || tag.isSome) tagText fuel
    keepAnchored place content

/-- The content of a node; with properties it may be missing. -/
def readContent (level : Level) (optional : Bool) (tag : Option (List Char)) : Nat → Reader Node
  | 0 => failure
  | fuel + 1 => do
    match ← peek with
    | some (.scalar style text) =>
      advance
      return .scalar tag style text
    | some .flowSequenceStart =>
      advance
      return .sequence (← readFlowItems true fuel)
    | some .flowMappingStart =>
      advance
      return .mapping (← readFlowEntries true fuel)
    | some .sequenceStart =>
      if level = .flow then failure
      advance
      return .sequence (← readBlockItems fuel)
    | some .mappingStart =>
      if level = .flow then failure
      advance
      return .mapping (← readBlockEntries fuel)
    | some .entry =>
      if level = .mappingPart then return .sequence (← readLooseItems fuel)
      if optional then return .scalar tag .plain []
      failure
    | _ =>
      if optional then return .scalar tag .plain []
      failure

/-- A node, or an absent one in front of one of the given tokens. -/
def readPart (level : Level) (enders : List Token) : Nat → Reader Node
  | 0 => failure
  | fuel + 1 => do
    if ← atOneOf enders then return .absent
    readNode level fuel

/-- The items of a block sequence, to its end. -/
def readBlockItems : Nat → Reader (List Node)
  | 0 => failure
  | fuel + 1 => do
    if ← take .blockEnd then return []
    expect .entry
    let item ← readPart .block [.entry, .blockEnd] fuel
    return item :: (← readBlockItems fuel)

/-- The items of a sequence that is not indented; it ends with the last hyphen. -/
def readLooseItems : Nat → Reader (List Node)
  | 0 => failure
  | fuel + 1 => do
    if ← take .entry then
      let item ← readPart .block [.entry, .key, .value, .blockEnd] fuel
      return item :: (← readLooseItems fuel)
    else return []

/-- The entries of a block mapping, to its end. -/
def readBlockEntries : Nat → Reader (List (Node × Node))
  | 0 => failure
  | fuel + 1 => do
    if ← take .blockEnd then return []
    expect .key
    let key ← readPart .mappingPart [.key, .value, .blockEnd] fuel
    let value ← if ← take .value then readPart .mappingPart [.key, .value, .blockEnd] fuel
      else pure .absent
    return (key, value) :: (← readBlockEntries fuel)

/-- The items of a flow sequence, to its end.  A key makes an item a mapping of one entry. -/
def readFlowItems (first : Bool) : Nat → Reader (List Node)
  | 0 => failure
  | fuel + 1 => do
    if ← take .flowSequenceEnd then return []
    if !first then expect .comma
    if ← take .flowSequenceEnd then return []
    let item ← if ← take .key then readFlowPair fuel else readNode .flow fuel
    return item :: (← readFlowItems false fuel)

/-- The mapping of one entry in a flow sequence.  An absent key takes the token after it along. -/
def readFlowPair : Nat → Reader Node
  | 0 => failure
  | fuel + 1 => do
    let key ← if ← atOneOf [.value, .comma, .flowSequenceEnd] then do
        advance
        pure .absent
      else readNode .flow fuel
    let value ← if ← take .value then readPart .flow [.comma, .flowSequenceEnd] fuel
      else pure .absent
    return .mapping [(key, value)]

/-- The entries of a flow mapping, to its end. -/
def readFlowEntries (first : Bool) : Nat → Reader (List (Node × Node))
  | 0 => failure
  | fuel + 1 => do
    if ← take .flowMappingEnd then return []
    if !first then expect .comma
    if ← take .flowMappingEnd then return []
    if ← take .key then
      let key ← readPart .flow [.value, .comma, .flowMappingEnd] fuel
      let value ← if ← take .value then readPart .flow [.comma, .flowMappingEnd] fuel
        else pure .absent
      return (key, value) :: (← readFlowEntries false fuel)
    else
      let key ← readNode .flow fuel
      return (key, .absent) :: (← readFlowEntries false fuel)

end

/-! ## Documents -/

/-- What the handles mean that need no directive. -/
def defaultHandles : List (List Char × List Char) :=
  [(['!'], ['!']), (['!', '!'], "tag:yaml.org,2002:".toList)]

/-- The directives in front of a document: at most one version, which has to be 1.1 or 1.2, and
each handle once. -/
def readDirectives (versioned : Bool) (handles : List (List Char × List Char)) :
    List Token → Option (List (List Char × List Char) × List Token)
  | .directive (.version major minor) :: ts =>
    if versioned || major != 1 || (minor != 1 && minor != 2) then none
    else readDirectives true handles ts
  | .directive (.handle name target) :: ts =>
    if (handles.lookup name).isSome then none
    else readDirectives versioned ((name, target) :: handles) ts
  | ts => some (handles, ts)

/-- The root of a document after its start mark; nothing at all is an absent scalar. -/
def readRoot (fuel : Nat) : Reader Node := do
  match ← peek with
  | none | some .documentStart | some .documentEnd | some (.directive _) => return .absent
  | _ => readNode .block fuel

/-- One document, with or without a start mark. -/
def readDocument (ts : List Token) : Option (Document × List Token) := do
  let (handles, rest) ← readDirectives false [] ts
  let marked := rest.head? = some .documentStart
  if !marked && rest.length != ts.length then none
  else
    let fuel := 4 * ts.length + 4
    let body := if marked then rest.tail else rest
    let reader := if marked then readRoot fuel else readNode .block fuel
    let (root, r) ← reader { tokens := body, handles := handles ++ defaultHandles }
    some (⟨root, r.table⟩, r.tokens)

/-- The document of a text, if there is one, and if there are not several. -/
def documents? (text : String) : Option (List Document) := do
  let ts ← tokens? text
  if ts.isEmpty then some []
  else
    let (d, rest) ← readDocument ts
    if (rest.dropWhile (· == .documentEnd)).isEmpty then some [d] else none

end BuildTree.Yaml
