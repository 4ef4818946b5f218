import BuildTree.Yaml.Property
import BuildTree.Yaml.Scalar

/-!
# Tokens

A YAML text as tokens.  Besides the indicators that are written, tokens mark where the
indentation opens and closes a collection.  A key is found when its colon is: the place
where a key may have started is remembered as a slot in the token list, and filled then.

    tokens? text = some ts   if every part of the text is a token
-/

namespace BuildTree.Yaml

/-! ## Tokens -/

/-- How a scalar is written, as far as it matters. -/
inductive Style where
  | plain | literal | other
  deriving DecidableEq, Repr

inductive Token where
  | documentStart | documentEnd
  | directive (d : Directive)
  | sequenceStart | mappingStart
  /-- The indentation closes a collection. -/
  | blockEnd
  | flowSequenceStart | flowSequenceEnd | flowMappingStart | flowMappingEnd
  /-- The hyphen in front of an entry. -/
  | entry
  /-- The comma between entries. -/
  | comma
  | key | value
  | alias (name : List Char)
  | anchor (name : List Char)
  | tag (handle suffix : List Char)
  | scalar (style : Style) (text : List Char)
  deriving DecidableEq, Repr

/-! ## The state between two tokens -/

/-- A token that turns out to be a key if a colon follows it on its line. -/
structure PossibleKey where
  /-- How many tokens stood before it. -/
  slot : Nat
  spot : Spot
  /-- Whether it has to be a key. -/
  required : Bool
  deriving DecidableEq, Repr

structure Scan where
  rest : Rest
  tokens : Array Token := #[]
  /-- The columns of the open block collections, innermost first. -/
  indents : List Nat := []
  /-- The possible key of the innermost flow collection, or of the block context. -/
  key : Option PossibleKey := none
  /-- The possible keys around the open flow collections, innermost first. -/
  outer : List (Option PossibleKey) := []
  /-- Whether a key may start here. -/
  keyAllowed : Bool := true

/-- The start of a key and its colon are at most this many bytes apart. -/
def keyReach : Nat := 1024

namespace Scan

def inFlow (s : Scan) : Bool := !s.outer.isEmpty

def column (s : Scan) : Nat := s.rest.spot.column

/-- The least column of a line that belongs to the innermost block collection. -/
def minColumn (s : Scan) : Nat := (s.indents.head?.map (· + 1)).getD 0

def emit (s : Scan) (t : Token) : Scan := { s with tokens := s.tokens.push t }

def allow (s : Scan) (b : Bool) : Scan := { s with keyAllowed := b }

/-- Skips `n` characters. -/
def skip (s : Scan) (n : Nat) : Scan := { s with rest := s.rest.skip n }

/-! ## Indentation -/

/-- Opens a block collection at a column, if that is deeper than the open ones; its start goes into
the given slot of the token list. -/
def indent (s : Scan) (column slot : Nat) (start : Token) : Scan :=
  if !s.inFlow && s.minColumn ≤ column then
    { s with indents := column :: s.indents, tokens := s.tokens.insertIdxIfInBounds slot start }
  else s

/-- Closes the block collections that are deeper than a column. -/
def dedent (s : Scan) (column : Nat) : Scan :=
  if s.inFlow then s
  else
    { s with
      indents := s.indents.dropWhile (column < ·)
      tokens := s.tokens ++ (s.indents.takeWhile (column < ·)).map fun _ => Token.blockEnd }

/-- Closes all block collections. -/
def dedentAll (s : Scan) : Scan :=
  if s.inFlow then s
  else { s with indents := [], tokens := s.tokens ++ s.indents.map fun _ => Token.blockEnd }

/-! ## Possible keys -/

/-- A possible key that the colon can no longer reach is none; a required one is an error. -/
def PossibleKey.recheck (p : Spot) : Option PossibleKey → Option (Option PossibleKey)
  | none => some none
  | some k =>
    if k.spot.line < p.line || k.spot.index + keyReach < p.index then
      if k.required then none else some none
    else some (some k)

/-- Rechecks the innermost possible key.  Those around it can wait until they are innermost again,
as a key that is out of reach stays so. -/
def recheckKey? (s : Scan) : Option Scan := do
  let key ← PossibleKey.recheck s.rest.spot s.key
  some { s with key }

/-- Gives up the possible key. -/
def dropKey? (s : Scan) : Option Scan :=
  if (s.key.map (·.required)).getD false then none else some { s with key := none }

/-- Remembers that a key may start here. -/
def noteKey? (s : Scan) : Option Scan :=
  if s.keyAllowed then do
    let s ← s.dropKey?
    let required := !s.inFlow && s.indents.head? = some s.column
    some { s with key := some ⟨s.tokens.size, s.rest.spot, required⟩ }
  else some s

/-! ## Between tokens -/

/-- Skips spacing, comments, line ends, and a byte order mark at the start of a line.  A tab is no
indentation: it may not stand where a key could start.  A line end in the block context lets a key
start. -/
def skipGap (inFlow : Bool) (keyAllowed : Bool) (comment : Bool) : List Char → Spot → Bool × Rest
  | [], p => (keyAllowed, ⟨[], p⟩)
  | c :: s, p =>
    if isBreak c then skipGap inFlow (keyAllowed || !inFlow) false s (p.after c)
    else if comment || c == ' ' || (c == '\t' && (inFlow || !keyAllowed))
        || (c == byteOrderMark && p.column == 0) then
      skipGap inFlow keyAllowed comment s (p.after c)
    else if c == '#' then skipGap inFlow keyAllowed true s (p.after c)
    else (keyAllowed, ⟨c :: s, p⟩)

def toNextToken (s : Scan) : Scan :=
  let (keyAllowed, rest) := skipGap s.inFlow s.keyAllowed false s.rest.chars s.rest.spot
  { s with keyAllowed, rest }

/-! ## Single tokens -/

def documentMarker? (s : Scan) (t : Token) : Option Scan := do
  let s ← s.dedentAll.dropKey?
  some (((s.allow false).skip 3).emit t)

def directive? (s : Scan) : Option Scan := do
  let s ← s.dedentAll.dropKey?
  let s := (s.allow false).skip 1
  let (d, rest) ← Yaml.directive? s.rest.chars
  let s := s.skip (s.rest.chars.length - rest.length)
  let rest ← s.rest.endLine?
  some ({ s with rest }.emit (.directive d))

def flowStart? (s : Scan) (t : Token) : Option Scan := do
  let s ← s.noteKey?
  some (({ s with outer := s.key :: s.outer, key := none, keyAllowed := true }.emit t).skip 1)

def flowEnd? (s : Scan) (t : Token) : Option Scan := do
  let s ← s.dropKey?
  let s :=
    match s.outer with
    | [] => s
    | key :: outer => { s with key, outer }
  some (((s.allow false).emit t).skip 1)

def comma? (s : Scan) : Option Scan := do
  let s ← s.dropKey?
  some (((s.allow true).emit .comma).skip 1)

/-- Opens the block collection that an indicator at this place starts, which may only stand where a
key may. -/
def openBlock? (s : Scan) (start : Token) : Option Scan :=
  if s.inFlow then some s
  else if s.keyAllowed then some (s.indent s.column s.tokens.size start)
  else none

def entry? (s : Scan) : Option Scan := do
  let s ← (← s.openBlock? .sequenceStart).dropKey?
  some (((s.allow true).emit .entry).skip 1)

def keyMark? (s : Scan) : Option Scan := do
  let s ← (← s.openBlock? .mappingStart).dropKey?
  some (((s.allow (!s.inFlow)).emit .key).skip 1)

/-- A colon: what stood at the slot of the possible key is a key, or else the key is empty or was
marked as such. -/
def value? (s : Scan) : Option Scan :=
  match s.key with
  | some k =>
    let s := { s with
      tokens := s.tokens.insertIdxIfInBounds k.slot .key
      key := none
      keyAllowed := false }
    some (((s.indent k.spot.column k.slot .mappingStart).emit .value).skip 1)
  | none => do
    let s ← s.openBlock? .mappingStart
    some (((s.allow (!s.inFlow)).emit .value).skip 1)

/-- A token that may start a key, read to the end of its text. -/
def word? (s : Scan) (skipped : Nat) (read : List Char → Option (Token × List Char)) :
    Option Scan := do
  let s ← s.noteKey?
  let s := (s.allow false).skip skipped
  let (t, rest) ← read s.rest.chars
  some ((s.skip (s.rest.chars.length - rest.length)).emit t)

def anchor? (s : Scan) : Option Scan :=
  s.word? 1 fun cs => (anchorName? cs).map fun (name, cs) => (.anchor name, cs)

def alias? (s : Scan) : Option Scan :=
  s.word? 1 fun cs => (anchorName? cs).map fun (name, cs) => (.alias name, cs)

def tag? (s : Scan) : Option Scan :=
  s.word? 0 fun cs => (Yaml.tag? s.inFlow cs).map fun ((handle, suffix), cs) =>
    (.tag handle suffix, cs)

def block? (s : Scan) (folded : Bool) : Option Scan := do
  let s ← s.dropKey?
  let s := (s.allow true).skip 1
  let (text, rest) ← readBlock folded s.minColumn s.rest.chars s.rest.spot
  some ({ s with rest }.emit (.scalar (if folded then .other else .literal) text))

def quoted? (s : Scan) (single : Bool) : Option Scan := do
  let s ← s.noteKey?
  let s := (s.allow false).skip 1
  let (text, rest) ← readQuoted single [] {} .text s.rest.chars s.rest.spot
  some ({ s with rest }.emit (.scalar .other text))

def plain? (s : Scan) : Option Scan := do
  let s ← s.noteKey?
  let (text, broken, rest) ←
    readPlain s.inFlow s.minColumn [] {} false s.rest.chars s.rest.spot
  some ({ s with rest, keyAllowed := broken }.emit (.scalar .plain text))

/-- Characters that start something else than a plain scalar. -/
def isIndicator (c : Char) : Bool := "-?:,[]\x7b\x7d#&*!|>'\"%@\x60".toList.contains c

/-- Whether a plain scalar may start with a character that is followed by `s`. -/
def startsPlain (inFlow : Bool) (c : Char) (s : List Char) : Bool :=
  !(isIndicator c || isSpacing c || isBreak c)
    || (c == '-' && !(s.head?.map isSpacing).getD false)
    || (!inFlow && (c == '?' || c == ':') && !atGap s)

/-- Reads the token that starts with `c`, after which `cs` follows. -/
def token? (s : Scan) (c : Char) (cs : List Char) : Option Scan :=
  if s.column == 0 && c == '%' then s.directive?
  else if atMarker '-' s.column (c :: cs) then s.documentMarker? .documentStart
  else if atMarker '.' s.column (c :: cs) then s.documentMarker? .documentEnd
  else if c == '[' then s.flowStart? .flowSequenceStart
  else if c == '{' then s.flowStart? .flowMappingStart
  else if c == ']' then s.flowEnd? .flowSequenceEnd
  else if c == '}' then s.flowEnd? .flowMappingEnd
  else if c == ',' then s.comma?
  else if c == '-' && atGap cs then s.entry?
  else if c == '?' && (s.inFlow || atGap cs) then s.keyMark?
  else if c == ':' && (s.inFlow || atGap cs) then s.value?
  else if c == '*' then s.alias?
  else if c == '&' then s.anchor?
  else if c == '!' then s.tag?
  else if c == '|' && !s.inFlow then s.block? false
  else if c == '>' && !s.inFlow then s.block? true
  else if c == '\'' then s.quoted? true
  else if c == '"' then s.quoted? false
  else if startsPlain s.inFlow c cs then s.plain?
  else none

/-- The end of the text: everything open is closed. -/
def finish? (s : Scan) : Option (List Token) := do
  let s ← s.dedentAll.dropKey?
  some s.tokens.toList

/-- Reads tokens to the end of the text.  Every token has at least one character, so their number
is bounded by that of the characters. -/
def run : Nat → Scan → Option (List Token)
  | 0, _ => none
  | fuel + 1, s => do
    let s ← s.toNextToken.recheckKey?
    let s := s.dedent s.column
    match s.rest.chars with
    | [] => s.finish?
    | c :: cs => run fuel (← s.token? c cs)

end Scan

def tokens? (text : String) : Option (List Token) := do
  let chars ← prepare? text
  Scan.run (chars.length + 1) { rest := ⟨chars, {}⟩ }

end BuildTree.Yaml
