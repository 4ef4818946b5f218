import BuildTree.Text.Cut
import BuildTree.Text.Digit
import BuildTree.Text.Utf8
import BuildTree.Yaml.Character

/-!
# Anchors, tags and directives

The readers of what stands around the content of a YAML text: names of anchors and aliases,
tags with their handles, and the directives in front of a document.  Each returns what it
read and the characters after it.
-/

namespace BuildTree.Yaml

open Text

/-! ## Anchors -/

/-- The name of an anchor or alias; it ends before a gap or one of some indicators. -/
def anchorName? (s : List Char) : Option (List Char × List Char) :=
  let name := s.takeWhile isWordChar
  let s := s.dropWhile isWordChar
  let ended := atGap s ||
    (s.head?.map ['?', ':', ',', ']', '}', '%', '@', '\x60'].contains).getD true
  if !name.isEmpty && ended then some (name, s) else none

/-! ## Tags -/

/-- Characters of a tag that stand for themselves; some of them only in a delimited tag. -/
def isTagChar (delimited : Bool) (c : Char) : Bool :=
  isWordChar c || ";/?:@&=+$.!~*'()".toList.contains c || (delimited && ",[]".toList.contains c)

/-- The number of bytes of an escaped character by its first byte. -/
def escapedWidth? (b : Nat) : Option Nat :=
  if b < 0x80 then some 1
  else if b / 32 = 6 then some 2
  else if b / 16 = 14 then some 3
  else if b / 8 = 30 then some 4
  else none

/-- The text of a tag.  A percent sign escapes a byte by two digits, and the bytes of one character
follow each other; `left` counts the bytes of such a character still to come.  The bytes read so
far come first, newest first. -/
def tagText? (delimited : Bool) (bytes : List UInt8) (left : Nat) :
    List Char → Option (List UInt8 × List Char)
  | '%' :: a :: b :: s => do
    let value := 16 * (← hexValue? a) + (← hexValue? b)
    let byte := UInt8.ofNat value
    if left = 0 then
      let width ← escapedWidth? value
      tagText? delimited (byte :: bytes) (width - 1) s
    else if value / 64 = 2 then tagText? delimited (byte :: bytes) (left - 1) s
    else none
  | c :: s =>
    if left = 0 && isTagChar delimited c then
      tagText? delimited (c.toString.toUTF8.toList.reverse ++ bytes) 0 s
    else if left = 0 && c != '%' then some (bytes.reverse, c :: s)
    else none
  | [] => if left = 0 then some (bytes.reverse, []) else none

/-- A tag text with what a handle read before it; together they are not empty.  A zero byte, which
only an escape can give, ends the text, and what is written after it is lost. -/
def tagSuffix? (delimited : Bool) (head s : List Char) : Option (List Char × List Char) := do
  let (bytes, rest) ← tagText? delimited [] 0 s
  if bytes.isEmpty && head.isEmpty then none
  else some (head.drop 1 ++ decodeLossy (bytes.takeWhile (· != 0)), rest)

/-- The handle of a tag: an exclamation mark, a word, and perhaps another mark. -/
def tagHandle? : List Char → Option (List Char × List Char)
  | '!' :: s =>
    let word := s.takeWhile isWordChar
    match s.dropWhile isWordChar with
    | '!' :: s => some ('!' :: word ++ ['!'], s)
    | s => some ('!' :: word, s)
  | _ => none

/-- A tag as a handle and a suffix.  The handle is empty if the suffix says all. -/
def tag? (flow : Bool) (s : List Char) : Option ((List Char × List Char) × List Char) := do
  let (tag, s) ←
    match after? ['!', '<'] s with
    | some s => do
      let (suffix, s) ← tagSuffix? true [] s
      let s ← after? ['>'] s
      some (([], suffix), s)
    | none => do
      let (handle, s) ← tagHandle? s
      if handle.length > 1 && handle.getLast? = some '!' then
        let (suffix, s) ← tagSuffix? false [] s
        some ((handle, suffix), s)
      else
        let (suffix, s) ← tagSuffix? false handle s
        some (if suffix.isEmpty then ([], ['!']) else (['!'], suffix), s)
  if atGap s || (flow && s.head? = some ',') then some (tag, s) else none

/-! ## Directives -/

inductive Directive where
  | version (major minor : Nat)
  | handle (name target : List Char)
  deriving DecidableEq, Repr

/-- A number of at most nine digits. -/
def versionPart? (s : List Char) : Option (Nat × List Char) :=
  let digits := s.takeWhile Char.isDigit
  if digits.isEmpty || digits.length > 9 then none
  else some (decimalValue digits, s.dropWhile Char.isDigit)

/-- A directive after its percent sign, up to the spacing after it. -/
def directive? (s : List Char) : Option (Directive × List Char) := do
  let name := s.takeWhile isWordChar
  let s := s.dropWhile isWordChar
  if !atGap s then none
  else
    let s := s.dropWhile isSpacing
    if name = "YAML".toList then
      let (major, s) ← versionPart? s
      let s ← after? ['.'] s
      let (minor, s) ← versionPart? s
      some (.version major minor, s)
    else if name = "TAG".toList then
      let (handle, s) ← tagHandle? s
      if handle != ['!'] && (handle.length < 2 || handle.getLast? != some '!') then none
      else if !((s.head?.map isSpacing).getD false) then none
      else
        let (target, s) ← tagSuffix? true [] (s.dropWhile isSpacing)
        if atGap s then some (.handle handle target, s) else none
    else none

end BuildTree.Yaml
