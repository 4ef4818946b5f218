/-!
# Characters of a YAML text

Before anything is read, a text is checked for characters that YAML forbids, and all line
ends that count as a line feed become one.  After that every character is one step, and a
line ends at one character.
-/

namespace BuildTree.Yaml

/-- The characters that may stand in a text. -/
def isAllowed (c : Char) : Bool :=
  let n := c.toNat
  n == 0x9 || n == 0xA || n == 0xD || (0x20 ≤ n && n ≤ 0x7E) || n == 0x85
    || (0xA0 ≤ n && n ≤ 0xFFFD) || 0x10000 ≤ n

/-- Line ends as line feeds.  The separators U+2028 and U+2029 end a line too, but stay. -/
def unifyBreaks : List Char → List Char
  | '\r' :: '\n' :: s => '\n' :: unifyBreaks s
  | c :: s => (if c = '\r' ∨ c = '\u0085' then '\n' else c) :: unifyBreaks s
  | [] => []

/-- The characters of a text as they are read, unless it holds a forbidden one. -/
def prepare? (text : String) : Option (List Char) :=
  let s := text.toList
  if s.all isAllowed then some (unifyBreaks s) else none

/-- The mark that may stand at the start of a line, in front of everything else.  It takes up a
column. -/
def byteOrderMark : Char := '\uFEFF'

def isBreak (c : Char) : Bool := c == '\n' || c == '\u2028' || c == '\u2029'

def isSpacing (c : Char) : Bool := c == ' ' || c == '\t'

/-- Letters, digits, hyphen and underscore, of which names are made. -/
def isWordChar (c : Char) : Bool := c.isAlphanum || c == '_' || c == '-'

/-- The value of a hexadecimal digit of either case. -/
def hexValue? (c : Char) : Option Nat :=
  if c.isDigit then some (c.toNat - 48)
  else if 'a' ≤ c ∧ c ≤ 'f' then some (c.toNat - 87)
  else if 'A' ≤ c ∧ c ≤ 'F' then some (c.toNat - 55)
  else none

/-- Whether a line ends here, or the text. -/
def atBreak : List Char → Bool
  | [] => true
  | c :: _ => isBreak c

/-- Whether spacing follows, or the end of a line or of the text. -/
def atGap : List Char → Bool
  | [] => true
  | c :: _ => isSpacing c || isBreak c

/-- Three characters at the start of a line with a gap after them, which begin or end a
document. -/
def atMarker (marker : Char) (column : Nat) : List Char → Bool
  | a :: b :: c :: s => column == 0 && a == marker && b == marker && c == marker && atGap s
  | _ => false

def atDocumentMarker (column : Nat) (s : List Char) : Bool :=
  atMarker '-' column s || atMarker '.' column s

/-- A place in a text. -/
structure Spot where
  /-- The UTF-8 length of the characters in front of it. -/
  index : Nat := 0
  line : Nat := 0
  /-- The number of characters in front of it on its line. -/
  column : Nat := 0
  deriving DecidableEq, Repr

/-- The place after a character. -/
def Spot.after (p : Spot) (c : Char) : Spot :=
  if isBreak c then ⟨p.index + c.utf8Size, p.line + 1, 0⟩
  else ⟨p.index + c.utf8Size, p.line, p.column + 1⟩

/-- The place after some characters. -/
def Spot.afterAll (p : Spot) (s : List Char) : Spot := s.foldl Spot.after p

/-- What is left of a text, and the place where it starts. -/
structure Rest where
  chars : List Char
  spot : Spot
  deriving DecidableEq, Repr

namespace Rest

/-- Without the longest prefix whose characters all satisfy `p`. -/
def skipWhile (p : Char → Bool) (r : Rest) : Rest :=
  ⟨r.chars.dropWhile p, r.spot.afterAll (r.chars.takeWhile p)⟩

/-- Without the first `n` characters. -/
def skip (n : Nat) (r : Rest) : Rest := ⟨r.chars.drop n, r.spot.afterAll (r.chars.take n)⟩

/-- Without spacing, a comment, and the line end; nothing else may stand there. -/
def endLine? (r : Rest) : Option Rest :=
  let r := r.skipWhile isSpacing
  let r := if r.chars.head? = some '#' then r.skipWhile fun c => !isBreak c else r
  if atBreak r.chars then some (r.skip 1) else none

end Rest

end BuildTree.Yaml
