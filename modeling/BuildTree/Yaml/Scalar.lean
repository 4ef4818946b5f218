import BuildTree.Yaml.Character

/-!
# Scalars

The five ways to write a text in YAML: plain, in single or double quotes, and as a block,
literal or folded.  Each reader returns the text and what follows it.

Between the words of a plain or quoted scalar stands a gap.  A gap within one line is kept;
of a gap with line ends, one line feed becomes a blank and further ones stay.
-/

namespace BuildTree.Yaml

/-! ## Gaps -/

/-- The spacing and line ends since the last word, newest first. -/
structure Gap where
  spacing : List Char := []
  /-- Whether a line ended, written out or escaped. -/
  broken : Bool := false
  /-- The first line end, unless it was escaped. -/
  first : Option Char := none
  further : List Char := []
  deriving DecidableEq, Repr

namespace Gap

def addSpacing (g : Gap) (c : Char) : Gap :=
  if g.broken then g else { g with spacing := c :: g.spacing }

def addBreak (g : Gap) (c : Char) : Gap :=
  if g.broken then { g with further := c :: g.further }
  else { spacing := [], broken := true, first := some c }

/-- A gap that starts with an escaped line end. -/
def escaped : Gap := { broken := true }

/-- What a gap leaves between two words. -/
def text (g : Gap) : List Char :=
  if g.broken then
    if g.first = some '\n' then
      if g.further.isEmpty then [' '] else g.further.reverse
    else g.first.toList ++ g.further.reverse
  else g.spacing.reverse

end Gap

/-! ## Plain scalars -/

/-- Whether a plain scalar ends at this character, which is no gap. -/
def endsPlain (flow : Bool) : List Char → Bool
  | [] => true
  | c :: s => (c == ':' && atGap s) || (flow && [',', '[', ']', '{', '}'].contains c)

/-- A colon that a flow collection neither takes for a separator nor for text. -/
def isStrayColon (flow : Bool) : List Char → Bool
  | ':' :: c :: _ => flow && [',', '?', '[', ']', '{', '}'].contains c
  | _ => false

/-- A plain scalar whose lines are indented by at least `indent`, unless it stands in a flow
collection.  `text` holds what was read, newest first; `inGap` says whether a gap was read since.
Also gives whether a line ended in the gap after the scalar. -/
def readPlain (flow : Bool) (indent : Nat) (text : List Char) (gap : Gap) (inGap : Bool) :
    List Char → Spot → Option (List Char × Bool × Rest)
  | [], p => some (text.reverse, gap.broken, ⟨[], p⟩)
  | c :: s, p =>
    if isSpacing c then
      if gap.broken && p.column < indent && c == '\t' then none
      else readPlain flow indent text (gap.addSpacing c) true s (p.after c)
    else if isBreak c then readPlain flow indent text (gap.addBreak c) true s (p.after c)
    else if (inGap && ((!flow && p.column < indent) || c == '#'))
        || atDocumentMarker p.column (c :: s) then
      some (text.reverse, gap.broken, ⟨c :: s, p⟩)
    else if isStrayColon flow (c :: s) then none
    else if endsPlain flow (c :: s) then some (text.reverse, gap.broken, ⟨c :: s, p⟩)
    else readPlain flow indent (c :: (gap.text.reverse ++ text)) {} false s (p.after c)

/-! ## Quoted scalars -/

/-- Where a reader of a quoted scalar stands. -/
inductive Quoting where
  | text
  /-- After a quote that may be the first of two. -/
  | quote
  /-- After a backslash. -/
  | backslash
  /-- Within a character code: the digits still to come, and the value so far. -/
  | code (left value : Nat)

/-- The character of an escape of two characters. -/
def escaped? : Char → Option Char
  | '0' => some '\x00'
  | 'a' => some '\x07'
  | 'b' => some '\x08'
  | 't' => some '\t'
  | '\t' => some '\t'
  | 'n' => some '\n'
  | 'v' => some '\x0b'
  | 'f' => some '\x0c'
  | 'r' => some '\r'
  | 'e' => some '\x1b'
  | ' ' => some ' '
  | '"' => some '"'
  | '/' => some '/'
  | '\\' => some '\\'
  | 'N' => some '\u0085'
  | '_' => some '\u00a0'
  | 'L' => some '\u2028'
  | 'P' => some '\u2029'
  | _ => none

/-- The number of digits of an escape by character code. -/
def codeLength? : Char → Option Nat
  | 'x' => some 2
  | 'u' => some 4
  | 'U' => some 8
  | _ => none

/-- The character of a code, which is no surrogate and not beyond U+10FFFF. -/
def charOfCode? (n : Nat) : Option Char :=
  if n.isValidChar then some (Char.ofNat n) else none

/-- The rest of a scalar in single or double quotes, after the opening quote.  `text` holds what was
read, newest first. -/
def readQuoted (single : Bool) (text : List Char) (gap : Gap) (q : Quoting) :
    List Char → Spot → Option (List Char × Rest)
  | [], p =>
    match q with
    | .quote => some (text.reverse, ⟨[], p⟩)
    | _ => none
  | c :: s, p =>
    match q with
    | .quote =>
      if c = '\'' then readQuoted single ('\'' :: text) {} .text s (p.after c)
      else some (text.reverse, ⟨c :: s, p⟩)
    | .backslash =>
      if isBreak c then readQuoted single text .escaped .text s (p.after c)
      else
        match escaped? c, codeLength? c with
        | some e, _ => readQuoted single (e :: text) {} .text s (p.after c)
        | none, some n => readQuoted single text {} (.code n 0) s (p.after c)
        | none, none => none
    | .code left value =>
      match hexValue? c with
      | none => none
      | some d =>
        if left = 1 then
          match charOfCode? (16 * value + d) with
          | none => none
          | some e => readQuoted single (e :: text) {} .text s (p.after c)
        else readQuoted single text {} (.code (left - 1) (16 * value + d)) s (p.after c)
    | .text =>
      if isSpacing c then readQuoted single text (gap.addSpacing c) .text s (p.after c)
      else if isBreak c then readQuoted single text (gap.addBreak c) .text s (p.after c)
      else if atDocumentMarker p.column (c :: s) then none
      else
        let text := gap.text.reverse ++ text
        if single then
          if c = '\'' then readQuoted single text {} .quote s (p.after c)
          else readQuoted single (c :: text) {} .text s (p.after c)
        else if c = '"' then some (text.reverse, ⟨s, p.after c⟩)
        else if c = '\\' then readQuoted single text {} .backslash s (p.after c)
        else readQuoted single (c :: text) {} .text s (p.after c)

/-! ## Block scalars -/

/-- What becomes of the line ends at the end of a block. -/
inductive Chomping where
  /-- None is kept. -/
  | strip
  /-- The first is kept. -/
  | clip
  /-- All are kept. -/
  | keep
  deriving DecidableEq, Repr

def chomping? : List Char → Chomping × List Char
  | '-' :: s => (.strip, s)
  | '+' :: s => (.keep, s)
  | s => (.clip, s)

/-- An indentation given by a digit; it is not zero. -/
def indentation? : List Char → Option (Nat × List Char)
  | [] => some (0, [])
  | c :: s =>
    if c = '0' then none
    else if c.isDigit then some (c.toNat - 48, s)
    else some (0, c :: s)

/-- The header of a block: chomping and indentation in either order, zero for none. -/
def blockHeader? (s : List Char) : Option (Chomping × Nat × List Char) :=
  match chomping? s with
  | (.clip, s) => do
    let (indent, s) ← indentation? s
    if indent = 0 then some (.clip, 0, s)
    else
      let (chomping, s) := chomping? s
      some (chomping, indent, s)
  | (chomping, s) => do
    let (indent, s) ← indentation? s
    some (chomping, indent, s)

/-- The indentation and the empty lines in front of a line of a block.  With `indent` zero the
indentation is not known yet.  Gives the deepest column reached and the line ends, newest first. -/
def readMargin (indent deepest : Nat) (breaks : List Char) :
    List Char → Spot → Option (Nat × List Char × Rest)
  | [], p => some (max deepest p.column, breaks, ⟨[], p⟩)
  | c :: s, p =>
    let within := indent == 0 || p.column < indent
    if c == ' ' && within then readMargin indent deepest breaks s (p.after c)
    else if c == '\t' && within then none
    else if isBreak c then readMargin indent (max deepest p.column) (c :: breaks) s (p.after c)
    else some (max deepest p.column, breaks, ⟨c :: s, p⟩)

/-- What stands between two lines of a block: `first` is the line end of the upper one, `further`
the line ends of empty lines.  A folded block joins lines that do not start with spacing. -/
def blockJoin (folded upperSpaced lowerSpaced : Bool) (first further : List Char) : List Char :=
  if folded && first == ['\n'] && !upperSpaced && !lowerSpaced then
    if further.isEmpty then [' '] else further
  else first ++ further

/-- The lines of a block from a line at its indentation on.  `text` holds what was read; `first` is
the line end before, `further` those of empty lines, and `spaced` says whether the line before
started with spacing. -/
def readBlockLines (folded : Bool) (indent : Nat) (text first further : List Char)
    (spaced : Bool) (r : Rest) : Option (List Char × List Char × List Char × Rest) :=
  if r.spot.column != indent || r.chars.isEmpty then some (text, first, further, r)
  else
    let line := r.chars.takeWhile fun c => !isBreak c
    let lowerSpaced := (line.head?.map isSpacing).getD false
    let text := text ++ blockJoin folded spaced lowerSpaced first further ++ line
    let r' := r.skip line.length
    let first := r'.chars.take 1
    let r' := r'.skip 1
    match readMargin indent 0 [] r'.chars r'.spot with
    | none => none
    | some (_, breaks, r'') =>
      if _h : r''.chars.length < r.chars.length then
        readBlockLines folded indent text first breaks.reverse lowerSpaced r''
      else none
termination_by r.chars.length

/-- A block scalar after its indicator, inside a block indented to `outer - 1`. -/
def readBlock (folded : Bool) (outer : Nat) (s : List Char) (p : Spot) :
    Option (List Char × Rest) := do
  let (chomping, given, s') ← blockHeader? s
  let r ← Rest.endLine? (Rest.mk s p |>.skip (s.length - s'.length))
  let indent := if given = 0 then 0 else (outer - 1) + given
  let (deepest, breaks, r) ← readMargin indent 0 [] r.chars r.spot
  let indent := if indent = 0 then max (max deepest outer) 1 else indent
  let (text, first, further, r) ← readBlockLines folded indent [] [] breaks.reverse false r
  let kept :=
    match chomping with
    | .strip => []
    | .clip => first
    | .keep => first ++ further
  some (text ++ kept, r)

end BuildTree.Yaml
