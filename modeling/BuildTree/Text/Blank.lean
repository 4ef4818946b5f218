/-!
# Blank characters

Blank means the Unicode property White_Space: the table below lists its 25 code
points.  Trimming removes blanks at the ends of a text and nothing else.

    trimStart s = s without its longest blank prefix
    trimEnd s   = s without its longest blank suffix
    trim s      = both

Line ends are a separate notion: `chomp` removes line feeds and carriage returns
from the end only.
-/

namespace BuildTree.Text

/-- The code points with the property White_Space, as closed ranges in ascending order. -/
def blankRanges : List (Nat × Nat) :=
  [(0x9, 0xD), (0x20, 0x20), (0x85, 0x85), (0xA0, 0xA0), (0x1680, 0x1680), (0x2000, 0x200A),
   (0x2028, 0x2029), (0x202F, 0x202F), (0x205F, 0x205F), (0x3000, 0x3000)]

/-- Whether a character belongs to a table of closed ranges. -/
def inRanges (ranges : List (Nat × Nat)) (c : Char) : Bool :=
  ranges.any fun r => r.1 ≤ c.toNat && c.toNat ≤ r.2

def isBlank (c : Char) : Bool := inRanges blankRanges c

/-- Drops the longest suffix whose characters all satisfy `p`. -/
def dropEndWhile (p : Char → Bool) (s : List Char) : List Char :=
  (s.reverse.dropWhile p).reverse

def trimStart (s : List Char) : List Char := s.dropWhile isBlank

def trimEnd (s : List Char) : List Char := dropEndWhile isBlank s

def trim (s : List Char) : List Char := trimEnd (trimStart s)

def isLineEnd (c : Char) : Bool := c == '\n' || c == '\r'

/-- Drops the line end: every line feed and carriage return at the end. -/
def chomp (s : List Char) : List Char := dropEndWhile isLineEnd s

/-- A text that holds nothing but blanks. -/
def allBlank (s : List Char) : Bool := s.all isBlank

/-- A text whose first character is a blank. -/
def startsBlank : List Char → Bool
  | [] => false
  | c :: _ => isBlank c

/-! ## Lemmas -/

theorem exists_append_dropEndWhile (p : Char → Bool) (s : List Char) :
    ∃ t, s = dropEndWhile p s ++ t ∧ t.all p = true := by
  refine ⟨(s.reverse.takeWhile p).reverse, ?_, ?_⟩
  · rw [dropEndWhile, ← List.reverse_append, List.takeWhile_append_dropWhile, List.reverse_reverse]
  · rw [List.all_reverse]
    exact List.all_takeWhile

theorem chomp_eq_self {s : List Char} (h : ∀ c, s.getLast? = some c → isLineEnd c = false) :
    chomp s = s := by
  cases hs : s.reverse with
  | nil => simp [chomp, dropEndWhile, List.reverse_eq_nil_iff.1 hs]
  | cons c init =>
    have hc : isLineEnd c = false := h c (by rw [← List.head?_reverse, hs]; rfl)
    rw [chomp, dropEndWhile, hs, List.dropWhile_cons_of_neg (by simp [hc]), ← hs,
      List.reverse_reverse]

end BuildTree.Text
