import BuildTree.Text.Cut

/-!
# Painted texts

Texts with terminal colours.  A painted text stands between an escape sequence that sets
its codes and the one that resets them; a reset inside the text is followed by the codes
again, so that it does not end the painting.  Without colours every text stays as it is.
-/

namespace BuildTree

/-- How a text is painted. -/
inductive Paint where
  | bold | dimmed | red | green | yellow | cyan
  | boldRed | boldGreen | boldYellow | boldBlue
  deriving DecidableEq, Repr

namespace Paint

/-- The codes of a paint; the weight comes before the colour. -/
def codes : Paint → String
  | bold => "1"
  | dimmed => "2"
  | red => "31"
  | green => "32"
  | yellow => "33"
  | cyan => "36"
  | boldRed => "1;31"
  | boldGreen => "1;32"
  | boldYellow => "1;33"
  | boldBlue => "1;34"

def reset : String := "\x1b[0m"

/-- The escape sequence that sets the codes. -/
def start (p : Paint) : String := "\x1b[" ++ p.codes ++ "m"

/-- A text in a paint, if colours are on. -/
def apply (color : Bool) (p : Paint) (text : String) : String :=
  if color then
    p.start ++ String.ofList
      (Text.replaceAll reset.toList (reset ++ p.start).toList text.toList) ++ reset
  else text

end Paint

end BuildTree
