/-! # Terminal styles

A styled text is enclosed in escape sequences. A text that resets the style inside gets it back
right after.
-/
namespace DelegateSafety

inductive Style where
  | bold | dimmed | green | yellow | boldYellow
  deriving DecidableEq

namespace Style

def opening : Style → String
  | bold => "\x1b[1m"
  | dimmed => "\x1b[2m"
  | green => "\x1b[32m"
  | yellow => "\x1b[33m"
  | boldYellow => "\x1b[1;33m"

def reset : String := "\x1b[0m"

def paint (style : Style) (color : Bool) (text : String) : String :=
  if color then style.opening ++ text.replace reset (reset ++ style.opening) ++ reset else text

end Style

end DelegateSafety
