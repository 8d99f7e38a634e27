/-! # Parts of texts

How a text begins, whether anything but space is in it, and the pieces between its separators.
-/
namespace DelegateSafety

def beginsWith (text start : String) : Bool := start.toList.isPrefixOf text.toList

/-- White space: the ASCII controls from tab to carriage return, and the spaces and line ends of
all scripts. -/
def isSpace (c : Char) : Bool :=
  let n := c.toNat
  (0x09 ≤ n && n ≤ 0x0D) || n == 0x20 || n == 0x85 || n == 0xA0 || n == 0x1680 ||
    (0x2000 ≤ n && n ≤ 0x200A) || n == 0x2028 || n == 0x2029 || n == 0x202F || n == 0x205F ||
    n == 0x3000

def isBlankText (s : String) : Bool := s.toList.all isSpace

/-- The pieces between the separators, one more than there are separators. -/
def cutAt (separates : α → Bool) : List α → List (List α)
  | [] => [[]]
  | a :: rest =>
    if separates a then [] :: cutAt separates rest
    else match cutAt separates rest with
      | [] => [[a]]
      | piece :: pieces => (a :: piece) :: pieces

/-- A list without the blank items at its two ends. -/
def trimmed (isBlank : α → Bool) (items : List α) : List α :=
  ((items.dropWhile isBlank).reverse.dropWhile isBlank).reverse

end DelegateSafety
