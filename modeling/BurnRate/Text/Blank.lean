/-!
White space and the trimming of texts.

Blank characters are those of Unicode's `White_Space` property. Trimming removes them from
both ends and nothing else.
-/

namespace BurnRate.Text

/-- The character has Unicode's `White_Space` property. -/
def isBlank (c : Char) : Bool :=
  let n := c.toNat
  (0x09 ≤ n && n ≤ 0x0d) || n == 0x20 || n == 0x85 || n == 0xa0 || n == 0x1680
    || (0x2000 ≤ n && n ≤ 0x200a) || n == 0x2028 || n == 0x2029 || n == 0x202f
    || n == 0x205f || n == 0x3000

/-- Removes blank characters from the front. -/
def trimStart (cs : List Char) : List Char := cs.dropWhile isBlank

/-- Removes blank characters from the end. -/
def trimEnd (cs : List Char) : List Char := (cs.reverse.dropWhile isBlank).reverse

/-- Removes blank characters from both ends. -/
def trim (s : String) : String := String.ofList (trimEnd (trimStart s.toList))

/-- Every character of the text is blank. -/
def isAllBlank (s : String) : Bool := s.toList.all isBlank

end BurnRate.Text
