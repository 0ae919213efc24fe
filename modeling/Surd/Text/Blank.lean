/-! White space of all scripts. -/

namespace Surd.Text

/-- A character that separates: the blanks and line ends of ASCII and Unicode and the
four separators before the ASCII blank. A space of no width is not one. -/
def isBlank (c : Char) : Bool :=
  let code := c.toNat
  (9 ≤ code && code ≤ 13) || (28 ≤ code && code ≤ 32) || code == 0x85 || code == 0xA0 ||
    code == 0x1680 || (0x2000 ≤ code && code ≤ 0x200A) || code == 0x2028 || code == 0x2029 ||
    code == 0x202F || code == 0x205F || code == 0x3000

def strip (text : List Char) : List Char :=
  ((text.dropWhile isBlank).reverse.dropWhile isBlank).reverse

/-- The ASCII blanks and line ends, and every blank outside ASCII. -/
def isMargin (c : Char) : Bool :=
  let code := c.toNat
  (9 ≤ code && code ≤ 13) || code == 32 || (128 ≤ code && isBlank c)

end Surd.Text
