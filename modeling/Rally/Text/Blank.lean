/-!
# Blank characters

The characters with the white space property, which surround a value without belonging to it, and
the removal of such characters at both ends of a text.
-/

namespace Rally

namespace Text

/-- The characters with the white space property. -/
def isBlank (c : Char) : Bool :=
  let n := c.toNat
  (9 ≤ n && n ≤ 13) || n == 0x20 || n == 0x85 || n == 0xA0 || n == 0x1680 ||
    (0x2000 ≤ n && n ≤ 0x200A) || n == 0x2028 || n == 0x2029 || n == 0x202F || n == 0x205F ||
    n == 0x3000

/-- Removes blank characters at the end. -/
def trimEnd (text : List Char) : List Char := (text.reverse.dropWhile isBlank).reverse

/-- Removes blank characters at both ends. -/
def trim (text : List Char) : List Char := trimEnd (text.dropWhile isBlank)

end Text

end Rally
