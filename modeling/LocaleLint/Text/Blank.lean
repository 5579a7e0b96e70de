/-! # Blank characters

Blanks are the white-space characters of Unicode together with the four information separators
`U+001C` to `U+001F`. -/

namespace LocaleLint.Text

def isBlank (c : Char) : Bool :=
  let n := c.toNat
  (0x09 ≤ n && n ≤ 0x0d) || (0x1c ≤ n && n ≤ 0x20) || n == 0x85 || n == 0xa0 || n == 0x1680 ||
    (0x2000 ≤ n && n ≤ 0x200a) || n == 0x2028 || n == 0x2029 || n == 0x202f || n == 0x205f || n == 0x3000

/-- Whether a character may surround a numeral: a blank that is no information separator. -/
def isNumeralMargin (c : Char) : Bool :=
  isBlank c && !(0x1c ≤ c.toNat && c.toNat ≤ 0x1f)

/-- A text without the characters of a class at its two ends. -/
def trim (margin : Char → Bool) (s : List Char) : List Char :=
  ((s.dropWhile margin).reverse.dropWhile margin).reverse

/-- The upper-case ASCII letters made lower-case, all other characters kept. -/
def lower (s : List Char) : List Char := s.map Char.toLower

end LocaleLint.Text
