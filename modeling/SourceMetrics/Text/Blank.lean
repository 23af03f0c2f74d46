/-!
# Blank characters

The characters that count as white space at the ends of a text, after the Unicode property of that
name together with the four information separators.
-/

namespace SourceMetrics.Text

/-- Whether a character is white space. -/
def isBlank (c : Char) : Bool :=
  let n := c.toNat
  (9 ≤ n && n ≤ 13) || (0x1C ≤ n && n ≤ 0x20) || n == 0x85 || n == 0xA0 || n == 0x1680
    || (0x2000 ≤ n && n ≤ 0x200A) || n == 0x2028 || n == 0x2029 || n == 0x202F || n == 0x205F
    || n == 0x3000

/-- Whether a character is one of the four information separators. -/
def isSeparator (c : Char) : Bool :=
  0x1C ≤ c.toNat && c.toNat ≤ 0x1F

/-- Drop the characters of a class from both ends. -/
def strip (drop : Char → Bool) (cs : List Char) : List Char :=
  ((cs.dropWhile drop).reverse.dropWhile drop).reverse

/-- The lower case of a letter, for the letters whose lower case is in the basic alphabet. -/
def lower (c : Char) : Char :=
  if c.toNat = 0x212A then 'k' else c.toLower

end SourceMetrics.Text
