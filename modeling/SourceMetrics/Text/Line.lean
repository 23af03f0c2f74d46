/-!
# Lines of a text

A line ends at a line feed, at a carriage return with or without a line feed after it, and at the
other characters that separate lines, paragraphs or pages.
-/

namespace SourceMetrics.Text

/-- Whether a character ends a line. -/
def endsLine (c : Char) : Bool :=
  let n := c.toNat
  (10 ≤ n && n ≤ 13) || (0x1C ≤ n && n ≤ 0x1E) || n == 0x85 || n == 0x2028 || n == 0x2029

/-- The lines of characters, without what ends them. A last line need not be ended. -/
def lines : List Char → List (List Char)
  | [] => []
  | '\r' :: '\n' :: rest => [] :: lines rest
  | c :: rest =>
    if endsLine c then [] :: lines rest
    else
      match lines rest with
      | [] => [[c]]
      | first :: others => (c :: first) :: others

end SourceMetrics.Text
