/-!
# Decimal digits

Every script with decimal digits has ten of them in a row, so the digits are given by the code
points of their zeros.
-/

namespace SourceMetrics.Text

/-- The code points of the zeros of all scripts. -/
def zeroCodes : List Nat :=
  [0x30, 0x660, 0x6F0, 0x7C0, 0x966, 0x9E6, 0xA66, 0xAE6, 0xB66, 0xBE6, 0xC66, 0xCE6, 0xD66,
   0xDE6, 0xE50, 0xED0, 0xF20, 0x1040, 0x1090, 0x17E0, 0x1810, 0x1946, 0x19D0, 0x1A80, 0x1A90,
   0x1B50, 0x1BB0, 0x1C40, 0x1C50, 0xA620, 0xA8D0, 0xA900, 0xA9D0, 0xA9F0, 0xAA50, 0xABF0,
   0xFF10, 0x104A0, 0x10D30, 0x11066, 0x110F0, 0x11136, 0x111D0, 0x112F0, 0x11450, 0x114D0,
   0x11650, 0x116C0, 0x11730, 0x118E0, 0x11950, 0x11C50, 0x11D50, 0x11DA0, 0x16A60, 0x16AC0,
   0x16B50, 0x1D7CE, 0x1D7D8, 0x1D7E2, 0x1D7EC, 0x1D7F6, 0x1E140, 0x1E2F0, 0x1E950, 0x1FBF0]

/-- The value of a decimal digit of any script. -/
def digit? (c : Char) : Option Nat :=
  (zeroCodes.find? fun first => first ≤ c.toNat && c.toNat < first + 10).map (c.toNat - ·)

/-- The value of a row of digits in a base; none if it has a character that is no digit. -/
def readDigits (base : Nat) (value : Char → Option Nat) (cs : List Char) : Option Nat :=
  cs.foldl
    (fun read c =>
      match read, value c with
      | some n, some d => some (base * n + d)
      | _, _ => none)
    (some 0)

/-- Drop the underscores that stand singly between two characters of a class; none if there is an
underscore elsewhere. -/
def joinGroups (member : Char → Bool) : List Char → Option (List Char)
  | [] => some []
  | [c] => if c = '_' then none else some [c]
  | c :: d :: rest =>
    if c = '_' then none
    else if member c && d = '_' then
      match rest with
      | e :: _ => if member e then (joinGroups member rest).map (c :: ·) else none
      | [] => none
    else (joinGroups member (d :: rest)).map (c :: ·)

end SourceMetrics.Text
