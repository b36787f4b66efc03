/-!
# Blanks

The characters that leave room and have no other meaning: the space, the line and page
breaks, and the spaces of other scripts and widths, after the Unicode Character Database.
The separators of ASCII (U+001C to U+001F) are not among them.
-/

namespace Stepwise.Blank

/-- The runs of blanks, each with its first and last character, in ascending order. -/
def runs : List (Nat × Nat) := [
  (0x9, 0xd), (0x20, 0x20), (0x85, 0x85), (0xa0, 0xa0), (0x1680, 0x1680),
  (0x2000, 0x200a), (0x2028, 0x2029), (0x202f, 0x202f), (0x205f, 0x205f),
  (0x3000, 0x3000)]

/-- Whether a character is a blank. -/
def isBlank (c : Char) : Bool := runs.any fun r => r.1 ≤ c.toNat && c.toNat ≤ r.2

/-- Drops the blanks on both sides. -/
def trim (cs : List Char) : List Char :=
  ((cs.dropWhile isBlank).reverse.dropWhile isBlank).reverse

end Stepwise.Blank
