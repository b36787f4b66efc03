import Stepwise.Text.Printable

/-!
# Quoted text

How a name or another text is shown where it must be told apart from its surroundings.
It stands between apostrophes, or between double quotes if it holds an apostrophe and
no double quote. A backslash, the surrounding quote and the characters that cannot be
printed are written as escapes; everything else stands for itself.
-/

namespace Stepwise.Quoted

/-- The quote that surrounds `cs`. -/
def mark (cs : List Char) : Char :=
  if cs.contains '\'' && !cs.contains '"' then '"' else '\''

/-- A hexadecimal digit below sixteen, in lower case. -/
def hexDigit (n : Nat) : Char := Char.ofNat (if n < 10 then 48 + n else 87 + n)

/-- The last `width` hexadecimal digits of `n`. -/
def hex : Nat → Nat → List Char
  | 0, _ => []
  | width + 1, n => hex width (n / 16) ++ [hexDigit (n % 16)]

/-- The escape that names a character by its number, in the shortest of the three forms
of two, four and eight digits. -/
def numbered (n : Nat) : List Char :=
  '\\' ::
    (if n < 0x100 then 'x' :: hex 2 n
     else if n < 0x10000 then 'u' :: hex 4 n
     else 'U' :: hex 8 n)

/-- One character inside the quotes `q`. -/
def escape (q c : Char) : List Char :=
  if c = '\\' then ['\\', '\\']
  else if c = q then ['\\', q]
  else if c = '\n' then ['\\', 'n']
  else if c = '\r' then ['\\', 'r']
  else if c = '\t' then ['\\', 't']
  else if Printable.isPrintable c then [c]
  else numbered c.toNat

/-- The characters of a quoted text, its quotes included. -/
def encode (cs : List Char) : List Char :=
  mark cs :: cs.flatMap (escape (mark cs)) ++ [mark cs]

/-- A text in quotes. -/
def quote (s : String) : String := String.ofList (encode s.toList)

end Stepwise.Quoted
