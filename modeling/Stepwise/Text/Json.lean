import Stepwise.Text.Numeral
import Stepwise.Text.Quoted

/-!
# JSON documents

A `Json` value keeps the members of an object in the order given, and its numbers are
integers. It is printed either on one line or as a block with one item per line; an
empty list or object is always written `[]` or `{}`.

In a string only the double quote, the backslash and the characters below U+0020 are
escaped; every other character stands for itself.
-/

namespace Stepwise

inductive Json
  | null
  | int (n : Int)
  | text (s : String)
  | list (items : List Json)
  | object (members : List (String × Json))
  deriving Inhabited

namespace Json

/-- How a document is laid out. -/
inductive Layout
  | inline
  /-- One item per line, `width` blanks deeper at each level. -/
  | block (width : Nat)
  deriving DecidableEq

/-- The layout for an indentation: none at all means one line, and a negative one counts
as zero. -/
def Layout.ofIndent : Option Int → Layout
  | none => inline
  | some n => block n.toNat

/-- The line break and the indentation of level `n`. -/
def Layout.newline (n : Nat) : Layout → List Char
  | inline => []
  | block width => '\n' :: List.replicate (width * n) ' '

/-- What stands between two items of level `n`. -/
def Layout.comma (n : Nat) : Layout → List Char
  | inline => [',', ' ']
  | block width => ',' :: Layout.newline n (block width)

def escape (c : Char) : List Char :=
  if c = '"' then ['\\', '"']
  else if c = '\\' then ['\\', '\\']
  else if c = '\n' then ['\\', 'n']
  else if c = '\r' then ['\\', 'r']
  else if c = '\t' then ['\\', 't']
  else if c = '\x08' then ['\\', 'b']
  else if c = '\x0c' then ['\\', 'f']
  else if c.toNat < 32 then
    ['\\', 'u', '0', '0', Quoted.hexDigit (c.toNat / 16), Quoted.hexDigit (c.toNat % 16)]
  else [c]

/-- A string, its quotes included. -/
def quote (s : String) : List Char := '"' :: s.toList.flatMap escape ++ ['"']

mutual

/-- The characters of a value that stands at level `n`. -/
def chars (layout : Layout) (n : Nat) : Json → List Char
  | null => ['n', 'u', 'l', 'l']
  | int i => (Numeral.write i).toList
  | text s => quote s
  | list [] => ['[', ']']
  | list (item :: items) =>
    '[' :: layout.newline (n + 1) ++ chars layout (n + 1) item
      ++ itemChars layout (n + 1) items ++ layout.newline n ++ [']']
  | object [] => ['\x7b', '\x7d']
  | object ((name, value) :: members) =>
    '\x7b' :: layout.newline (n + 1) ++ quote name ++ [':', ' ']
      ++ chars layout (n + 1) value ++ memberChars layout (n + 1) members
      ++ layout.newline n ++ ['\x7d']

/-- The items after the first, each behind its comma. -/
def itemChars (layout : Layout) (n : Nat) : List Json → List Char
  | [] => []
  | item :: items => layout.comma n ++ chars layout n item ++ itemChars layout n items

/-- The members after the first, each behind its comma. -/
def memberChars (layout : Layout) (n : Nat) : List (String × Json) → List Char
  | [] => []
  | (name, value) :: members =>
    layout.comma n ++ quote name ++ [':', ' '] ++ chars layout n value
      ++ memberChars layout n members

end

def render (layout : Layout) (v : Json) : String := String.ofList (chars layout 0 v)

end Json

end Stepwise
