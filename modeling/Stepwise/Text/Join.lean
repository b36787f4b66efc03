/-!
# Joining and repeating pieces of text
-/

namespace Stepwise.Text

/-- The pieces in order, with `sep` between neighbours. -/
def joinWith (sep : String) : List String → String
  | [] => ""
  | [piece] => piece
  | piece :: rest => piece ++ sep ++ joinWith sep rest

/-- `n` times the character `c`. -/
def replicate (n : Nat) (c : Char) : String := String.ofList (List.replicate n c)

/-- Fills `s` with blanks on the right until it is `width` characters wide. -/
def padRight (width : Nat) (s : String) : String := s ++ replicate (width - s.length) ' '

/-- The pieces, each followed by a line end. -/
def lines (pieces : List String) : String := (pieces.map (· ++ "\n")).foldr (· ++ ·) ""

end Stepwise.Text
