import Stepwise.Text.Numeral
import Stepwise.Text.Quoted

/-!
# Counts

A count is an integer that is not negative, as it is given on the command line. A text
with more than `Count.maxDigits` digits is refused, whatever it says.
-/

namespace Stepwise

/-- Why a text is no count. -/
inductive CountError
  /-- The text is no numeral. -/
  | notNumeral (s : String)
  /-- The integer is negative. -/
  | negative (n : Int)
  deriving DecidableEq

/-- The sentence that reports why a text is no count. -/
def CountError.message : CountError → String
  | notNumeral s => "invalid int value: " ++ Quoted.quote s
  | negative n => "must be non-negative, got " ++ Numeral.write n

/-- The most digits that a count may have. -/
def Count.maxDigits : Nat := 4300

/-- Reads a count. -/
def Count.read (s : String) : Except CountError Nat :=
  if Count.maxDigits < s.toList.countP Digit.isDigit then .error (.notNumeral s)
  else
    match Numeral.read? s with
    | none => .error (.notNumeral s)
    | some (.ofNat n) => .ok n
    | some (.negSucc n) => .error (.negative (.negSucc n))

end Stepwise
