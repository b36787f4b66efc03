import Stepwise.Text.Numeral
import Stepwise.Text.Quoted

/-!
# Scalars

Plain values from outside the language. They turn up in two places: as a name whose
kind has not been checked yet, and as a child of a term where a term should stand. The
four kinds of them here are all that is considered.

A scalar has a `plain` text, in which a text stands for itself, and a `quoted` text,
in which a text stands in quotes.
-/

namespace Stepwise

/-- A value that is no term of the language. -/
inductive Scalar
  | null
  | truth (b : Bool)
  | int (n : Int)
  | text (s : String)
  deriving DecidableEq, Inhabited, Repr

namespace Scalar

/-- The text of a scalar, a text standing for itself. -/
def plain : Scalar → String
  | null => "None"
  | truth true => "True"
  | truth false => "False"
  | int n => Numeral.write n
  | text s => s

/-- The text of a scalar, a text standing in quotes. -/
def quoted : Scalar → String
  | text s => Quoted.quote s
  | v => v.plain

/-- A truth value counts as the number one or zero when scalars are compared. -/
def norm : Scalar → Scalar
  | truth true => int 1
  | truth false => int 0
  | v => v

end Scalar

end Stepwise
