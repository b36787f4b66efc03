import Stepwise.Table
import Stepwise.Text.Join
import Stepwise.Term.Text

/-!
# Stores

A `Store` is the table of the variables and their values at one moment of a run. It is
never changed: a write gives a new store, so that every recorded state keeps its own.
-/

namespace Stepwise

/-- The variables in order of their first write, each with its value. -/
abbrev Store := Table String Value

namespace Store

/-- The text of a store, for instance `{x: 2, y: true}`. -/
def text (s : Store) : String :=
  "\x7b" ++ Text.joinWith ", " (s.entries.map fun p => p.1 ++ ": " ++ p.2.text) ++ "\x7d"

/-- The text of a store with names and values set off, for instance
`Environment({'x': «2»})`. -/
def display (s : Store) : String :=
  "Environment(\x7b"
    ++ Text.joinWith ", "
        (s.entries.map fun p => Quoted.quote p.1 ++ ": " ++ p.2.term.display)
    ++ "\x7d)"

/-- The value of a name that may be no text; only texts are ever bound. -/
def find? (s : Store) : Scalar → Option Value
  | .text x => s.get? x
  | _ => none

/-- Whether a name is bound. -/
def binds (s : Store) (name : Scalar) : Bool := (s.find? name).isSome

/-- The names with the texts of their values. -/
def texts (s : Store) : List (String × String) := s.entries.map fun p => (p.1, p.2.text)

end Store

end Stepwise
