import Stepwise.Store.Basic

/-!
# States

A state is a program together with the store in which it runs.
-/

namespace Stepwise

/-- A program and its store at one moment of a run. -/
structure State where
  /-- What is left to run. -/
  program : Term
  /-- The variables as they stand. -/
  store : Store
  deriving DecidableEq

namespace State

/-- The text of a state: program, comma, store. -/
def text (s : State) : String := s.program.text ++ ", " ++ s.store.text

/-- The texts of the program and of the store. -/
def texts (s : State) : String × String := (s.program.text, s.store.text)

/-- Whether two states count as the same: equal programs, and stores with the same
bindings in any order. -/
def same (s t : State) : Bool := s.program.same t.program && s.store.agrees t.store

end State

end Stepwise
