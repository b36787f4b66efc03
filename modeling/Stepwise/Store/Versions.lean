import Stepwise.Store.Binding
import Stepwise.Likeness

/-!
# Versions of a store

A write to a store leaves the store as it was, so every version stays available for
further writes. `Versions` numbers the stores that come out of writes to any earlier
one; version zero is the store at the beginning.
-/

namespace Stepwise

/-- The versions so far, in the order in which they came about. -/
structure Versions where
  stores : List Store
  deriving DecidableEq

namespace Versions

/-- The beginning: one version. -/
def ofStore (s : Store) : Versions := ⟨[s]⟩

/-- The version with number `i`. -/
def at? (vs : Versions) (i : Nat) : Option Store := vs.stores[i]?

/-- One more version, unless the binding written to `s` is not allowed. -/
def bind (vs : Versions) (s : Store) (name : Scalar) (t : Term) :
    Except Fault (Versions × Store) :=
  (s.bind name t).map fun s' => (⟨vs.stores ++ [s']⟩, s')

/-- How many versions differ, the order of bindings left aside. -/
def distinct (vs : Versions) : Nat := Likeness.classes (fun s t => s.agrees t) vs.stores

end Versions

end Stepwise
