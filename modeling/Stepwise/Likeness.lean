/-!
# Classes of likeness

Given a test of likeness, a list falls into classes, each represented by its first
member. `firstAlike` names the representative of every member by its position, and
`classes` counts the representatives.
-/

namespace Stepwise.Likeness

variable {α : Type}

/-- For every member of the list, the position of the first member that is like it. -/
def firstAlike (alike : α → α → Bool) (l : List α) : List Nat :=
  l.map fun a => l.findIdx fun b => alike b a

/-- How many classes the list falls into: the members that no earlier one is like. -/
def classes (alike : α → α → Bool) (l : List α) : Nat :=
  ((firstAlike alike l).zipIdx.filter fun p => p.1 == p.2).length

end Stepwise.Likeness
