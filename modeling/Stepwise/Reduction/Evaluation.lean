import Stepwise.Reduction.Measure

/-!
# Evaluation

To evaluate an expression is to step it until it is finished. The empty statement
counts as finished; any other statement has no expression rule and is reported.
-/

namespace Stepwise.Term

/-- Steps an expression until it is finished. -/
def evaluate (s : Store) (t : Term) : Except Fault Term :=
  match t.canStep with
  | .error f => .error f
  | .ok false => .ok t
  | .ok true =>
    match _h : t.stepExpression s with
    | .error f => .error f
    | .ok t' => evaluate s t'
termination_by t.work
decreasing_by exact work_stepExpression_lt _h

/-- Evaluates an expression whose bindings are still to be checked; they are checked
before anything else. -/
def evaluateFrom (d : Draft) (t : Term) : Except Fault Term := do
  let s ← d.check
  t.evaluate s

end Stepwise.Term
