import Stepwise.Reduction.Statement

/-!
# One step of any program

A program steps as a statement if it has the shape of one, and as an expression
otherwise. A step of an expression leaves the store alone.

The functions ending in `From` take a draft in place of a store. The checks on the
program come first, then the draft is checked, then the step is made; this decides
which of two faults is reported.
-/

namespace Stepwise

/-- One step of a state. -/
def State.step (st : State) : Except Fault State :=
  if st.program.isStatement then st.program.stepStatement st.store
  else (st.program.stepExpression st.store).map fun t => { st with program := t }

/-- The state after `n` steps, or the fault of the first step that fails. -/
def State.after : Nat → State → Except Fault State
  | 0, st => .ok st
  | n + 1, st =>
    match st.step with
    | .ok st' => after n st'
    | .error f => .error f

namespace Term

/-- One step of an expression whose bindings are still to be checked. -/
def stepExpressionFrom (d : Draft) (t : Term) : Except Fault Term := do
  t.expectExpression
  let s ← d.check
  t.walk s

/-- One step of a statement whose bindings are still to be checked. -/
def stepStatementFrom (d : Draft) (t : Term) : Except Fault State := do
  t.expectStatement
  let s ← d.check
  t.advance s

/-- One step of any program whose bindings are still to be checked. -/
def stepFrom (d : Draft) (t : Term) : Except Fault State :=
  if t.isStatement then t.stepStatementFrom d
  else do
    t.expectExpression
    let s ← d.check
    let t' ← t.walk s
    return ⟨t', s⟩

end Term

end Stepwise
