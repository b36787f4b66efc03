import Stepwise.Reduction.Expression
import Stepwise.State

/-!
# One step of a statement

* `x = e` reduces `e`; once `e` is finished, it binds `x` and becomes the empty
  statement.
* `if (c) { a } else { b }` reduces `c`; once `c` is a truth value, it becomes one of
  its branches.
* `a; b` reduces `a`; once `a` is the empty statement, it becomes `b`.
* `while (c) { b }` becomes `if (c) { b; while (c) { b } } else { do-nothing }`.

As with operands, the step of a nest of sequences happens at its innermost head, which
is found by walking down (`head`); the second halves passed on the way are put back
around the result.
-/

namespace Stepwise.Term

/-- Walks down the heads of a nest of sequences, collecting the second halves, the
innermost first. The walk ends at the first term that is no sequence, or at a sequence
whose head is the empty statement. -/
def head (seconds : List Term) : Term → List Term × Term
  | seq skip b => (seconds, seq skip b)
  | seq a b => head (b :: seconds) a
  | t => (seconds, t)

/-- Puts the second halves back. -/
def resume (seconds : List Term) (t : Term) : Term := seconds.foldl seq t

/-- The rule for a statement that is not a sequence with a head to reduce. -/
def stepHead (s : Store) : Term → Except Fault State
  | assign x e =>
    match e.canStep with
    | .error f => .error f
    | .ok true => (stepExpression s e).map fun e' => ⟨assign x e', s⟩
    | .ok false => (s.bind (.text x) e).map fun s' => ⟨skip, s'⟩
  | cond c a b =>
    match c.canStep with
    | .error f => .error f
    | .ok true => (stepExpression s c).map fun c' => ⟨cond c' a b, s⟩
    | .ok false =>
      match c with
      | bool true => .ok ⟨a, s⟩
      | bool false => .ok ⟨b, s⟩
      | _ => .error (.conditionNotTruth c)
  | seq _ b => .ok ⟨b, s⟩
  | loop c b => .ok ⟨cond c (seq b (loop c b)) skip, s⟩
  | t => .error (.notStatement t)

/-- Refuses what is no statement, and the empty statement. -/
def expectStatement (t : Term) : Except Fault Unit :=
  if !t.isStatement then .error (.notStatement t)
  else
    match t.canStep with
    | .error f => .error f
    | .ok true => .ok ()
    | .ok false => .error (.irreducible t)

/-- Walks down to the head, steps it, and puts the second halves back. -/
def advance (s : Store) (t : Term) : Except Fault State :=
  (stepHead s (head [] t).2).map fun st => { st with program := resume (head [] t).1 st.program }

/-- One step of a statement in a store. -/
def stepStatement (s : Store) (t : Term) : Except Fault State := do
  t.expectStatement
  t.advance s

end Stepwise.Term
