import Stepwise.History.Basic
import Stepwise.Reduction.Step

/-!
# Sessions

A `Session` holds the current state of a program together with the number of steps
taken so far and an optional limit on the steps of one run. A step either moves the
session to the next state and counts one, or fails and leaves the session as it was.
-/

namespace Stepwise

/-- A program on its way. -/
structure Session where
  state : State
  /-- The steps taken since the session was started. -/
  taken : Nat
  /-- The most steps that one run may take, if there is a limit. It is negative only if
  it was set so after the start. -/
  limit : Option Int
  deriving DecidableEq

/-- Why a session cannot be started. -/
inductive StartError
  | negativeLimit (n : Int)
  /-- The program is no term, or a binding is not allowed. -/
  | fault (f : Fault)
  deriving DecidableEq

def StartError.message : StartError → String
  | negativeLimit n => "max_steps must be non-negative, got " ++ Numeral.write n
  | fault f => f.message

namespace Session

/-- A session that starts a program in a store. -/
def begin (program : Term) (store : Store) (limit : Option Int) : Session :=
  ⟨⟨program, store⟩, 0, limit⟩

def negative? : Option Int → Option Int
  | some n => if n < 0 then some n else none
  | none => none

/-- Starts a session from unchecked parts: first the limit is looked at, then the
program, then the bindings. -/
def start (program : Term) (draft : Draft) (limit : Option Int) :
    Except StartError Session :=
  match negative? limit with
  | some n => .error (.negativeLimit n)
  | none =>
    match program.canStep with
    | .error f => .error (.fault f)
    | .ok _ =>
      match draft.check with
      | .error f => .error (.fault f)
      | .ok store => .ok (begin program store limit)

def canStep (m : Session) : Except Fault Bool := m.state.program.canStep

/-- The current state with its number. -/
def entry (m : Session) : Entry := ⟨m.taken, m.state⟩

/-- One step: program and store are replaced together, and the step is counted. -/
def step (m : Session) : Except Fault Session :=
  match m.canStep with
  | .error f => .error f
  | .ok false => .error (.irreducible m.state.program)
  | .ok true => m.state.step.map fun st => { m with state := st, taken := m.taken + 1 }

def display (m : Session) : String :=
  "Machine(" ++ m.state.program.display ++ ", " ++ m.state.store.text ++ ")"

end Session

end Stepwise
