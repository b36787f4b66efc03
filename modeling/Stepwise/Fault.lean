import Stepwise.Store.Basic

/-!
# What can go wrong in a step

A `Fault` says why a step cannot be taken or a binding cannot be made. It carries what
it is about: the name and the store of a failed lookup, the term that has no rule. The
wording is `message`.
-/

namespace Stepwise

/-- Why a step or a binding is refused. -/
inductive Fault
  /-- A name was read that the store does not bind. -/
  | unbound (name : Scalar) (store : Store)
  /-- A step was asked of a finished term. -/
  | irreducible (t : Term)
  /-- The condition of a branch came out as no truth value. -/
  | conditionNotTruth (t : Term)
  /-- An operator met finished operands of the wrong kind. -/
  | operands (op : Op) (left right : Term)
  /-- A value from outside the language stands where a term is needed. -/
  | notTerm (v : Scalar)
  /-- A tree without an expression rule stands where an expression is needed. -/
  | notExpression (t : Term)
  /-- A tree without a statement rule stands where a statement is needed. -/
  | notStatement (t : Term)
  | nameNotText (name : Scalar)
  /-- A name was to be bound to something other than a number or a truth value. -/
  | valueNotFinished (name : String) (t : Term)
  deriving DecidableEq

/-- The name of a fault that well-made programs run into. The other faults, which have no
such name, tell of a tree or a binding that is not well made. -/
def Fault.title? : Fault → Option String
  | unbound .. => some "UnboundVariable"
  | irreducible _ => some "NonReducibleInvariantViolation"
  | conditionNotTruth _ => some "NonBooleanCondition"
  | operands .. => some "OperandTypeMismatch"
  | _ => none

def Fault.message : Fault → String
  | unbound x _ => "Unbound variable '" ++ x.plain ++ "'"
  | irreducible t => t.display ++ " is not reducible"
  | conditionNotTruth t => "Condition reduced to non-boolean value " ++ t.display
  | operands op l r =>
    "Cannot apply " ++ op.name ++ " to " ++ l.display ++ " and " ++ r.display
  | notTerm v => "Not a SIMPLE node: " ++ v.quoted
  | notExpression t => "Not a SIMPLE expression: " ++ t.display
  | notStatement t => "Not a SIMPLE statement: " ++ t.display
  | nameNotText x => "Variable names must be strings, got " ++ x.quoted
  | valueNotFinished x t =>
    "Environment values must be Number or Boolean, got " ++ t.display
      ++ " for '" ++ x ++ "'"

end Stepwise
