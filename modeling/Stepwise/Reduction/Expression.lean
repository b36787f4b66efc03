import Stepwise.Store.Binding

/-!
# One step of an expression

Operands are reduced from left to right, and an operator is applied once both of its
operands are finished. The place where a step happens is found by walking down from the
root (`descend`): the walk remembers, for each operator it passes, the operand that
stands still (`Frame`). The term at the end of the walk is contracted, and the frames
are put back around the result (`rebuild`).

The walk asks of each operand only whether it can step. Where it stops it may thus have
found a term without an expression rule, which `contract` then reports.
-/

namespace Stepwise

namespace Term

/-- Whether a term has a step left: everything but numbers, truth values and the empty
statement has one. The question makes no sense for a value from outside the language. -/
def canStep : Term → Except Fault Bool
  | num _ | bool _ | skip => .ok false
  | stray v => .error (.notTerm v)
  | _ => .ok true

/-- An operator with one operand missing. -/
inductive Frame
  /-- The left operand is missing. -/
  | onLeft (op : Op) (right : Term)
  /-- The right operand is missing. -/
  | onRight (op : Op) (left : Term)
  deriving DecidableEq

def Frame.fill : Frame → Term → Term
  | onLeft op r, t => binary op t r
  | onRight op l, t => binary op l t

/-- Puts the frames back around a term, the innermost first. -/
def rebuild (path : List Frame) (t : Term) : Term :=
  path.foldl (fun t f => f.fill t) t

/-- Walks down to the operand whose turn it is: into the left operand as long as that
can step, otherwise into the right one. Gives the frames passed, innermost first, and
the term where the walk ends. -/
def descend (path : List Frame) : Term → Except Fault (List Frame × Term)
  | binary op l r =>
    match l.canStep with
    | .error f => .error f
    | .ok true => descend (.onLeft op r :: path) l
    | .ok false =>
      match r.canStep with
      | .error f => .error f
      | .ok true => descend (.onRight op l :: path) r
      | .ok false => .ok (path, binary op l r)
  | t => .ok (path, t)

end Term

/-- What an operator makes of two numbers; an infix shape without an operator makes
nothing of them. -/
def Op.rule? : Op → Option (Int → Int → Value)
  | add => some fun m n => .num (m + n)
  | multiply => some fun m n => .num (m * n)
  | less => some fun m n => .bool (m < n)
  | greater => some fun m n => .bool (m > n)
  | bare => none

namespace Term

/-- Applies an operator to two finished operands. -/
def combine (op : Op) (l r : Term) : Except Fault Term :=
  match op.rule? with
  | none => .error (.notExpression (binary op l r))
  | some f =>
    match l, r with
    | num m, num n => .ok (f m n).term
    | _, _ => .error (.operands op l r)

/-- The rule for a term whose operands, if it has any, are finished. -/
def contract (s : Store) : Term → Except Fault Term
  | var x => (s.lookup (.text x)).map Value.term
  | binary op l r => combine op l r
  | t => .error (.notExpression t)

/-- Refuses what is no expression, and an expression that is finished. -/
def expectExpression (t : Term) : Except Fault Unit :=
  if !t.isExpression then .error (.notExpression t)
  else
    match t.canStep with
    | .error f => .error f
    | .ok true => .ok ()
    | .ok false => .error (.irreducible t)

/-- Walks down, contracts, and rebuilds. -/
def walk (s : Store) (t : Term) : Except Fault Term := do
  let (path, spot) ← descend [] t
  let spot' ← contract s spot
  return rebuild path spot'

/-- One step of an expression in a store. -/
def stepExpression (s : Store) (t : Term) : Except Fault Term := do
  t.expectExpression
  t.walk s

end Term

end Stepwise
