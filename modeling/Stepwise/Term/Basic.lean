import Stepwise.Scalar

/-!
# Terms of SIMPLE

SIMPLE is a small imperative language without a concrete syntax: its programs are
trees. Expressions are variables, numbers, truth values and the four infix operators;
statements are the empty statement, assignment, conditional, sequence and loop.

A `Term` is any tree over these shapes, as deep as may be. Nothing keeps a statement from
standing where an expression is meant, or a scalar from outside the language from standing
where a term is meant (`stray`): the reduction rules say what becomes of such trees.
-/

namespace Stepwise

/-- The infix operators. `bare` is an infix shape without an operator: it has a place
in a tree but no rule that combines its operands. -/
inductive Op
  | add
  | multiply
  | less
  | greater
  | bare
  deriving DecidableEq, Inhabited, Repr

namespace Op

/-- The sign between the operands. -/
def symbol : Op → String
  | add => "+"
  | multiply => "*"
  | less => "<"
  | greater => ">"
  | bare => "?"

/-- The name under which an operator is reported. -/
def name : Op → String
  | add => "Add"
  | multiply => "Multiply"
  | less => "LessThan"
  | greater => "GreaterThan"
  | bare => "BinaryExpression"

end Op

/-- A program tree. -/
inductive Term
  | var (name : String)
  | num (n : Int)
  | bool (b : Bool)
  /-- Two operands with an operator between them. -/
  | binary (op : Op) (left right : Term)
  /-- The empty statement. -/
  | skip
  /-- Assignment of an expression's value to a name. -/
  | assign (name : String) (e : Term)
  | cond (c a b : Term)
  /-- Sequence: `a`, then `b`. -/
  | seq (a b : Term)
  /-- Loop: `b` as long as `c` is true. -/
  | loop (c b : Term)
  /-- A value from outside the language. -/
  | stray (v : Scalar)
  deriving DecidableEq, Inhabited, Repr

/-- A finished value: what a name can be bound to. -/
inductive Value
  | num (n : Int)
  | bool (b : Bool)
  deriving DecidableEq, Inhabited, Repr

def Value.term : Value → Term
  | num n => .num n
  | bool b => .bool b

instance : Coe Value Term := ⟨Value.term⟩

namespace Term

/-- The value that a term is, if it is one. -/
def value? : Term → Option Value
  | num n => some (.num n)
  | bool b => some (.bool b)
  | _ => none

def isValue (t : Term) : Bool := t.value?.isSome

/-- The five statement shapes. -/
def isStatement : Term → Bool
  | skip | assign .. | cond .. | seq .. | loop .. => true
  | _ => false

/-- The expression shapes; an infix shape without an operator is not one of them. -/
def isExpression : Term → Bool
  | var _ | num _ | bool _ => true
  | binary op _ _ => op != .bare
  | _ => false

/-- How much there is to reduce in a tree: the nodes other than numbers, truth values
and the empty statement, scalars from outside counting nothing. -/
def work : Term → Nat
  | var _ => 1
  | num _ | bool _ | skip | stray _ => 0
  | binary _ l r => l.work + r.work + 1
  | assign _ e => e.work + 1
  | cond c a b => c.work + a.work + b.work + 1
  | seq a b => a.work + b.work + 1
  | loop c b => c.work + b.work + 1

/-- The tree with its scalars from outside in the form in which they are compared. -/
def norm : Term → Term
  | binary op l r => binary op l.norm r.norm
  | assign x e => assign x e.norm
  | cond c a b => cond c.norm a.norm b.norm
  | seq a b => seq a.norm b.norm
  | loop c b => loop c.norm b.norm
  | stray v => stray v.norm
  | t => t

/-- Whether two trees count as the same. -/
def same (t u : Term) : Bool := t.norm == u.norm

@[simp] theorem value?_term (v : Value) : v.term.value? = some v := by
  cases v <;> rfl

theorem value?_eq_some_iff {t : Term} {v : Value} : t.value? = some v ↔ t = v.term := by
  cases t <;> cases v <;> simp [value?, Value.term]

@[simp] theorem work_term (v : Value) : v.term.work = 0 := by
  cases v <;> rfl

end Term

end Stepwise
