import Stepwise.Term.Basic

/-!
# The text of a term

Terms are shown the way they read in a trace: operators between their operands, no
parentheses, braces around branches and bodies. The text is for a reader; it cannot be
read back into a tree.
-/

namespace Stepwise

/-- The text of a value. -/
def Value.text : Value → String
  | num n => Numeral.write n
  | bool b => if b then "true" else "false"

namespace Term

/-- The text of a term. -/
def text : Term → String
  | var x => x
  | num n => Numeral.write n
  | bool b => if b then "true" else "false"
  | binary op l r => l.text ++ " " ++ op.symbol ++ " " ++ r.text
  | skip => "do-nothing"
  | assign x e => x ++ " = " ++ e.text
  | cond c a b =>
    "if (" ++ c.text ++ ") \x7b " ++ a.text ++ " \x7d else \x7b " ++ b.text ++ " \x7d"
  | seq a b => a.text ++ "; " ++ b.text
  | loop c b => "while (" ++ c.text ++ ") \x7b " ++ b.text ++ " \x7d"
  | stray v => v.plain

/-- The text of a term set off from a sentence: a term stands in guillemets, a value
from outside the language in its quoted form. -/
def display : Term → String
  | stray v => v.quoted
  | t => "«" ++ t.text ++ "»"

@[simp] theorem text_term (v : Value) : v.term.text = v.text := by
  cases v <;> rfl

end Term

end Stepwise
